import ProductSegments.Json.Skip
import ProductSegments.Proofs.Json.Grammar
import ProductSegments.Proofs.Text.Utf8

/-!
# Strings of documents

A string is read as the characters that it spells, and what spells no characters is not read.  One
that nobody looks at is skipped up to its closing quote, whatever it spells.

## Main results

* `Json.reads_stringRest_iff` — the characters read are those spelled up to the closing quote.
* `Json.skipStringTail_eq_some_iff` — what is skipped is what may be passed over.
-/

namespace ProductSegments.Json

/-! ### Bytes of characters -/

theorem byte_inj {c d : Char} (hc : c.toNat < 0x80) (hd : d.toNat < 0x80) (h : byte c = byte d) :
    c = d := by
  have toNat := congrArg UInt8.toNat h
  rw [Utf8.toNat_ofNat (by omega), Utf8.toNat_ofNat (by omega)] at toNat
  exact Char.toNat_inj.mp toNat

/-- The first byte of a character that is not escaped looks like no escaped one. -/
theorem exists_encodeChar_plain {c : Char} (quote : c ≠ '"') (backslash : c ≠ '\\')
    (plain : ¬c.toNat < 0x20) : ∃ b s, String.utf8EncodeChar c = b :: s ∧ b ≠ byte '"' ∧
      b ≠ byte '\\' ∧ ¬b < 0x20 := by
  rcases Utf8.utf8EncodeChar_cases c with ⟨ascii, he⟩ | ⟨-, b, s, he, large⟩
  · exact ⟨byte c, [], he, fun eq => quote (byte_inj ascii (by decide) eq),
      fun eq => backslash (byte_inj ascii (by decide) eq),
      Utf8.not_ofNat_lt (by omega) (Nat.le_of_not_lt plain)⟩
  · refine ⟨b, s, he, ?_, ?_, ?_⟩
    · rintro rfl
      exact absurd large (by decide)
    · rintro rfl
      exact absurd large (by decide)
    · rw [UInt8.lt_iff_toNat_lt]
      show ¬b.toNat < 0x20
      omega

/-- A character whose first byte looks like no escaped one is not escaped. -/
theorem plain_of_encodeChar {c : Char} {b : UInt8} {s : List UInt8}
    (h : String.utf8EncodeChar c = b :: s) (quote : b ≠ byte '"') (backslash : b ≠ byte '\\')
    (control : ¬b < 0x20) : c ≠ '"' ∧ c ≠ '\\' ∧ ¬c.toNat < 0x20 := by
  refine ⟨?_, ?_, ?_⟩
  · rintro rfl
    exact quote (List.cons.inj h).1.symm
  · rintro rfl
    exact backslash (List.cons.inj h).1.symm
  · intro low
    rw [Utf8.encodeChar_of_ascii (by omega)] at h
    obtain ⟨rfl, -⟩ := List.cons.inj h
    exact control (Utf8.ofNat_lt (by omega) (show c.toNat < 0x20 from low))

/-! ### Escapes -/

section Escapes

variable {s rest : List UInt8} {c : Char}

/-- Four digits are read, whatever stands behind them. -/
theorem exists_of_hexQuad? {n : Nat} (h : hexQuad? s = some (n, rest)) : ∃ ds, s = ds ++ rest ∧
    ∀ rest', hexQuad? (ds ++ rest') = some (n, rest') := by
  match s, h with
  | a :: b :: c :: d :: s, h =>
    simp only [hexQuad?, Option.bind_eq_bind, Option.bind_eq_some_iff, Option.some.injEq,
      Prod.mk.injEq] at h
    obtain ⟨va, ha, vb, hb, vc, hc, vd, hd, sum, rfl⟩ := h
    refine ⟨[a, b, c, d], rfl, fun rest' => ?_⟩
    simp only [List.cons_append, List.nil_append, hexQuad?, ha, hb, hc, hd, bind, Option.bind, sum]

/-- Four digits are read without a look at what stands behind them. -/
theorem hexQuad?_eq_some_iff {n : Nat} :
    hexQuad? s = some (n, rest) ↔ ∃ ds, hexQuad? ds = some (n, []) ∧ s = ds ++ rest := by
  constructor
  · intro h
    obtain ⟨ds, rfl, read⟩ := exists_of_hexQuad? h
    exact ⟨ds, by simpa using read [], rfl⟩
  · rintro ⟨ds, h, rfl⟩
    obtain ⟨ds, rfl, read⟩ := exists_of_hexQuad? h
    rw [List.append_nil]
    exact read rest

theorem exactly?_eq_some_iff {expected : List UInt8} :
    exactly? expected s = some rest ↔ s = expected ++ rest := by
  unfold exactly?
  constructor
  · intro h
    split at h
    · next front =>
      obtain ⟨t, rfl⟩ := List.isPrefixOf_iff_prefix.mp front
      rw [List.drop_left] at h
      rw [Option.some.inj h]
    · cases h
  · rintro rfl
    rw [if_pos (List.isPrefixOf_iff_prefix.mpr (List.prefix_append _ _)), List.drop_left]

/-- What is escaped by digits: a code point, or the halves of a surrogate pair. -/
theorem escapeDigits?_eq_some_iff : escapeDigits? s = some (c, rest) ↔
    ∃ ds, Spelled c (byte '\\' :: byte 'u' :: ds) ∧ s = ds ++ rest := by
  constructor
  · intro h
    obtain ⟨⟨high, t⟩, first, read⟩ := Option.bind_eq_some_iff.mp h
    obtain ⟨ds, digits, rfl⟩ := hexQuad?_eq_some_iff.mp first
    dsimp only at read
    split at read
    · next whole =>
      obtain ⟨rfl, rfl⟩ := Prod.mk.inj (Option.some.inj read)
      exact ⟨ds, .unit digits whole, rfl⟩
    · next notWhole =>
      split at read
      · cases read
      · next isHigh =>
        obtain ⟨u, mark, read₁⟩ := Option.bind_eq_some_iff.mp read
        obtain ⟨⟨low, v⟩, second, read₂⟩ := Option.bind_eq_some_iff.mp read₁
        obtain ⟨es, digits', split⟩ := hexQuad?_eq_some_iff.mp second
        have front := exactly?_eq_some_iff.mp mark
        dsimp only at read₂
        split at read₂
        · next isLow =>
          obtain ⟨rfl, rfl⟩ := Prod.mk.inj (Option.some.inj read₂)
          refine ⟨_, .pair digits digits' ⟨by omega, by omega⟩ isLow, ?_⟩
          rw [front, split]
          simp
        · cases read₂
  · rintro ⟨ds, spelled, rfl⟩
    generalize hw : byte '\\' :: byte 'u' :: ds = written at spelled
    cases spelled with
    | @plain c quote backslash control =>
      obtain ⟨b, s, he, -, notBackslash, -⟩ := exists_encodeChar_plain quote backslash control
      rw [he] at hw
      exact absurd (List.cons.inj hw).1.symm notBackslash
    | letter h =>
      obtain ⟨rfl, -⟩ := List.cons.inj (List.cons.inj hw).2
      cases h
    | unit digits whole =>
      obtain rfl := (List.cons.inj (List.cons.inj hw).2).2
      rw [escapeDigits?, hexQuad?_eq_some_iff.mpr ⟨_, digits, rfl⟩]
      simp only [bind, Option.bind, if_pos whole]
    | @pair high low ds es first second isHigh isLow =>
      obtain rfl := (List.cons.inj (List.cons.inj hw).2).2
      rw [List.append_assoc, escapeDigits?, hexQuad?_eq_some_iff.mpr ⟨_, first, rfl⟩]
      have mark : exactly? [byte '\\', byte 'u'] ((byte '\\' :: byte 'u' :: es) ++ rest) =
          some (es ++ rest) := exactly?_eq_some_iff.mpr rfl
      have digits : hexQuad? (es ++ rest) = some (low, rest) :=
        hexQuad?_eq_some_iff.mpr ⟨_, second, rfl⟩
      simp only [bind, Option.bind, mark, digits,
        if_neg (show ¬(high < 0xD800 ∨ 0xE000 ≤ high) by omega),
        if_neg (show ¬0xDC00 ≤ high by omega), if_pos isLow]

end Escapes

/-! ### Characters -/

section Characters

variable {s rest : List UInt8} {c : Char}

/-- A character that is spelled does not look like the closing quote, and it is read. -/
theorem Spelled.exists_character {written : List UInt8} (h : Spelled c written) :
    ∃ b bs, written = b :: bs ∧ b ≠ byte '"' ∧
      ∀ rest, character? (b :: (bs ++ rest)) = some (c, rest) := by
  have digits {ds : List UInt8} (h : Spelled c (byte '\\' :: byte 'u' :: ds)) (rest : List UInt8) :
      character? (byte '\\' :: (byte 'u' :: ds ++ rest)) = some (c, rest) := by
    simp only [character?, if_true, List.cons_append]
    exact escapeDigits?_eq_some_iff.mpr ⟨ds, h, rfl⟩
  cases h with
  | plain quote backslash control =>
    obtain ⟨b, s, he, hquote, hbackslash, hcontrol⟩ := exists_encodeChar_plain quote backslash control
    refine ⟨b, s, he, hquote, fun rest => ?_⟩
    simp only [character?, if_neg hbackslash, if_neg hcontrol]
    rw [← List.cons_append, ← he]
    exact Utf8.next?_encodeChar c rest
  | @letter c b letter =>
    have notDigits : b ≠ byte 'u' := by
      rintro rfl
      cases letter
    refine ⟨_, _, rfl, by decide, fun rest => ?_⟩
    simp only [character?, if_true, List.cons_append, if_neg notDigits, letter, Option.map_some]
    rfl
  | unit quad whole => exact ⟨_, _, rfl, by decide, digits (.unit quad whole)⟩
  | pair first second isHigh isLow =>
    exact ⟨_, _, rfl, by decide, digits (.pair first second isHigh isLow)⟩

/-- What is read as a character spells it. -/
theorem exists_spelled {b : UInt8} {tail : List UInt8} (quote : b ≠ byte '"')
    (h : character? (b :: tail) = some (c, rest)) :
    ∃ written, Spelled c written ∧ b :: tail = written ++ rest := by
  simp only [character?] at h
  split at h
  · next backslash =>
    subst backslash
    split at h
    · cases h
    · next letter s =>
      split at h
      · next isDigits =>
        obtain ⟨ds, spelled, rfl⟩ := escapeDigits?_eq_some_iff.mp h
        exact ⟨_, spelled, by rw [isDigits]; rfl⟩
      · obtain ⟨d, found, h⟩ := Option.map_eq_some_iff.mp h
        obtain ⟨rfl, rfl⟩ := Prod.mk.inj h
        exact ⟨_, .letter found, rfl⟩
  · next backslash =>
    split at h
    · cases h
    · next control =>
      have split := Utf8.eq_of_next? h
      refine ⟨_, ?_, split⟩
      obtain ⟨a, s, he⟩ : ∃ a s, String.utf8EncodeChar c = a :: s := by
        rcases Utf8.utf8EncodeChar_cases c with ⟨-, he⟩ | ⟨-, a, s, he, -⟩
        · exact ⟨_, _, he⟩
        · exact ⟨_, _, he⟩
      rw [he] at split
      obtain ⟨rfl, -⟩ := List.cons.inj split
      obtain ⟨notQuote, notBackslash, notControl⟩ := plain_of_encodeChar he quote backslash control
      exact .plain notQuote notBackslash notControl

end Characters

/-! ### Strings that are read -/

section Read

variable {origin s rest : List UInt8} {cs : List Char}

/-- Characters that are spelled up to a quote are read behind those read before. -/
theorem Spells.exists_stringTail {raw : List UInt8} (h : Spells cs raw) (origin rest : List UInt8) :
    ∀ read le, ∃ shorter, stringTail origin read (raw ++ byte '"' :: rest) le =
      .ok ⟨read.reverse ++ cs, rest, shorter⟩ := by
  induction h with
  | nil =>
    intro read le
    refine ⟨length_tail_lt le, ?_⟩
    have le : (byte '"' :: rest).length ≤ origin.length := le
    show stringTail origin read (byte '"' :: rest) le = _
    rw [stringTail, if_pos rfl]
    simp only [List.append_nil]
  | @cons c cs written raw first others ih =>
    intro read le
    obtain ⟨b, s, he, hquote, hread⟩ := first.exists_character
    have split : written ++ raw ++ byte '"' :: rest = b :: (s ++ (raw ++ byte '"' :: rest)) := by
      rw [he, List.append_assoc, List.cons_append]
    generalize written ++ raw ++ byte '"' :: rest = all at split le
    subst split
    rw [stringTail, if_neg hquote]
    split
    · next none =>
      rw [hread] at none
      cases none
    · next found others' some =>
      obtain ⟨rfl, rfl⟩ := Prod.mk.inj (Option.some.inj ((hread _).symm.trans some))
      obtain ⟨shorter, step⟩ := ih (c :: read) (length_rest_le le (length_character?_cons some))
      refine ⟨shorter, step.trans ?_⟩
      simp only [List.reverse_cons, List.append_assoc, List.singleton_append]

/-- Nothing else is read. -/
theorem exists_spells {read : List Char} {le : s.length ≤ origin.length}
    {step : Step (List Char) origin} (h : stringTail origin read s le = .ok step) :
    ∃ cs raw, Spells cs raw ∧ step.value = read.reverse ++ cs ∧
      s = raw ++ byte '"' :: step.rest := by
  fun_induction stringTail origin read s le with
  | case1 => cases h
  | case2 =>
    obtain rfl := Except.ok.inj h
    exact ⟨[], [], .nil, (List.append_nil _).symm, rfl⟩
  | case3 => cases h
  | case4 read b tail le quote c rest some lt _ ih =>
    obtain ⟨cs, raw, spells, value, split⟩ := ih h
    obtain ⟨written, spelled, front⟩ := exists_spelled quote some
    refine ⟨c :: cs, written ++ raw, .cons spelled spells, ?_, ?_⟩
    · rw [value, List.reverse_cons, List.append_assoc, List.singleton_append]
    · rw [front, split, List.append_assoc]

/-- **A string is read as the characters that it spells**, and nothing else is read. -/
theorem reads_stringRest_iff :
    Reads stringRest s cs rest ↔ ∃ raw, Spells cs raw ∧ s = raw ++ byte '"' :: rest := by
  constructor
  · rintro ⟨shorter, read⟩
    obtain ⟨ds, raw, spells, value, split⟩ := exists_spells read
    obtain rfl : cs = ds := value
    exact ⟨raw, spells, split⟩
  · rintro ⟨raw, spells, rfl⟩
    exact spells.exists_stringTail _ rest [] (length_le_self _)

end Read

/-! ### Strings that are skipped -/

section Skipped

variable {s rest : List UInt8}

/-- What may be passed over does not look like the closing quote, and it is skipped. -/
theorem skipStringTail_append {written : List UInt8} (h : Passable written) (rest : List UInt8) :
    skipStringTail (written ++ rest) = skipStringTail rest := by
  cases h with
  | plain quote backslash control =>
    rw [List.singleton_append, skipStringTail.eq_def]
    simp only [if_neg quote, if_neg control, if_neg backslash]
  | @letter b letter =>
    have notDigits : b ≠ byte 'u' := by
      rintro rfl
      cases letter
    rw [List.cons_append, List.singleton_append, skipStringTail, if_neg (by decide),
      if_neg (by decide), if_pos rfl]
    simp only [if_neg notDigits, if_pos letter]
  | @unit point ds digits =>
    have quad : hexQuad? (ds ++ rest) = some (point, rest) :=
      hexQuad?_eq_some_iff.mpr ⟨ds, digits, rfl⟩
    rw [List.cons_append, List.cons_append, skipStringTail, if_neg (by decide),
      if_neg (by decide), if_pos rfl]
    simp only [if_true]
    split
    · next found =>
      obtain ⟨-, rfl⟩ := Prod.mk.inj (Option.some.inj (quad.symm.trans found))
      rfl
    · next none =>
      rw [quad] at none
      cases none

/-- **A string is skipped up to its closing quote**, and nothing else is skipped. -/
theorem skipStringTail_eq_some_iff :
    skipStringTail s = some rest ↔ ∃ raw, Passes raw ∧ s = raw ++ byte '"' :: rest := by
  constructor
  · intro h
    have behind {written tail : List UInt8} (first : Passable written)
        (h : ∃ raw, Passes raw ∧ tail = raw ++ byte '"' :: rest) :
        ∃ raw, Passes raw ∧ written ++ tail = raw ++ byte '"' :: rest := by
      obtain ⟨raw, passes, rfl⟩ := h
      exact ⟨written ++ raw, .cons first passes, (List.append_assoc _ _ _).symm⟩
    fun_induction skipStringTail s with
    | case1 => cases h
    | case2 s =>
      obtain rfl := Option.some.inj h
      exact ⟨[], .nil, rfl⟩
    | case3 => cases h
    | case4 => cases h
    | case5 s point t quad _ _ _ ih =>
      obtain ⟨ds, digits, rfl⟩ := hexQuad?_eq_some_iff.mp quad
      exact behind (.unit digits) (ih h)
    | case6 => cases h
    | case7 b s _ letter _ _ ih => exact behind (.letter letter) (ih h)
    | case8 => cases h
    | case9 b s quote control backslash ih => exact behind (.plain quote backslash control) (ih h)
  · rintro ⟨raw, passes, rfl⟩
    induction passes with
    | nil =>
      rw [List.nil_append, skipStringTail.eq_def]
      simp only [if_true]
    | cons first others ih => rw [List.append_assoc, skipStringTail_append first, ih]

end Skipped

end ProductSegments.Json

import ProductSegments.Proofs.Json.Grammar
import ProductSegments.Proofs.Json.Reading
import ProductSegments.Proofs.Number.Scaling
import ProductSegments.Proofs.Number.Spelling

/-!
# The numbers of a document

A plain numeral is a number of a document, and nothing else is read as a number.  Its value is
reached in steps from the decimal number that it spells, as long as the digits fit 64 bits.  So every
whole number that is written is read back.

## Main definitions

* `Json.moreDigits` — a number with further digits behind it.
* `Json.Numeral.decimal` — the decimal number that a numeral spells.
* `Json.Numeral.of` — a numeral by the parts that a document has of it.

## Main results

* `Json.Numeral.value_eq` — the value of a numeral whose digits fit 64 bits.
* `Json.numeral?_of_isPlain` — a plain numeral is read by its parts, whatever stands behind it.
* `Json.exists_of_numeral?` — what is read as a number is a plain numeral.
* `Json.readsBack_integer`, `Json.readsBack_natural` — whole numbers are read back.
-/

namespace ProductSegments.Json

/-! ### Digits as bytes -/

theorem isDigit_byte_eq {c : Char} (h : c.toNat < 0x80) : isDigit (byte c) = c.isDigit :=
  Text.of_ascii (P := fun c => isDigit (byte c) = c.isDigit) (by decide) h

theorem toNat_byte_sub {c : Char} (h : c.isDigit = true) :
    (byte c - byte '0').toNat = c.toNat - '0'.toNat :=
  Text.of_ascii (P := fun c => c.isDigit = true → (byte c - byte '0').toNat = c.toNat - '0'.toNat)
    (by decide) (Text.toNat_lt_of_isDigit h) h

/-- Digits spell as bytes what they spell as characters. -/
theorem ofDigits_map_byte {ds : List Char} (h : ∀ c ∈ ds, c.isDigit = true) :
    ofDigits (ds.map byte) = Decimal.ofDigits ds := by
  unfold ofDigits Decimal.ofDigits
  generalize 0 = n
  induction ds generalizing n with
  | nil => rfl
  | cons d ds ih =>
    rw [List.map_cons, List.foldl_cons, List.foldl_cons, toNat_byte_sub (h d List.mem_cons_self)]
    exact ih (fun c hc => h c (List.mem_cons_of_mem d hc)) _

/-! ### The value of a numeral -/

/-- A number with further digits behind it. -/
def moreDigits (n : Nat) (ds : List UInt8) : Nat :=
  ds.foldl (fun n d => 10 * n + (d - byte '0').toNat) n

theorem ofDigits_append (ds es : List UInt8) : ofDigits (ds ++ es) = moreDigits (ofDigits ds) es :=
  List.foldl_append

theorem le_moreDigits (n : Nat) (ds : List UInt8) : n ≤ moreDigits n ds := by
  induction ds generalizing n with
  | nil => exact Nat.le_refl n
  | cons d ds ih =>
    calc n ≤ 10 * n + (d - byte '0').toNat := by omega
      _ ≤ moreDigits n (d :: ds) := ih _

/-- **All digits are taken**, if what they spell fits 64 bits. -/
theorem takeDigits_eq {n : Nat} {ds : List UInt8} (fits : moreDigits n ds < UInt64.size) :
    takeDigits n ds = (moreDigits n ds, []) := by
  induction ds generalizing n with
  | nil => rfl
  | cons d ds ih =>
    rw [takeDigits, if_pos (Nat.lt_of_le_of_lt (le_moreDigits _ ds) fits)]
    exact ih fits

/-- The decimal number that a numeral spells. -/
def Numeral.decimal (n : Numeral) : Decimal :=
  ⟨n.negative, ofDigits (n.whole ++ n.fraction), n.power - n.fraction.length⟩

/-- **The value of a numeral whose digits fit 64 bits** is reached in steps from the decimal number
that it spells. -/
theorem Numeral.value_eq {n : Numeral} (fits : n.decimal.digits < UInt64.size) :
    n.value = n.decimal.inSteps := by
  have digits := ofDigits_append n.whole n.fraction
  have all : moreDigits (ofDigits n.whole) n.fraction < UInt64.size := digits ▸ fits
  have whole : takeDigits 0 n.whole = (ofDigits n.whole, []) :=
    takeDigits_eq (Nat.lt_of_le_of_lt (le_moreDigits _ n.fraction) all)
  have fraction := takeDigits_eq all
  simp only [value, whole, fraction, List.length_nil, decimal, digits, Int.natCast_zero,
    Int.add_zero]

/-! ### Where digits end -/

/-- What follows does not go on with a digit. -/
def Halts (rest : List UInt8) : Prop := ∀ b ∈ rest.head?, isDigit b = false

theorem halts_cons {b : UInt8} (h : isDigit b = false) (rest : List UInt8) : Halts (b :: rest) := by
  simpa [Halts] using h

theorem Delimited.ended {rest : List UInt8} (h : Delimited rest) : Ended rest :=
  fun b hb => .inr (h b hb)

/-- What stands behind a value goes on with nothing that could belong to a number. -/
theorem Ended.of_head {rest : List UInt8} (h : Ended rest) {b : UInt8} (hb : b ∈ rest.head?) :
    isDigit b = false ∧ b ≠ byte '.' ∧ ¬(b = byte 'e' ∨ b = byte 'E') := by
  have blank : ∀ b, isBlank b = true → b = 0x20 ∨ b = 0x0A ∨ b = 0x0D ∨ b = 0x09 := by
    intro b hb
    simpa [isBlank, or_assoc] using hb
  rcases h b hb with gap | rfl | rfl | rfl
  · rcases blank b gap with rfl | rfl | rfl | rfl <;> decide
  · decide
  · decide
  · decide

theorem Ended.halts {rest : List UInt8} (h : Ended rest) : Halts rest :=
  fun _ hb => (h.of_head hb).1

/-- A run of digits is read whole where no digit follows it. -/
theorem digits?_map_byte {ds : List Char} (ne_nil : ds ≠ []) (h : ∀ c ∈ ds, c.isDigit = true)
    {rest : List UInt8} (halts : Halts rest) :
    digits? (ds.map byte ++ rest) = some (ds.map byte, rest) := by
  have isDigit : ∀ b ∈ ds.map byte, isDigit b = true := by
    intro b hb
    obtain ⟨c, hc, rfl⟩ := List.mem_map.mp hb
    rw [isDigit_byte_eq (Text.toNat_lt_of_isDigit (h c hc))]
    exact h c hc
  have run : (ds.map byte ++ rest).takeWhile Json.isDigit = ds.map byte ∧
      (ds.map byte ++ rest).dropWhile Json.isDigit = rest := by
    rw [List.takeWhile_append_of_pos isDigit, List.dropWhile_append_of_pos isDigit]
    cases rest with
    | nil => simp
    | cons b rest =>
      rw [List.takeWhile_cons_of_neg (by simp [halts b rfl]),
        List.dropWhile_cons_of_neg (by simp [halts b rfl])]
      simp
  rw [digits?, run.1, run.2]
  simp [ne_nil]

/-! ### The parts of a numeral -/

open Decimal (Power fractionChars powerChars)

/-- A numeral by the parts that a document has of it. -/
def Numeral.of (n : Decimal.Numeral) : Numeral where
  negative := n.sign.isMinus
  whole := n.whole.map byte
  fraction := (n.fraction?.getD []).map byte
  exponent? := n.power?.map fun p => (p.sign.isMinus, p.digits.map byte)

/-- The parts spell what the numeral spells. -/
theorem Numeral.decimal_of (n : Decimal.Numeral) : (Numeral.of n).decimal = n.decimal := by
  have digits : ∀ c ∈ n.digits, c.isDigit = true :=
    List.forall_mem_append.mpr ⟨n.isDigit_whole, n.isDigit_fraction⟩
  have spelled : ofDigits (n.digits.map byte) = Decimal.ofDigits n.digits := ofDigits_map_byte digits
  unfold Numeral.decimal Numeral.power Numeral.of Decimal.Numeral.decimal
  dsimp only
  rw [← List.map_append, List.length_map]
  cases n.power? with
  | none => exact congrArg (Decimal.mk n.sign.isMinus · _) spelled
  | some p =>
    have exponent : ofDigits (p.digits.map byte) = Decimal.ofDigits p.digits :=
      ofDigits_map_byte p.isDigit
    simp only [Option.map_some, exponent]
    exact congrArg (Decimal.mk n.sign.isMinus · _) spelled

theorem ne_byte_of_isDigit {c d : Char} (hc : c.isDigit = true) (hd : d.isDigit = false)
    (ascii : d.toNat < 0x80) : byte c ≠ byte d := by
  intro eq
  rw [byte_inj (Text.toNat_lt_of_isDigit hc) ascii eq, hd] at hc
  cases hc

section Parts

variable {rest : List UInt8}

/-- The exponent of a numeral, with its sign. -/
theorem exponent?_powerChars (power? : Option Power) (ended : Ended rest) :
    exponent? ((powerChars power?).map byte ++ rest) =
      some (power?.map fun p => (p.sign.isMinus, p.digits.map byte), rest) := by
  cases power? with
  | none =>
    cases rest with
    | nil => rfl
    | cons b rest =>
      have noLetter : ¬(b = byte 'e' ∨ b = byte 'E') := (ended.of_head rfl).2.2
      simp only [Decimal.powerChars_none, List.map_nil, List.nil_append, exponent?, if_neg noLetter,
        Option.map_none]
  | some p =>
    obtain ⟨d, ds, hds⟩ := List.exists_cons_of_ne_nil p.digits_ne_nil
    have digits : digits? (p.digits.map byte ++ rest) = some (p.digits.map byte, rest) :=
      digits?_map_byte p.digits_ne_nil p.isDigit ended.halts
    have hd : d.isDigit = true := p.isDigit d (hds ▸ List.mem_cons_self)
    have letter : byte p.letter = byte 'e' ∨ byte p.letter = byte 'E' := by
      rcases p.letter_eq with h | h <;> simp [h]
    rw [Decimal.powerChars_some, Power.chars, List.map_cons, List.cons_append, List.map_append,
      List.append_assoc]
    unfold exponent?
    simp only [if_pos letter]
    -- behind the letter stands a sign, or the first digit, which is none
    cases hsign : p.sign with
    | plus =>
      simp only [Decimal.Sign.chars, List.map_cons, List.map_nil, List.singleton_append,
        show ¬byte '+' = byte '-' by decide, if_false, if_true, digits]
      simp [Decimal.Sign.isMinus, hsign]
    | minus =>
      simp only [Decimal.Sign.chars, List.map_cons, List.map_nil, List.singleton_append, if_true,
        digits]
      simp [Decimal.Sign.isMinus, hsign]
    | none =>
      have minus : byte d ≠ byte '-' := ne_byte_of_isDigit hd (by decide) (by decide)
      have plus : byte d ≠ byte '+' := ne_byte_of_isDigit hd (by decide) (by decide)
      rw [hds, List.map_cons, List.cons_append] at digits
      simp only [Decimal.Sign.chars, List.map_nil, List.nil_append, hds, List.map_cons,
        List.cons_append, if_neg minus, if_neg plus, digits]
      simp [Decimal.Sign.isMinus, hsign, hds]

theorem halts_powerChars (power? : Option Power) (ended : Ended rest) :
    Halts ((powerChars power?).map byte ++ rest) := by
  cases power? with
  | none => exact ended.halts
  | some p =>
    refine halts_cons ?_ _
    rcases p.letter_eq with h | h <;> rw [h] <;> decide

/-- The digits behind a point, of which there is at least one if there is a point. -/
theorem fraction?_fractionChars {ds? : Option (List Char)} (power? : Option Power)
    (isDigit : ∀ c ∈ ds?.getD [], c.isDigit = true) (ne_nil : ds? ≠ some [])
    (ended : Ended rest) :
    fraction? ((fractionChars ds?).map byte ++ ((powerChars power?).map byte ++ rest)) =
      some ((ds?.getD []).map byte, (powerChars power?).map byte ++ rest) := by
  have halts := halts_powerChars power? ended
  cases ds? with
  | some ds =>
    have digits := digits?_map_byte (fun none => ne_nil (congrArg some none)) isDigit halts
    simp only [Decimal.fractionChars_some, List.map_cons, List.cons_append, fraction?, if_true,
      Option.getD_some]
    exact digits
  | none =>
    rw [Decimal.fractionChars_none, List.map_nil, List.nil_append]
    -- what stands behind the digits is no point
    cases power? with
    | some p =>
      have noPoint : byte p.letter ≠ byte '.' := by
        rcases p.letter_eq with h | h <;> rw [h] <;> decide
      simp only [Decimal.powerChars_some, Power.chars, List.map_cons, List.cons_append, fraction?,
        if_neg noPoint]
      rfl
    | none =>
      cases rest with
      | nil => rfl
      | cons b rest =>
        have noPoint : b ≠ byte '.' := (ended.of_head rfl).2.1
        simp only [Decimal.powerChars_none, List.map_nil, List.nil_append, fraction?,
          if_neg noPoint]
        rfl

theorem halts_fractionChars (ds? : Option (List Char)) (power? : Option Power)
    (ended : Ended rest) :
    Halts ((fractionChars ds?).map byte ++ ((powerChars power?).map byte ++ rest)) := by
  cases ds? with
  | none => exact halts_powerChars power? ended
  | some ds => exact halts_cons (by decide) _

/-- **A plain numeral is read by its parts**, whatever stands behind it. -/
theorem numeral?_of_isPlain {n : Decimal.Numeral} (plain : n.IsPlain) (ended : Ended rest) :
    numeral? (n.chars.map byte ++ rest) = some (.of n, rest) := by
  have fraction := fraction?_fractionChars n.power? n.isDigit_fraction plain.fraction ended
  have exponent := exponent?_powerChars n.power? ended
  have digits := digits?_map_byte plain.whole_ne_nil n.isDigit_whole
    (halts_fractionChars n.fraction? n.power? ended)
  obtain ⟨d, ds, hds⟩ := List.exists_cons_of_ne_nil plain.whole_ne_nil
  have hd : d.isDigit = true := n.isDigit_whole d (hds ▸ List.mem_cons_self)
  have leading : ¬((n.whole.map byte).head? = some (byte '0') ∧ (n.whole.map byte).length ≠ 1) := by
    rintro ⟨zero, more⟩
    rw [List.length_map] at more
    refine more (plain.leading ?_)
    rw [hds] at zero ⊢
    exact congrArg some
      (byte_inj (Text.toNat_lt_of_isDigit hd) (by decide) (Option.some.inj zero))
  have whole : wholePart? (n.whole.map byte ++ ((fractionChars n.fraction?).map byte ++
      ((powerChars n.power?).map byte ++ rest))) = some (n.whole.map byte,
        (fractionChars n.fraction?).map byte ++ ((powerChars n.power?).map byte ++ rest)) := by
    unfold wholePart?
    rw [digits]
    simp only [bind, Option.bind, if_neg leading]
  have body : n.chars.map byte ++ rest = n.sign.chars.map byte ++ (n.whole.map byte ++
      ((fractionChars n.fraction?).map byte ++ ((powerChars n.power?).map byte ++ rest))) := by
    simp only [Decimal.Numeral.chars, List.map_append, List.append_assoc]
  rw [body]
  unfold numeral?
  cases hsign : n.sign with
  | plus => exact absurd hsign plain.sign
  | minus =>
    simp only [Decimal.Sign.chars, List.map_cons, List.map_nil, List.singleton_append, if_true,
      whole, fraction, exponent, bind, Option.bind]
    simp [Numeral.of, hsign, Decimal.Sign.isMinus]
  | none =>
    have minus : byte d ≠ byte '-' := ne_byte_of_isDigit hd (by decide) (by decide)
    rw [hds, List.map_cons, List.cons_append] at whole
    simp only [Decimal.Sign.chars, List.map_nil, List.nil_append, hds, List.map_cons,
      List.cons_append, if_neg minus, whole, fraction, exponent, bind, Option.bind]
    simp [Numeral.of, hsign, hds, Decimal.Sign.isMinus]

end Parts

/-! ### What is read as a number is a plain numeral -/

section Sound

variable {s rest : List UInt8}

theorem exists_char_of_isDigit {b : UInt8} (h : isDigit b = true) :
    ∃ c, Char.isDigit c = true ∧ byte c = b := by
  rw [isDigit, Bool.and_eq_true, decide_eq_true_eq, decide_eq_true_eq, UInt8.le_iff_toNat_le,
    UInt8.le_iff_toNat_le] at h
  have lower : '0'.toNat ≤ b.toNat := h.1
  have upper : b.toNat ≤ '9'.toNat := h.2
  have small : '9'.toNat < 0xD800 := by decide
  have point : (Char.ofNat b.toNat).toNat = b.toNat := Utf8.toNat_charOfNat (.inl (by omega))
  refine ⟨.ofNat b.toNat, ?_, by rw [byte, point, UInt8.ofNat_toNat]⟩
  rw [← point] at lower upper
  rw [Char.isDigit, Bool.and_eq_true, decide_eq_true_eq, decide_eq_true_eq, ge_iff_le,
    UInt32.le_iff_toNat_le, UInt32.le_iff_toNat_le]
  exact ⟨lower, upper⟩

theorem exists_map_byte {ds : List UInt8} (h : ∀ b ∈ ds, isDigit b = true) :
    ∃ cs : List Char, (∀ c ∈ cs, c.isDigit = true) ∧ cs.map byte = ds := by
  induction ds with
  | nil => exact ⟨[], by simp, rfl⟩
  | cons b ds ih =>
    obtain ⟨c, hc, rfl⟩ := exists_char_of_isDigit (h b List.mem_cons_self)
    obtain ⟨cs, hcs, rfl⟩ := ih fun d hd => h d (List.mem_cons_of_mem _ hd)
    exact ⟨c :: cs, List.forall_mem_cons.mpr ⟨hc, hcs⟩, rfl⟩

theorem exists_of_digits? {ds : List UInt8} (h : digits? s = some (ds, rest)) :
    ∃ cs : List Char, cs ≠ [] ∧ (∀ c ∈ cs, c.isDigit = true) ∧ ds = cs.map byte ∧
      s = cs.map byte ++ rest := by
  simp only [digits?] at h
  split at h
  · cases h
  · next some =>
    obtain ⟨rfl, rfl⟩ := Prod.mk.inj (Option.some.inj h)
    have digits : ∀ b ∈ s.takeWhile isDigit, isDigit b = true :=
      List.all_eq_true.mp List.all_takeWhile
    obtain ⟨cs, hcs, written⟩ := exists_map_byte digits
    refine ⟨cs, ?_, hcs, written.symm, ?_⟩
    · rintro rfl
      exact some (by rw [← written]; rfl)
    · rw [written, List.takeWhile_append_dropWhile]

/-- The digits before the point: a leading zero stands alone. -/
theorem exists_of_wholePart? {ds : List UInt8} (h : wholePart? s = some (ds, rest)) :
    ∃ cs : List Char, cs ≠ [] ∧ (∀ c ∈ cs, c.isDigit = true) ∧
      (cs.head? = some '0' → cs.length = 1) ∧ ds = cs.map byte ∧ s = cs.map byte ++ rest := by
  obtain ⟨⟨ds', rest'⟩, digits, h⟩ := Option.bind_eq_some_iff.mp h
  dsimp only at h
  split at h
  · cases h
  · next leading =>
    obtain ⟨rfl, rfl⟩ := Prod.mk.inj (Option.some.inj h)
    obtain ⟨cs, ne_nil, hcs, rfl, split⟩ := exists_of_digits? digits
    refine ⟨cs, ne_nil, hcs, fun zero => ?_, rfl, split⟩
    by_contra more
    refine leading ⟨?_, by rwa [List.length_map]⟩
    rw [List.head?_map, zero]
    rfl

theorem exists_of_fraction? {ds : List UInt8} (h : fraction? s = some (ds, rest)) :
    ∃ ds? : Option (List Char), ds? ≠ some [] ∧ (∀ c ∈ ds?.getD [], c.isDigit = true) ∧
      ds = (ds?.getD []).map byte ∧ s = (fractionChars ds?).map byte ++ rest := by
  unfold fraction? at h
  split at h
  · next b s =>
    split at h
    · next point =>
      obtain ⟨cs, ne_nil, hcs, rfl, rfl⟩ := exists_of_digits? h
      exact ⟨some cs, fun none => ne_nil (Option.some.inj none), hcs, rfl, by rw [point]; rfl⟩
    · obtain ⟨rfl, rfl⟩ := Prod.mk.inj (Option.some.inj h)
      exact ⟨none, nofun, nofun, rfl, rfl⟩
  · obtain ⟨rfl, rfl⟩ := Prod.mk.inj (Option.some.inj h)
    exact ⟨none, nofun, nofun, rfl, rfl⟩

theorem exists_of_exponent? {e : Option (Bool × List UInt8)} (h : exponent? s = some (e, rest)) :
    ∃ power? : Option Power, e = power?.map (fun p => (p.sign.isMinus, p.digits.map byte)) ∧
      s = (powerChars power?).map byte ++ rest := by
  unfold exponent? at h
  split at h
  · obtain ⟨rfl, rfl⟩ := Prod.mk.inj (Option.some.inj h)
    exact ⟨none, rfl, rfl⟩
  · next b s =>
    split at h
    · next letter =>
      -- behind the letter there may be a sign
      obtain ⟨sign, t, rfl, read⟩ : ∃ (sign : Decimal.Sign) (t : List UInt8),
          s = sign.chars.map byte ++ t ∧ ((digits? t).bind fun behind =>
            some (some (sign.isMinus, behind.1), behind.2)) = some (e, rest) := by
        cases s with
        | nil => exact ⟨.none, [], rfl, h⟩
        | cons c t =>
          by_cases minus : c = byte '-'
          · rw [minus] at h
            exact ⟨.minus, t, by rw [minus]; rfl, h⟩
          by_cases plus : c = byte '+'
          · rw [plus] at h
            exact ⟨.plus, t, by rw [plus]; rfl, h⟩
          · simp only [if_neg minus, if_neg plus] at h
            exact ⟨.none, c :: t, rfl, h⟩
      obtain ⟨⟨ds, rest'⟩, digits, read⟩ := Option.bind_eq_some_iff.mp read
      obtain ⟨rfl, rfl⟩ := Prod.mk.inj (Option.some.inj read)
      obtain ⟨cs, ne_nil, hcs, rfl, rfl⟩ := exists_of_digits? digits
      obtain ⟨c, isLetter, rfl⟩ : ∃ c, (c = 'e' ∨ c = 'E') ∧ byte c = b := by
        rcases letter with rfl | rfl
        · exact ⟨'e', .inl rfl, rfl⟩
        · exact ⟨'E', .inr rfl, rfl⟩
      refine ⟨some ⟨c, sign, cs, isLetter, hcs, ne_nil⟩, rfl, ?_⟩
      rw [Decimal.powerChars_some, Power.chars, List.map_cons, List.map_append,
        List.cons_append, List.append_assoc]
    · obtain ⟨rfl, rfl⟩ := Prod.mk.inj (Option.some.inj h)
      exact ⟨none, rfl, rfl⟩

/-- **What is read as a number is a plain numeral**, and it is read by its parts. -/
theorem exists_of_numeral? {m : Numeral} (h : numeral? s = some (m, rest)) :
    ∃ n : Decimal.Numeral, n.IsPlain ∧ m = .of n ∧ s = n.chars.map byte ++ rest := by
  -- in front there may be a minus
  obtain ⟨sign, t, notPlus, rfl, read⟩ : ∃ (sign : Decimal.Sign) (t : List UInt8), sign ≠ .plus ∧
      s = sign.chars.map byte ++ t ∧ ((wholePart? t).bind fun whole =>
        (fraction? whole.2).bind fun fraction => (exponent? fraction.2).bind fun exponent =>
          some ((⟨sign.isMinus, whole.1, fraction.1, exponent.1⟩ : Numeral), exponent.2)) =
            some (m, rest) := by
    cases s with
    | nil => exact ⟨.none, [], by decide, rfl, h⟩
    | cons b t =>
      by_cases minus : b = byte '-'
      · rw [minus] at h
        exact ⟨.minus, t, by decide, by rw [minus]; rfl, h⟩
      · simp only [numeral?, if_neg minus] at h
        exact ⟨.none, b :: t, by decide, rfl, h⟩
  obtain ⟨⟨whole, t₁⟩, hwhole, read⟩ := Option.bind_eq_some_iff.mp read
  obtain ⟨⟨fraction, t₂⟩, hfraction, read⟩ := Option.bind_eq_some_iff.mp read
  obtain ⟨⟨exponent, t₃⟩, hexponent, read⟩ := Option.bind_eq_some_iff.mp read
  obtain ⟨rfl, rfl⟩ := Prod.mk.inj (Option.some.inj read)
  obtain ⟨cs, ne_nil, isDigit, leading, rfl, rfl⟩ := exists_of_wholePart? hwhole
  obtain ⟨ds?, some, isDigit', rfl, rfl⟩ := exists_of_fraction? hfraction
  obtain ⟨power?, rfl, rfl⟩ := exists_of_exponent? hexponent
  have digits : cs ++ ds?.getD [] ≠ [] := fun none => ne_nil (List.append_eq_nil_iff.mp none).1
  refine ⟨⟨sign, cs, ds?, power?, isDigit, isDigit', digits⟩, ⟨notPlus, ne_nil, leading, some⟩, rfl,
    ?_⟩
  simp only [Decimal.Numeral.chars, List.map_append, List.append_assoc]

end Sound

/-! ### Written numbers -/

section Written

variable {α : Type} {n : Decimal.Numeral}

/-- A numeral is written in ASCII. -/
theorem encode_numeral (n : Decimal.Numeral) : Utf8.encode n.chars = n.chars.map byte :=
  Utf8.encode_of_ascii fun _ hc =>
    Text.forall_mem (P := fun c => c.toNat < 0x80) (by decide) _ (n.mem_alphabet hc)

/-- A plain numeral begins with a minus or a digit. -/
theorem exists_byte_of_isPlain (plain : n.IsPlain) :
    ∃ b s, n.chars.map byte = b :: s ∧ Kind.ofByte? b = some .number := by
  obtain ⟨d, ds, hds⟩ := List.exists_cons_of_ne_nil plain.whole_ne_nil
  have hd : d.isDigit = true := n.isDigit_whole d (hds ▸ List.mem_cons_self)
  unfold Decimal.Numeral.chars
  cases hsign : n.sign with
  | plus => exact absurd hsign plain.sign
  | minus => exact ⟨_, _, rfl, rfl⟩
  | none =>
    rw [hds]
    refine ⟨_, _, rfl, ?_⟩
    exact Text.of_ascii (P := fun c => c.isDigit = true → Kind.ofByte? (byte c) = some .number)
      (by decide) (Text.toNat_lt_of_isDigit hd) hd

/-- A plain numeral of a finite number is a scalar. -/
theorem reads_scalar_number (plain : n.IsPlain) (finite : (Numeral.of n).value.isFinite = true)
    {rest : List UInt8} (ended : Ended rest) :
    Reads scalar (n.chars.map byte ++ rest) (.number (.of n)) rest := by
  obtain ⟨b, s, split, announces⟩ := exists_byte_of_isPlain plain
  have read : number? (n.chars.map byte ++ rest) = some (.of n, rest) := by
    rw [number?, numeral?_of_isPlain plain ended]
    simp only [finite, if_true]
  rw [split, List.cons_append] at read ⊢
  have blank := (Kind.of_ofByte? announces).1
  obtain ⟨_, first⟩ := reads_token blank (s ++ rest)
  have skipped : skipBlanks (b :: (s ++ rest)) = b :: (s ++ rest) :=
    List.dropWhile_cons_of_neg (by simp [blank])
  refine ⟨length_number? read, ?_⟩
  unfold scalar
  simp only [first, announces]
  split
  · next found others h =>
    rw [skipped, read] at h
    obtain ⟨rfl, rfl⟩ := Prod.mk.inj (Option.some.inj h)
    rfl
  · next h =>
    rw [skipped, read] at h
    cases h

/-- What is expected of a number is found in its numeral. -/
theorem readsBack_of_isPlain {select : Scalar → Except Fault α} {value : α} (plain : n.IsPlain)
    (finite : (Numeral.of n).value.isFinite = true)
    (hselect : select (.number (.of n)) = .ok value) :
    ReadsBack .number (expect select) n.chars value := by
  refine ⟨?_, fun rest delimited => ?_⟩
  · rw [encode_numeral]
    exact exists_byte_of_isPlain plain
  · rw [encode_numeral]
    exact reads_expect (reads_scalar_number plain finite delimited.ended) hselect

/-- The numeral of a whole number. -/
def Numeral.ofInt (n : Int) : Decimal.Numeral :=
  { Literal.wholeNumeral n.natAbs 0 with sign := .ofNegative (n < 0) }

theorem Numeral.chars_ofInt (n : Int) : (Numeral.ofInt n).chars = Writer.integer n := by
  by_cases h : n < 0 <;>
    simp [ofInt, Literal.wholeNumeral, Decimal.Numeral.chars, Writer.integer, h,
      Decimal.Sign.ofNegative, Decimal.Sign.chars]

theorem Numeral.isPlain_ofInt (n : Int) : (Numeral.ofInt n).IsPlain := by
  refine ⟨?_, Nat.toDigits_ne_nil, fun zero => ?_, by simp [ofInt, Literal.wholeNumeral]⟩
  · unfold ofInt
    cases decide (n < 0) <;> exact Decimal.Sign.noConfusion
  · -- only zero begins with a zero
    by_cases h : n.natAbs = 0
    · show (Nat.toDigits 10 n.natAbs).length = 1
      rw [h]
      rfl
    · exact absurd zero (Decimal.head?_toDigits_ne h)

/-- A whole number of 64 bits is far from any overflow. -/
theorem Numeral.isFinite_ofInt {n : Int} (h : n.natAbs < UInt64.size) :
    (Numeral.of (Numeral.ofInt n)).value.isFinite = true := by
  have decimal : (Numeral.of (Numeral.ofInt n)).decimal = ⟨decide (n < 0), n.natAbs, 0⟩ := by
    simp [Numeral.decimal_of, Decimal.Numeral.decimal, ofInt, Literal.wholeNumeral,
      Decimal.Numeral.digits, Decimal.ofDigits_toDigits, Decimal.powerExponent]
  rw [value_eq (by rwa [decimal]), decimal]
  exact Decimal.isFinite_inSteps_of_whole _ (Nat.le_of_lt h)

theorem Numeral.natural?_ofInt (n : Int) : (Numeral.of (Numeral.ofInt n)).natural? = some n.natAbs := by
  have digits : Json.ofDigits ((Nat.toDigits 10 n.natAbs).map byte) = n.natAbs := by
    rw [ofDigits_map_byte Decimal.isDigit_of_mem_toDigits, Decimal.ofDigits_toDigits]
  simp [natural?, Numeral.of, ofInt, Literal.wholeNumeral, digits]

theorem Numeral.negative_ofInt (n : Int) :
    (Numeral.of (Numeral.ofInt n)).negative = decide (n < 0) :=
  Decimal.Sign.isMinus_ofNegative _

theorem fits64_toInt (n : Int64) : Integer.fits64 n.toInt = true := by
  rw [Integer.fits64, Bool.and_eq_true, decide_eq_true_eq, decide_eq_true_eq]
  exact ⟨n.minValue_le_toInt, n.toInt_le⟩

/-- **A whole number of 64 bits with a sign is read back.** -/
theorem readsBack_integer (n : Int64) : ReadsBack .number integer (Writer.integer n.toInt) n := by
  have lower := n.le_toInt
  have upper := n.toInt_lt
  rw [← Numeral.chars_ofInt]
  have small : n.toInt.natAbs < 18446744073709551616 := by omega
  refine readsBack_of_isPlain (Numeral.isPlain_ofInt _) (Numeral.isFinite_ofInt small) ?_
  have noMinusZero : (decide (n.toInt < 0) && n.toInt.natAbs == 0) = false := by
    rw [Bool.and_eq_false_iff, decide_eq_false_iff_not, beq_eq_false_iff_ne]
    omega
  have signed : (if decide (n.toInt < 0) = true then -(n.toInt.natAbs : Int) else n.toInt.natAbs)
      = n.toInt := by
    simp only [decide_eq_true_eq]
    omega
  simp only [Numeral.natural?_ofInt, Numeral.negative_ofInt, noMinusZero, signed, fits64_toInt,
    Bool.not_true, Bool.or_false, Bool.false_eq_true, if_false, Int64.ofInt_toInt]

/-- **A whole number of 64 bits is read back.** -/
theorem readsBack_natural {n : Nat} (h : n < UInt64.size) :
    ReadsBack .number natural (Writer.integer n) n := by
  rw [← Numeral.chars_ofInt]
  refine readsBack_of_isPlain (Numeral.isPlain_ofInt _) (Numeral.isFinite_ofInt h) ?_
  have noSign : decide ((n : Int) < 0) = false := decide_eq_false (by omega)
  simp only [Numeral.natural?_ofInt, Numeral.negative_ofInt, noSign, Int.natAbs_natCast,
    Bool.not_false, Bool.true_and, decide_eq_true_eq, if_pos h]

end Written

end ProductSegments.Json

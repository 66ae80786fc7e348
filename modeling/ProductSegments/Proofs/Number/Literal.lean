import ProductSegments.Proofs.Number.Numeral
import ProductSegments.Proofs.Number.Whole

/-!
# The grammar of literals

Which texts are number literals is said by a grammar.  Exactly the texts of the grammar are read as
numbers; every other text is read as not-a-number.

## Main definitions

* `Literal.Base` — the radices that can be marked, with their letters and digits.
* `Literal.IsLiteral` — the grammar.

## Main results

* `Literal.isNaN_ofTrimmed_iff` — the texts of the grammar are the ones that are read as numbers.
* `Literal.value_numeral`, `Literal.ofTrimmed_prefixed` — what the two kinds of digits are read as.
* `Literal.accepts_grammar` — all that together, with what overflows, what is refused and where a
  text is cut.
-/

namespace ProductSegments.Literal

open Decimal (Numeral Sign)
open Binary64 (ofNat kept overflow IsRounded unit)

/-! ### Marked radices -/

/-- A radix with a marker. -/
inductive Base where
  | hexadecimal
  | octal
  | binary
  deriving DecidableEq, Repr

namespace Base

/-- How many bits a digit has. -/
def bits : Base → Nat
  | hexadecimal => 4
  | octal => 3
  | binary => 1

/-- The number of digits. -/
def radix (b : Base) : Nat := twoPow b.bits

/-- The letters that mark a radix. -/
def letters : Base → List Char
  | hexadecimal => ['x', 'X']
  | octal => ['o', 'O']
  | binary => ['b', 'B']

/-- The characters that are digits of a radix. -/
def digits : Base → List Char
  | hexadecimal => "0123456789abcdefABCDEF".toList
  | octal => "01234567".toList
  | binary => "01".toList

theorem bits_pos (b : Base) : 0 < b.bits := by cases b <;> decide

theorem bits_le (b : Base) : b.bits ≤ 4 := by cases b <;> decide

theorem radix?_of_mem {b : Base} {letter : Char} (h : letter ∈ b.letters) :
    radix? letter = some b.radix := by
  have hall : ∀ c ∈ b.letters, radix? c = some b.radix := by
    cases b <;> exact Text.forall_mem (by decide)
  exact hall letter h

theorem exists_of_radix? {letter : Char} {r : Nat} (h : radix? letter = some r) :
    ∃ b : Base, letter ∈ b.letters ∧ b.radix = r := by
  unfold radix? at h
  split at h
  · exact ⟨hexadecimal, by decide, Option.some.inj h⟩
  · exact ⟨hexadecimal, by decide, Option.some.inj h⟩
  · exact ⟨octal, by decide, Option.some.inj h⟩
  · exact ⟨octal, by decide, Option.some.inj h⟩
  · exact ⟨binary, by decide, Option.some.inj h⟩
  · exact ⟨binary, by decide, Option.some.inj h⟩
  · cases h

/-- No letter marks two radices. -/
theorem eq_of_mem {b b' : Base} {letter : Char} (h : letter ∈ b.letters) (h' : letter ∈ b'.letters) :
    b = b' := by
  have hradix : b.radix = b'.radix :=
    Option.some.inj ((radix?_of_mem h).symm.trans (radix?_of_mem h'))
  revert hradix
  cases b <;> cases b' <;> decide

end Base

theorem toNat_lt_of_le {c d : Char} (h : c ≤ d) (hd : d.toNat < 128) : c.toNat < 128 :=
  Nat.lt_of_le_of_lt (UInt32.le_iff_toNat_le.mp h) hd

/-- Digits are ASCII characters. -/
theorem toNat_lt_of_digit? {radix : Nat} {c : Char} (h : (Radix.digit? radix c).isSome = true) :
    c.toNat < 128 := by
  unfold Radix.digit? at h
  dsimp only at h
  split at h
  · next hdigit => exact Text.toNat_lt_of_isDigit hdigit
  · split at h
    · next hlower => exact toNat_lt_of_le hlower.2 (by decide)
    · split at h
      · next hupper => exact toNat_lt_of_le hupper.2 (by decide)
      · cases h

theorem isSome_digit?_iff (b : Base) (c : Char) :
    (Radix.digit? b.radix c).isSome = true ↔ c ∈ b.digits := by
  by_cases hc : c.toNat < 128
  · refine Text.of_ascii (P := fun c => (Radix.digit? b.radix c).isSome = true ↔ c ∈ b.digits) ?_ hc
    cases b <;> decide +kernel
  · refine iff_of_false (fun h => hc (toNat_lt_of_digit? h)) fun h => hc ?_
    have hascii : ∀ d ∈ b.digits, d.toNat < 128 := by
      cases b <;> exact Text.forall_mem (by decide)
    exact hascii c h

theorem digit?_lt {radix d : Nat} {c : Char} (h : Radix.digit? radix c = some d) : d < radix := by
  unfold Radix.digit? at h
  have := (Option.filter_eq_some_iff.mp h).2
  simpa using this

/-- A text of digits, of which there is at least one, spells a number. -/
theorem exists_natural? {b : Base} {ds : List Char} (hne : ds ≠ []) (h : ∀ d ∈ ds, d ∈ b.digits) :
    ∃ n, Radix.natural? b.radix ds = some n := by
  have hdigits : ∃ vs, ds.mapM (Radix.digit? b.radix) = some vs := by
    clear hne
    induction ds with
    | nil => exact ⟨[], rfl⟩
    | cons d ds ih =>
      have hsome := (isSome_digit?_iff b d).mpr (h d List.mem_cons_self)
      obtain ⟨v, hv⟩ := Option.isSome_iff_exists.mp hsome
      obtain ⟨vs, hvs⟩ := ih fun c hc => h c (List.mem_cons_of_mem d hc)
      exact ⟨v :: vs, by rw [List.mapM_cons, hv, hvs]; rfl⟩
  obtain ⟨vs, hvs⟩ := hdigits
  refine ⟨Radix.ofDigits b.radix vs, ?_⟩
  rw [Radix.natural?, if_neg (by simpa using hne), hvs]
  rfl

theorem mem_of_mapM_eq_some {radix : Nat} {ds : List Char} {vs : List Nat}
    (h : ds.mapM (Radix.digit? radix) = some vs) :
    (∀ d ∈ ds, (Radix.digit? radix d).isSome = true) ∧ (∀ v ∈ vs, v < radix) ∧
      vs.length = ds.length := by
  induction ds generalizing vs with
  | nil =>
    obtain rfl : [] = vs := Option.some.inj h
    simp
  | cons d ds ih =>
    rw [List.mapM_cons] at h
    obtain ⟨v, hv, h⟩ := Option.bind_eq_some_iff.mp h
    obtain ⟨tail, htail, h⟩ := Option.bind_eq_some_iff.mp h
    obtain rfl : v :: tail = vs := Option.some.inj h
    obtain ⟨hds, hvs, hlen⟩ := ih htail
    refine ⟨fun c hc => ?_, fun w hw => ?_, by simp [hlen]⟩
    · rcases List.mem_cons.mp hc with rfl | hc
      · simp [hv]
      · exact hds c hc
    · rcases List.mem_cons.mp hw with rfl | hw
      · exact digit?_lt hv
      · exact hvs w hw

/-! ### Prefixed literals -/

section Prefixed

variable {b : Base} {letter : Char} {ds : List Char}

/-- **A prefixed literal is read as what is kept of its number.** -/
theorem prefixed?_eq {n : Nat} (hletter : letter ∈ b.letters)
    (h : Radix.natural? b.radix ds = some n) :
    prefixed? ('0' :: letter :: ds) = some (ofNat (kept b.radix n)) := by
  unfold Radix.natural? at h
  split at h
  · cases h
  · next hne =>
    obtain ⟨vs, hvs, rfl⟩ := Option.map_eq_some_iff.mp h
    obtain ⟨-, hlt, hlen⟩ := mem_of_mapM_eq_some hvs
    rw [prefixed?, Base.radix?_of_mem hletter, Option.map_some, hvs]
    cases vs with
    | nil =>
      have : ds = [] := List.eq_nil_of_length_eq_zero hlen.symm
      exact absurd (by rw [this]; rfl) hne
    | cons v vs => exact congrArg some (ofRadixDigits_eq b.bits_pos b.bits_le hlt)

/-- Without digits, or with something that is no digit, it is not-a-number. -/
theorem prefixed?_eq_nan (hletter : letter ∈ b.letters)
    (h : ¬(ds ≠ [] ∧ ∀ d ∈ ds, d ∈ b.digits)) :
    prefixed? ('0' :: letter :: ds) = some .nan := by
  rw [prefixed?, Base.radix?_of_mem hletter, Option.map_some]
  split
  · next v vs hvs =>
    obtain ⟨hds, -, hlen⟩ := mem_of_mapM_eq_some hvs
    refine absurd ⟨?_, fun d hd => (isSome_digit?_iff b d).mp (hds d hd)⟩ h
    rintro rfl
    simp at hlen
  · rfl

theorem exists_of_prefixed? {cs : List Char} {x : Binary64} (h : prefixed? cs = some x) :
    ∃ (b : Base) (letter : Char) (ds : List Char), letter ∈ b.letters ∧ cs = '0' :: letter :: ds := by
  unfold prefixed? at h
  split at h
  · next letter ds =>
    obtain ⟨r, hr, -⟩ := Option.map_eq_some_iff.mp h
    obtain ⟨b, hb, -⟩ := Base.exists_of_radix? hr
    exact ⟨b, letter, ds, hb, rfl⟩
  · cases h

/-- The number of a prefixed literal, or not-a-number. -/
theorem isNaN_prefixed?_iff (hletter : letter ∈ b.letters) {x : Binary64}
    (h : prefixed? ('0' :: letter :: ds) = some x) :
    x.isNaN = false ↔ ds ≠ [] ∧ ∀ d ∈ ds, d ∈ b.digits := by
  by_cases hdigits : ds ≠ [] ∧ ∀ d ∈ ds, d ∈ b.digits
  · obtain ⟨n, hn⟩ := exists_natural? hdigits.1 hdigits.2
    rw [prefixed?_eq hletter hn] at h
    obtain rfl := Option.some.inj h
    exact iff_of_true (Binary64.isNaN_ofNat _) hdigits
  · rw [prefixed?_eq_nan hletter hdigits] at h
    obtain rfl := Option.some.inj h
    exact iff_of_false (by decide) hdigits

end Prefixed

/-! ### The grammar -/

/-- The texts of number literals, without blanks at their ends. -/
inductive IsLiteral : List Char → Prop where
  | empty : IsLiteral []
  | infinity (s : Sign) : IsLiteral (s.chars ++ "Infinity".toList)
  | prefixed (b : Base) {letter : Char} {ds : List Char} (hletter : letter ∈ b.letters)
      (hne : ds ≠ []) (hds : ∀ d ∈ ds, d ∈ b.digits) : IsLiteral ('0' :: letter :: ds)
  | numeral (n : Numeral) : IsLiteral n.chars

theorem not_mem_alphabet_of_mem_letters {b : Base} {letter : Char} (h : letter ∈ b.letters) :
    letter ∉ Numeral.alphabet := by
  have hall : ∀ c ∈ b.letters, c ∉ Numeral.alphabet := by
    cases b <;> exact Text.forall_mem (by decide)
  exact hall letter h

theorem numeral_ne_prefixed (n : Numeral) {b : Base} {letter : Char} (h : letter ∈ b.letters)
    (ds : List Char) : n.chars ≠ '0' :: letter :: ds := by
  intro heq
  refine not_mem_alphabet_of_mem_letters h (Numeral.mem_alphabet (n := n) ?_)
  rw [heq]
  simp

theorem numeral_ne_infinity (n : Numeral) (s : Sign) : n.chars ≠ s.chars ++ "Infinity".toList := by
  intro heq
  have hI : 'I' ∈ n.chars := by
    rw [heq]
    exact List.mem_append_right _ (by decide)
  exact absurd (Numeral.mem_alphabet hI) (by decide)

theorem numeral_ne_nil (n : Numeral) : n.chars ≠ [] := by
  intro heq
  have h := n.ofChars?_chars
  rw [heq] at h
  cases h

theorem infinity_ne_prefixed (s : Sign) (letter : Char) (ds : List Char) :
    s.chars ++ "Infinity".toList ≠ '0' :: letter :: ds := by
  cases s <;> simp [Sign.chars]

/-- Which prefixed texts belong to the grammar. -/
theorem isLiteral_prefixed_iff {b : Base} {letter : Char} {ds : List Char}
    (hletter : letter ∈ b.letters) :
    IsLiteral ('0' :: letter :: ds) ↔ ds ≠ [] ∧ ∀ d ∈ ds, d ∈ b.digits := by
  refine ⟨fun h => ?_, fun h => .prefixed b hletter h.1 h.2⟩
  generalize heq : '0' :: letter :: ds = cs at h
  cases h with
  | empty => cases heq
  | infinity s => exact absurd heq.symm (infinity_ne_prefixed s letter ds)
  | prefixed b' hletter' hne hds =>
    obtain ⟨rfl, rfl⟩ := List.cons.inj (List.cons.inj heq).2
    obtain rfl := Base.eq_of_mem hletter hletter'
    exact ⟨hne, hds⟩
  | numeral n => exact absurd heq.symm (numeral_ne_prefixed n hletter ds)

/-- Which other texts belong to it, the empty one and the infinities apart. -/
theorem isLiteral_iff_of_prefixed?_eq_none {cs : List Char} (hne : cs ≠ [])
    (hinf : ∀ s : Sign, cs ≠ s.chars ++ "Infinity".toList) (h : prefixed? cs = none) :
    IsLiteral cs ↔ ∃ n : Numeral, n.chars = cs := by
  refine ⟨fun hl => ?_, fun ⟨n, hn⟩ => hn ▸ .numeral n⟩
  cases hl with
  | empty => exact absurd rfl hne
  | infinity s => exact absurd rfl (hinf s)
  | prefixed b hletter hdigits hds =>
    obtain ⟨n, hn⟩ := exists_natural? hdigits hds
    rw [prefixed?_eq hletter hn] at h
    cases h
  | numeral n => exact ⟨n, rfl⟩

theorem ofChars?_numeral (n : Numeral) : Binary64.ofChars? n.chars = some n.decimal.toBinary64 := by
  rw [Binary64.ofChars?, n.ofChars?_chars]

/-- **A text that is a numeral is read as a number**, so that there is nothing to fall back on. -/
theorem exists_ofChars?_of_isNumeral {cs : List Char} (h : Decimal.isNumeral cs = true) :
    ∃ x, Binary64.ofChars? cs = some x ∧ x.isNaN = false := by
  obtain ⟨n, rfl⟩ := Decimal.isNumeral_iff.mp h
  exact ⟨_, ofChars?_numeral n, Decimal.isNaN_toBinary64 _⟩

/-- Past the empty text and the infinities a marker decides how the text is read. -/
theorem ofTrimmed_eq {cs : List Char} (hne : cs ≠ [])
    (hinf : ∀ s : Sign, cs ≠ s.chars ++ "Infinity".toList) : ofTrimmed cs =
      (prefixed? cs).getD (if Decimal.isNumeral cs then (Binary64.ofChars? cs).getD .nan else .nan) := by
  have hpos : ¬(cs = "Infinity".toList ∨ cs = "+Infinity".toList) := by
    rintro (h | h)
    · exact hinf .none h
    · exact hinf .plus h
  have hneg : cs ≠ "-Infinity".toList := hinf .minus
  rw [ofTrimmed, if_neg (by simpa using hne), if_neg hpos, if_neg hneg]
  cases prefixed? cs <;> rfl

theorem isNaN_ofTrimmed_infinity (s : Sign) :
    (ofTrimmed (s.chars ++ "Infinity".toList)).isNaN = false := by
  cases s <;> decide

/-- **The texts of the grammar are the ones that are read as numbers.** -/
theorem isNaN_ofTrimmed_iff (cs : List Char) : (ofTrimmed cs).isNaN = false ↔ IsLiteral cs := by
  by_cases hne : cs = []
  · rw [hne]
    exact iff_of_true rfl .empty
  by_cases hinf : ∃ s : Sign, cs = s.chars ++ "Infinity".toList
  · obtain ⟨s, rfl⟩ := hinf
    exact iff_of_true (isNaN_ofTrimmed_infinity s) (.infinity s)
  have hinf : ∀ s : Sign, cs ≠ s.chars ++ "Infinity".toList := fun s h => hinf ⟨s, h⟩
  rw [ofTrimmed_eq hne hinf]
  cases hx : prefixed? cs with
  | some x =>
    obtain ⟨b, letter, ds, hletter, rfl⟩ := exists_of_prefixed? hx
    rw [Option.getD_some, isNaN_prefixed?_iff hletter hx, isLiteral_prefixed_iff hletter]
  | none =>
    rw [Option.getD_none, isLiteral_iff_of_prefixed?_eq_none hne hinf hx, ← Decimal.isNumeral_iff]
    split
    · next hnum =>
      obtain ⟨x, hx, hnan⟩ := exists_ofChars?_of_isNumeral hnum
      rw [hx, Option.getD_some]
      exact iff_of_true hnan hnum
    · next hnum => exact iff_of_false (by decide) hnum

/-! ### Values -/

/-- A numeral without blanks around it is read as the number nearest to what it spells. -/
theorem ofTrimmed_numeral (n : Numeral) : ofTrimmed n.chars = n.decimal.toBinary64 := by
  have hprefixed : prefixed? n.chars = none := by
    rw [Option.eq_none_iff_forall_ne_some]
    intro x hx
    obtain ⟨b, letter, ds, hletter, heq⟩ := exists_of_prefixed? hx
    exact numeral_ne_prefixed n hletter ds heq
  rw [ofTrimmed_eq (numeral_ne_nil n) (numeral_ne_infinity n), hprefixed, Option.getD_none,
    if_pos (Decimal.isNumeral_iff.mpr ⟨n, rfl⟩), ofChars?_numeral, Option.getD_some]

/-- A numeral has no blanks. -/
theorem unbroken_numeral (n : Numeral) : Text.Unbroken n.chars := fun c hc => by
  have hall : ∀ c ∈ Numeral.alphabet, Text.isBlank c = false :=
    Text.forall_mem (by decide)
  exact hall c (Numeral.mem_alphabet hc)

theorem value_numeral (n : Numeral) : value n.chars = n.decimal.toBinary64 := by
  rw [value, Text.trim_eq_self (unbroken_numeral n), ofTrimmed_numeral]

theorem ofTrimmed_prefixed {b : Base} {letter : Char} {ds : List Char} {n : Nat}
    (hletter : letter ∈ b.letters) (h : Radix.natural? b.radix ds = some n) :
    ofTrimmed ('0' :: letter :: ds) = ofNat (kept b.radix n) := by
  rw [ofTrimmed_eq (List.cons_ne_nil _ _) fun s heq => infinity_ne_prefixed s letter ds heq.symm,
    prefixed?_eq hletter h, Option.getD_some]

/-! ### What is refused -/

/-- The words for infinity and not-a-number in whatever letter case, the literal's own one apart. -/
def IsForeignWord (word : List Char) : Prop :=
  word.map Char.toLower ∈ ["inf".toList, "infinity".toList, "nan".toList] ∧
    word ≠ "Infinity".toList

/-- Such a word starts with a letter that is no start of another literal, and it has an `n`. -/
theorem IsForeignWord.letters {word : List Char} (h : IsForeignWord word) :
    (∃ c cs, word = c :: cs ∧ c ∉ ['0', '+', '-']) ∧ ∃ c ∈ word, c ∉ Numeral.alphabet := by
  constructor
  · cases word with
    | nil => exact absurd h.1 (by decide)
    | cons c cs =>
      refine ⟨c, cs, rfl, fun hc => ?_⟩
      have hlower : c.toLower = c := by
        have hall : ∀ c ∈ ['0', '+', '-'], c.toLower = c := Text.forall_mem (by decide)
        exact hall c hc
      have hhead : ∀ c ∈ ['0', '+', '-'], ∀ w ∈ ["inf".toList, "infinity".toList, "nan".toList],
          w.head? ≠ some c := Text.forall_mem (by decide)
      exact hhead c hc _ h.1 (congrArg some hlower)
  · have hn : 'n' ∈ word.map Char.toLower := by
      have hall : ∀ w ∈ ["inf".toList, "infinity".toList, "nan".toList], 'n' ∈ w := by decide
      exact hall _ h.1
    obtain ⟨c, hc, hlower⟩ := List.mem_map.mp hn
    refine ⟨c, hc, fun halphabet => ?_⟩
    have hall : ∀ c ∈ Numeral.alphabet, c.toLower ≠ 'n' := Text.forall_mem (by decide)
    exact hall c halphabet hlower

/-- A sign and what follows it are read off a text, unless what follows starts with a sign itself. -/
theorem sign_append_inj {s s' : Sign} {c c' : Char} {cs cs' : List Char} (hc : c ∉ ['+', '-'])
    (hc' : c' ∉ ['+', '-']) (h : s.chars ++ c :: cs = s'.chars ++ c' :: cs') :
    c :: cs = c' :: cs' := by
  cases s <;> cases s' <;> grind [Sign.chars]

/-- **Other words for infinity and not-a-number are refused.** -/
theorem not_isLiteral_word (s : Sign) {word : List Char} (h : IsForeignWord word) :
    ¬IsLiteral (s.chars ++ word) := by
  obtain ⟨⟨first, tail, rfl, hfirst⟩, c, hc, halphabet⟩ := h.letters
  generalize heq : s.chars ++ first :: tail = cs
  have hmem : c ∈ cs := heq ▸ List.mem_append_right _ hc
  intro hl
  cases hl with
  | empty => cases hmem
  | infinity s' =>
    exact h.2 (sign_append_inj (fun hm => hfirst (List.mem_cons_of_mem _ hm)) (by decide) heq)
  | prefixed b hletter hne hds =>
    cases s with
    | none =>
      have hzero : first = '0' := (List.cons.inj heq).1
      exact hfirst (by rw [hzero]; decide)
    | plus => exact absurd (List.cons.inj heq).1 (by decide)
    | minus => exact absurd (List.cons.inj heq).1 (by decide)
  | numeral n => exact halphabet (Numeral.mem_alphabet hmem)

/-- **A numeral with something behind it that cannot continue it is refused.** -/
theorem not_isLiteral_numeral_append (n : Numeral) {c : Char} (cs : List Char)
    (hends : Decimal.Ends (c :: cs)) (hmarker : ∀ b : Base, c ∉ b.letters) :
    ¬IsLiteral (n.chars ++ c :: cs) := by
  obtain ⟨d, hd, hdigit⟩ := n.exists_digit
  generalize heq : n.chars ++ c :: cs = text
  have hmem : d ∈ text := heq ▸ List.mem_append_left _ hd
  intro hl
  cases hl with
  | empty => cases hmem
  | infinity s =>
    have hall : ∀ d ∈ s.chars ++ "Infinity".toList, d.isDigit = false := by
      cases s <;> exact Text.forall_mem (by decide)
    rw [hall d hmem] at hdigit
    cases hdigit
  | prefixed b hletter hne hds =>
    -- behind the zero there is the marker, which is neither in the numeral nor `c`
    cases hn : n.chars with
    | nil => exact numeral_ne_nil n hn
    | cons zero rest =>
      rw [hn] at heq
      have htail := (List.cons.inj heq).2
      cases rest with
      | nil => exact hmarker b ((List.cons.inj htail).1 ▸ hletter)
      | cons second rest =>
        refine not_mem_alphabet_of_mem_letters hletter (Numeral.mem_alphabet (n := n) ?_)
        rw [hn, ← (List.cons.inj htail).1]
        simp
  | numeral m =>
    have hnone := n.ofChars?_chars_append hends
    rw [heq, m.ofChars?_chars] at hnone
    cases hnone

/-- **An infinity with anything behind it is refused.** -/
theorem not_isLiteral_infinity_append (s : Sign) (c : Char) (cs : List Char) :
    ¬IsLiteral (s.chars ++ "Infinity".toList ++ c :: cs) := by
  generalize heq : s.chars ++ "Infinity".toList ++ c :: cs = text
  have hI : 'I' ∈ text := heq ▸ List.mem_append_left _ (List.mem_append_right _ (by decide))
  intro hl
  cases hl with
  | empty => cases hI
  | infinity s' => cases s <;> cases s' <;> simp [Sign.chars] at heq
  | prefixed b hletter hne hds => cases s <;> simp [Sign.chars] at heq
  | numeral n => exact absurd (Numeral.mem_alphabet hI) (by decide)

/-- **A prefixed literal with something behind it that is no digit is refused.** -/
theorem not_isLiteral_prefixed_append {b : Base} {letter c : Char} (hletter : letter ∈ b.letters)
    (ds cs : List Char) (hc : c ∉ b.digits) : ¬IsLiteral ('0' :: letter :: (ds ++ c :: cs)) := by
  rw [isLiteral_prefixed_iff hletter]
  exact fun h => hc (h.2 c (List.mem_append_right _ List.mem_cons_self))

/-! ### Where a text is cut -/

/-- **A marker is found among the bytes of a text exactly where it stands among the characters**, so
that the bytes behind it are the characters behind it. -/
theorem encode_eq_prefix_iff {b : Base} {letter : Char} (hletter : letter ∈ b.letters)
    {cs : List Char} {rest : List UInt8} :
    Utf8.encode cs = UInt8.ofNat '0'.toNat :: UInt8.ofNat letter.toNat :: rest ↔
      ∃ ds, cs = '0' :: letter :: ds ∧ Utf8.encode ds = rest := by
  have hascii : letter.toNat < 0x80 := by
    have hall : ∀ c ∈ b.letters, c.toNat < 0x80 := by
      cases b <;> exact Text.forall_mem (by decide)
    exact hall letter hletter
  rw [Utf8.encode_eq_cons_iff (by decide)]
  constructor
  · rintro ⟨tail, rfl, htail⟩
    obtain ⟨ds, rfl, h⟩ := (Utf8.encode_eq_cons_iff hascii).mp htail
    exact ⟨ds, rfl, h⟩
  · rintro ⟨ds, rfl, h⟩
    exact ⟨letter :: ds, rfl, (Utf8.encode_eq_cons_iff hascii).mpr ⟨ds, rfl, h⟩⟩

/-! ### The whole reading -/

theorem isNaN_value_of_not {cs text : List Char} (htrim : Text.trim cs = text)
    (h : ¬IsLiteral text) : (value cs).isNaN = true := by
  rw [← Bool.not_eq_false, value, htrim, isNaN_ofTrimmed_iff]
  exact h

/-- **Exactly the grammar is read as numbers.**  A text is read as a number if and only if it belongs
to the grammar without the blanks around it.  What is a numeral spells a number, so there is nothing
to fall back on.  A numeral is read as the nearest value, an infinity if that is beyond the finite
values, and a prefixed literal is read as an infinity from the same number on.  Other words for
infinity and not-a-number are refused, and so is every literal with something behind it that cannot
continue it.  A text is cut behind a marker only, where a character ends. -/
theorem accepts_grammar (cs : List Char) :
    ((value cs).isNaN = false ↔ IsLiteral (Text.trim cs)) ∧
    (∀ text, Decimal.isNumeral text = true → ∃ x, Binary64.ofChars? text = some x ∧ x.isNaN = false) ∧
    (∀ n : Numeral, Text.trim cs = n.chars →
      IsRounded n.sign.isMinus (n.decimal.numerator * unit) n.decimal.denominator (value cs)) ∧
    (∀ (b : Base) (letter : Char) (ds : List Char) (n : Nat), letter ∈ b.letters →
      Radix.natural? b.radix ds = some n → Text.trim cs = '0' :: letter :: ds →
      (value cs = .infinity false ↔ overflow ≤ n)) ∧
    (∀ (s : Sign) (word : List Char), IsForeignWord word → Text.trim cs = s.chars ++ word →
      (value cs).isNaN = true) ∧
    (∀ (n : Numeral) (c : Char) (garbage : List Char), Decimal.Ends (c :: garbage) →
      (∀ b : Base, c ∉ b.letters) → Text.trim cs = n.chars ++ c :: garbage →
      (value cs).isNaN = true) ∧
    (∀ (s : Sign) (c : Char) (garbage : List Char),
      Text.trim cs = s.chars ++ "Infinity".toList ++ c :: garbage → (value cs).isNaN = true) ∧
    (∀ (b : Base) (letter c : Char) (ds garbage : List Char), letter ∈ b.letters → c ∉ b.digits →
      Text.trim cs = '0' :: letter :: (ds ++ c :: garbage) → (value cs).isNaN = true) ∧
    (∀ (b : Base) (letter : Char) (rest : List UInt8), letter ∈ b.letters →
      (Utf8.encode (Text.trim cs) = UInt8.ofNat '0'.toNat :: UInt8.ofNat letter.toNat :: rest ↔
        ∃ ds, Text.trim cs = '0' :: letter :: ds ∧ Utf8.encode ds = rest)) := by
  refine ⟨isNaN_ofTrimmed_iff _, fun text h => exists_ofChars?_of_isNumeral h, ?numeral, ?prefixed,
    fun s word h htrim => isNaN_value_of_not htrim (not_isLiteral_word s h),
    fun n c garbage hends hmarker htrim =>
      isNaN_value_of_not htrim (not_isLiteral_numeral_append n garbage hends hmarker),
    fun s c garbage htrim => isNaN_value_of_not htrim (not_isLiteral_infinity_append s c garbage),
    fun b letter c ds garbage hletter hc htrim =>
      isNaN_value_of_not htrim (not_isLiteral_prefixed_append hletter ds garbage hc),
    fun b letter rest hletter => encode_eq_prefix_iff hletter⟩
  case numeral =>
    intro n htrim
    rw [value, htrim, ofTrimmed_numeral]
    exact n.decimal.isRounded_toBinary64
  case prefixed =>
    intro b letter ds n hletter hn htrim
    rw [value, htrim, ofTrimmed_prefixed hletter hn, Base.radix, Binary64.ofNat_kept_eq_infinity_iff,
      Binary64.ofNat_eq_infinity_iff]

end ProductSegments.Literal

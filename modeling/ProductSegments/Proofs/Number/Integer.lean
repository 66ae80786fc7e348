import ProductSegments.Proofs.Number.Spelling

/-!
# Exact integers

Up to 2⁵³ in magnitude, that bound included, every integer is a binary64 number.  So an integer and
what its literal is read as have the same place on the number line, whichever of its many spellings
the literal is, and two such numbers compare as the integers do.

## Main definitions

* `Literal.SpellsInteger` — the spellings of an integer.

## Main results

* `Binary64.place?_ofInt` — an integer is exact.
* `Literal.place?_value` — so is a literal that spells one.
* `Literal.compare?_value` — an integer and a literal compare as integers.
-/

namespace ProductSegments

open Decimal (Numeral Sign)

attribute [local irreducible] Binary64.limit Binary64.unit

namespace Binary64

/-! ### Integers on the number line -/

/-- A whole number up to 2⁵³ stands at its own place, in either sign. -/
theorem place?_ofRatio (negative : Bool) {n : Nat} (h : n ≤ twoPow 53) :
    (ofRatio negative n 1).place? = some ((if negative then -(n : Int) else n) * unit) := by
  rw [ofRatio_of_onGrid negative (onGrid_of_le h) (lt_twoPow_of_le h)]
  cases negative with
  | false => simp [place?]
  | true => simp only [place?, if_true, Int.natCast_mul, Int.neg_mul]

/-- **An integer up to 2⁵³ is exact.** -/
theorem place?_ofInt {n : Int} (h : n.natAbs ≤ twoPow 53) : (ofInt n).place? = some (n * unit) := by
  have signed : (if decide (n < 0) then -(n.natAbs : Int) else n.natAbs) = n := by
    by_cases negative : n < 0
    · simp only [negative, decide_true, if_true]
      omega
    · simp only [negative, decide_false, Bool.false_eq_true, if_false]
      omega
  rw [ofInt, place?_ofRatio _ h, signed]

theorem compare_mul_right (a b : Int) {c : Int} (hc : 0 < c) :
    compare (a * c) (b * c) = compare a b := by
  have lt : a * c < b * c ↔ a < b := Int.mul_lt_mul_right hc
  have eq : a * c = b * c ↔ a = b := Int.mul_eq_mul_right_iff (by omega)
  simp only [compare, compareOfLessAndEq, lt, eq]

/-- **Numbers at the places of integers compare as the integers.** -/
theorem compare?_of_place? {x y : Binary64} {a b : Int} (hx : x.place? = some (a * unit))
    (hy : y.place? = some (b * unit)) : x.compare? y = some (compare a b) := by
  have unit : (0 : Int) < unit := Int.natCast_pos.mpr unit_pos
  simp [compare?, hx, hy, compare_mul_right a b unit]

end Binary64

namespace Literal

open Binary64 (unit)

/-! ### Spellings of an integer -/

/-- The text spells the integer: its decimal digits, with or without a sign, with zeros in front and
perhaps a point with zeros behind it; or, without a sign, its digits behind a marker. -/
inductive SpellsInteger : Int → List Char → Prop where
  | decimal (s : Sign) (n zeros : Nat) (places? : Option Nat) :
      SpellsInteger (if s.isMinus then -n else n) (s.chars ++
        (List.replicate zeros '0' ++ Nat.toDigits 10 n ++
          Decimal.fractionChars (places?.map (List.replicate · '0'))))
  | prefixed {b : Base} {n : Nat} {text : List Char} (h : Spells b n text) : SpellsInteger n text

/-- The decimal digits of a number with a sign, and a point with zeros behind it. -/
def signedNumeral (s : Sign) (n zeros : Nat) (places? : Option Nat) : Numeral where
  sign := s
  whole := List.replicate zeros '0' ++ Nat.toDigits 10 n
  fraction? := places?.map (List.replicate · '0')
  power? := none
  isDigit_whole := isDigit_of_mem_decimal
  isDigit_fraction := by
    cases places? with
    | none => simp
    | some places => exact Decimal.isDigit_of_mem_zeros
  digits_ne_nil := by simp [Nat.toDigits_ne_nil]

variable (s : Sign) (n zeros : Nat) (places? : Option Nat)

theorem chars_signedNumeral : (signedNumeral s n zeros places?).chars = s.chars ++
    (List.replicate zeros '0' ++ Nat.toDigits 10 n ++
      Decimal.fractionChars (places?.map (List.replicate · '0'))) := by
  simp [signedNumeral, Numeral.chars]

/-- Zeros behind the point are digits, and as many places of the power of ten. -/
theorem decimal_signedNumeral : (signedNumeral s n zeros places?).decimal =
    ⟨s.isMinus, n * tenPow (places?.getD 0), -(places?.getD 0 : Nat)⟩ := by
  have fraction : (places?.map (List.replicate · '0')).getD [] =
      List.replicate (places?.getD 0) '0' := by
    cases places? with
    | none => rfl
    | some places => rfl
  simp only [signedNumeral, Numeral.decimal, Numeral.digits, fraction, Decimal.ofDigits_append_zeros,
    Decimal.ofDigits_zeros_append, Decimal.ofDigits_toDigits, List.length_replicate,
    Decimal.powerExponent]
  simp

/-- **Decimal digits with a sign are read as their number**, whatever zeros stand around them. -/
theorem value_signedNumeral :
    value (signedNumeral s n zeros places?).chars = .ofRatio s.isMinus n 1 := by
  have places : -((places?.getD 0 : Nat) : Int) + (places?.getD 0 : Nat) = 0 := by omega
  rw [value_numeral, decimal_signedNumeral, Decimal.toBinary64_mul_tenPow, places,
    Decimal.toBinary64_eq]
  simp [Decimal.numerator, Decimal.denominator]

variable {s n zeros places?}

/-! ### The values of the spellings -/

/-- **A literal that spells an integer up to 2⁵³ is read exactly.** -/
theorem place?_value {m : Int} {text : List Char} (h : SpellsInteger m text)
    (small : m.natAbs ≤ twoPow 53) : (value text).place? = some (m * unit) := by
  cases h with
  | decimal s n zeros places? =>
    have small : n ≤ twoPow 53 := by
      cases hs : s.isMinus <;> simpa [hs] using small
    rw [← chars_signedNumeral, value_signedNumeral, Binary64.place?_ofRatio _ small]
  | @prefixed b n _ h =>
    have small : n ≤ twoPow 53 := by simpa using small
    have radix : 2 ≤ b.radix := by cases b <;> decide
    have before : n / b.radix < twoPow 53 :=
      calc n / b.radix ≤ twoPow 53 / b.radix := Nat.div_le_div_right small
        _ < twoPow 53 := Nat.div_lt_self (twoPow_pos 53) radix
    rw [h.value_eq, Binary64.kept_of_lt before]
    exact Binary64.place?_ofRatio false small

/-- **An integer and a literal compare as integers.** -/
theorem compare?_value {q m : Int} {text : List Char} (hq : q.natAbs ≤ twoPow 53)
    (hm : m.natAbs ≤ twoPow 53) (h : SpellsInteger m text) :
    (Binary64.ofInt q).compare? (value text) = some (compare q m) :=
  Binary64.compare?_of_place? (Binary64.place?_ofInt hq) (place?_value h hm)

/-- A literal that spells an integer is one word. -/
theorem SpellsInteger.isWord {m : Int} {literal : String} (h : SpellsInteger m literal.toList) :
    Text.IsWord literal := by
  generalize hcs : literal.toList = cs at h
  suffices word : cs ≠ [] ∧ Text.Unbroken cs by
    rw [← hcs] at word
    exact ⟨word.1, word.2⟩
  cases h with
  | decimal s n zeros places? =>
    rw [← chars_signedNumeral]
    exact ⟨numeral_ne_nil _, unbroken_numeral _⟩
  | prefixed h =>
    obtain ⟨letter, ds, hletter, hn, rfl⟩ := h.exists_digits
    exact ⟨List.cons_ne_nil _ _, unbroken_prefixed hletter hn⟩

end Literal

end ProductSegments

import ProductSegments.Proofs.Number.Numeral

/-!
# The longest numeral in front

A text may begin with several numerals, as `1.5e` does with `1`, `1.` and `1.5`.  The scanner goes on
as long as it can, and gives up a point or a letter only where no numeral goes on behind it.  So it never
stops inside a numeral that the text begins with, and what it takes is the longest of them.

## Main definitions

* `Decimal.IsLongest` — the longest numeral that a text begins with.

## Main results

* `Decimal.Numeral.exists_scan_append` — the scanner does not stop inside a numeral.
* `Decimal.Numeral.isLongest_of_scan`, `Decimal.scan_eq_none_iff` — it takes the longest numeral, if
  there is one.
* `Decimal.IsLongest.unique` — there is at most one.
-/

namespace ProductSegments.Decimal

/-- Of the numerals that a text begins with the longest one. -/
structure IsLongest (numeral cs : List Char) : Prop where
  begins : numeral <+: cs
  isNumeral : isNumeral numeral = true
  longest : ∀ q, q <+: cs → Decimal.isNumeral q = true → q.length ≤ numeral.length

/-- **A text has at most one longest numeral.** -/
theorem IsLongest.unique {p q cs : List Char} (hp : IsLongest p cs) (hq : IsLongest q cs) :
    p = q := by
  have length : p.length = q.length :=
    Nat.le_antisymm (hq.longest p hp.begins hp.isNumeral) (hp.longest q hq.begins hq.isNumeral)
  exact (List.prefix_of_prefix_length_le hp.begins hq.begins (Nat.le_of_eq length)).eq_of_length length

/-! ### What the parts of the scanner leave -/

theorem length_scanFraction_le (cs : List Char) : (scanFraction cs).2.length ≤ cs.length := by
  obtain ⟨fraction?, split, -⟩ := exists_fraction cs
  conv => rhs; rw [split, List.length_append]
  exact Nat.le_add_left ..

theorem length_scanExponent_le (cs : List Char) : (scanExponent cs).2.length ≤ cs.length := by
  obtain ⟨power?, split, -⟩ := exists_power cs
  conv => rhs; rw [split, List.length_append]
  exact Nat.le_add_left ..

variable (power? : Option Power) (tail : List Char)

/-- Behind a power the scanner of powers may only take more digits. -/
theorem length_scanExponent_append_le :
    (scanExponent (powerChars power? ++ tail)).2.length ≤ tail.length := by
  cases power? with
  | none => exact length_scanExponent_le tail
  | some p =>
    have letter : (p.letter = 'e' || p.letter = 'E') = true := by
      rcases p.letter_eq with h | h <;> simp [h]
    have digits : ((p.digits ++ tail).takeWhile Char.isDigit).isEmpty = false := by
      rw [List.takeWhile_append_of_pos p.isDigit]
      simp [p.digits_ne_nil]
    simp only [powerChars_some, Power.chars, List.cons_append, List.append_assoc, scanExponent,
      letter, p.scanSign_tail, digits, if_true, Bool.false_eq_true, if_false]
    rw [List.dropWhile_append_of_pos p.isDigit]
    exact (List.dropWhile_suffix _).length_le

/-- Digits in front of a power are none of it. -/
theorem exists_dropWhile_powerChars : ∃ tail', tail'.length ≤ tail.length ∧
    (powerChars power? ++ tail).dropWhile Char.isDigit = powerChars power? ++ tail' := by
  cases power? with
  | none => exact ⟨_, (List.dropWhile_suffix Char.isDigit).length_le, rfl⟩
  | some p =>
    have letter : p.letter.isDigit = false := by
      rcases p.letter_eq with h | h <;> rw [h] <;> decide
    refine ⟨tail, Nat.le_refl _, ?_⟩
    rw [powerChars_some, Power.chars, List.cons_append,
      List.dropWhile_cons_of_neg (by simp [letter])]

/-- Neither a fraction nor a power is left by the scanner, whatever stands behind them. -/
theorem length_scan_behind_whole_le {fraction? : Option (List Char)}
    (isDigit : ∀ c ∈ fraction?.getD [], c.isDigit = true) :
    let behind := (fractionChars fraction? ++ (powerChars power? ++ tail)).dropWhile Char.isDigit
    (scanExponent (scanFraction behind).2).2.length ≤ tail.length ∧
      fraction?.getD [] <+: (scanFraction behind).1 := by
  obtain ⟨tail', shorter, run⟩ := exists_dropWhile_powerChars power? tail
  intro behind
  cases fraction? with
  | some ds =>
    rw [Option.getD_some] at isDigit
    have point : behind = '.' :: (ds ++ (powerChars power? ++ tail)) :=
      List.dropWhile_cons_of_neg (by decide)
    rw [point, scanFraction]
    dsimp only
    rw [List.dropWhile_append_of_pos isDigit, run, List.takeWhile_append_of_pos isDigit]
    exact ⟨Nat.le_trans (length_scanExponent_append_le power? tail') shorter,
      List.prefix_append ds _⟩
  | none =>
    have none : behind = powerChars power? ++ tail' := run
    rw [none]
    refine ⟨Nat.le_trans ?_ shorter, List.nil_prefix⟩
    cases power? with
    | none =>
      exact Nat.le_trans (length_scanExponent_le _) (length_scanFraction_le tail')
    | some p =>
      -- a letter is no point
      have letter : p.letter ≠ '.' := by
        rcases p.letter_eq with h | h <;> rw [h] <;> decide
      have no_fraction := Numeral.scanFraction_of_ne (p.sign.chars ++ p.digits ++ tail') letter
      rw [powerChars_some, Power.chars, List.cons_append, no_fraction]
      exact length_scanExponent_append_le (some p) tail'

/-! ### The longest numeral -/

/-- **The scanner does not stop inside a numeral**, whatever stands behind it. -/
theorem Numeral.exists_scan_append (n : Numeral) :
    ∃ d rest, scan (n.chars ++ tail) = some (d, rest) ∧ rest.length ≤ tail.length := by
  obtain ⟨shorter, fraction⟩ := length_scan_behind_whole_le n.power? tail n.isDigit_fraction
  have someDigit : (((n.whole ++ (fractionChars n.fraction? ++ (powerChars n.power? ++ tail))).takeWhile
      Char.isDigit).isEmpty && (scanFraction ((fractionChars n.fraction? ++
        (powerChars n.power? ++ tail)).dropWhile Char.isDigit)).1.isEmpty) = false := by
    rw [List.takeWhile_append_of_pos n.isDigit_whole, Bool.eq_false_iff]
    intro empty
    rw [Bool.and_eq_true, List.isEmpty_iff, List.isEmpty_iff, List.append_eq_nil_iff] at empty
    rw [empty.2, List.prefix_nil] at fraction
    exact n.digits_ne_nil (List.append_eq_nil_iff.mpr ⟨empty.1.1, fraction⟩)
  unfold scan
  rw [n.scanSign_chars]
  dsimp only
  rw [List.dropWhile_append_of_pos n.isDigit_whole, someDigit]
  exact ⟨_, _, rfl, shorter⟩

variable {cs rest : List Char} {d : Decimal}

/-- **The scanner takes the longest numeral** that a text begins with. -/
theorem Numeral.isLongest_of_scan {n : Numeral} (h : scan (n.chars ++ rest) = some (d, rest)) :
    IsLongest n.chars (n.chars ++ rest) := by
  refine ⟨List.prefix_append _ _, isNumeral_iff.mpr ⟨n, rfl⟩, ?_⟩
  rintro q ⟨tail, whole⟩ hq
  obtain ⟨m, rfl⟩ := isNumeral_iff.mp hq
  obtain ⟨d', rest', again, shorter⟩ := m.exists_scan_append tail
  rw [whole, h] at again
  obtain ⟨-, rfl⟩ := Prod.mk.inj (Option.some.inj again)
  have lengths := congrArg List.length whole
  rw [List.length_append, List.length_append] at lengths
  omega

/-- **It takes nothing exactly if the text begins with no numeral.** -/
theorem scan_eq_none_iff : scan cs = none ↔ ∀ q, q <+: cs → isNumeral q = false := by
  constructor
  · rintro none q ⟨tail, rfl⟩
    rw [Bool.eq_false_iff]
    intro numeral
    obtain ⟨n, rfl⟩ := isNumeral_iff.mp numeral
    obtain ⟨d, rest, found, -⟩ := n.exists_scan_append tail
    rw [none] at found
    cases found
  · intro nowhere
    cases found : scan cs with
    | none => rfl
    | some taken =>
      obtain ⟨n, rfl, -⟩ := exists_numeral_of_scan found
      have numeral : isNumeral n.chars = true := isNumeral_iff.mpr ⟨n, rfl⟩
      rw [nowhere n.chars (List.prefix_append _ _)] at numeral
      cases numeral

end ProductSegments.Decimal

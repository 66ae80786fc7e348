import ProductSegments.Proofs.Number.Layout
import ProductSegments.Proofs.Number.Literal

/-!
# Written numbers are read back

The layout of rule values and the grammar of literals meet on every number: what the layout writes is
read as the number that was written.  Only the sign of zero is lost, which no comparison sees.

## Main definitions

* `Binary64.dropZeroSign` — the number, zero without its sign.

## Main results

* `Literal.value_chars_rule` — a written number is read back.
* `Literal.unbroken_chars_rule` — it is written without blanks.
-/

namespace ProductSegments

namespace Binary64

attribute [local irreducible] limit unit

/-- The number, zero without its sign. -/
def dropZeroSign : Binary64 → Binary64
  | finite negative quanta exact => if quanta = 0 then zero else finite negative quanta exact
  | x => x

/-- Only the negative zero is changed. -/
theorem dropZeroSign_eq_self {x : Binary64} (h : ∀ exact, x ≠ finite true 0 exact) :
    x.dropZeroSign = x := by
  cases x with
  | nan => rfl
  | infinity negative => rfl
  | finite negative quanta exact =>
    cases quanta with
    | succ quanta => rfl
    | zero =>
      cases negative with
      | false => rfl
      | true => exact absurd rfl (h exact)

/-- A number is the negative zero, or it is left alone. -/
theorem dropZeroSign_cases (x : Binary64) :
    (∃ exact, x = finite true 0 exact) ∨ x.dropZeroSign = x := by
  by_cases h : ∃ exact, x = finite true 0 exact
  · exact .inl h
  · exact .inr (dropZeroSign_eq_self fun exact heq => h ⟨exact, heq⟩)

@[simp] theorem isNaN_dropZeroSign (x : Binary64) : x.dropZeroSign.isNaN = x.isNaN := by
  rcases dropZeroSign_cases x with ⟨exact, rfl⟩ | h
  · rfl
  · rw [h]

@[simp] theorem place?_dropZeroSign (x : Binary64) : x.dropZeroSign.place? = x.place? := by
  rcases dropZeroSign_cases x with ⟨exact, rfl⟩ | h
  · rfl
  · rw [h]

theorem compare?_self {x : Binary64} (h : x.isNaN = false) : x.compare? x = some .eq := by
  unfold compare?
  cases hplace : x.place? with
  | none => cases x <;> cases hplace; cases h
  | some place => simp

/-- No comparison sees the sign of zero. -/
theorem compare?_dropZeroSign_left (x y : Binary64) : x.dropZeroSign.compare? y = x.compare? y := by
  rw [compare?, compare?, place?_dropZeroSign]

theorem compare?_dropZeroSign_right (x y : Binary64) : x.compare? y.dropZeroSign = x.compare? y := by
  rw [compare?, compare?, place?_dropZeroSign]

end Binary64

namespace Literal

variable {x : Binary64}

/-- A number is written as a numeral or as an infinity. -/
theorem chars_rule_cases (h : x.isNaN = false) :
    (∃ n : Decimal.Numeral, n.chars = Layout.rule.chars x ∧ n.decimal.toBinary64 = x.dropZeroSign) ∨
      ∃ negative, x = .infinity negative := by
  cases x with
  | nan => cases h
  | infinity negative => exact .inr ⟨negative, rfl⟩
  | finite negative quanta exact =>
    obtain ⟨n, -, hchars, hvalue⟩ := Layout.exists_numeral_chars Layout.rule negative quanta exact
    refine .inl ⟨n, hchars, ?_⟩
    rw [hvalue]
    cases quanta with
    | zero =>
      have hsign : (negative && Layout.rule.keepsZeroSign) = false := Bool.and_false negative
      rw [if_pos rfl, hsign]
      rfl
    | succ quanta => rfl

/-- **A written number is read back**, zero without its sign. -/
theorem value_chars_rule (h : x.isNaN = false) : value (Layout.rule.chars x) = x.dropZeroSign := by
  rcases chars_rule_cases h with ⟨n, hchars, hvalue⟩ | ⟨negative, rfl⟩
  · rw [← hchars, value_numeral, hvalue]
  · cases negative <;> decide

/-- A number is written without blanks. -/
theorem unbroken_chars_rule (h : x.isNaN = false) : Text.Unbroken (Layout.rule.chars x) := by
  rcases chars_rule_cases h with ⟨n, hchars, -⟩ | ⟨negative, rfl⟩
  · exact hchars ▸ unbroken_numeral n
  · cases negative <;> decide

theorem chars_rule_ne_nil (h : x.isNaN = false) : Layout.rule.chars x ≠ [] := by
  rcases chars_rule_cases h with ⟨n, hchars, -⟩ | ⟨negative, rfl⟩
  · exact hchars ▸ numeral_ne_nil n
  · cases negative <;> decide

end Literal

end ProductSegments

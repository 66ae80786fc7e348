import ProductSegments.Proofs.Number.Integer
import ProductSegments.Proofs.Rule.Comparison

/-!
# Rules about the stock

A quantity in stock is an integer, and so is the value of most rules about it.  Both become binary64
numbers before they are compared.  Up to 2⁵³ nothing is lost on the way, so the rule compares the
integers themselves, however its value is spelled.

## Main definitions

* `Operator.Relates` — what an operator says of two integers.

## Main results

* `Operator.fits_compare_iff` — that is what it says of their order.
* `Rule.stockQuantity_exact` — rules about the stock compare integers.
-/

namespace ProductSegments

namespace Operator

/-- What an operator says of two integers, the first of which is the one of the product. -/
def Relates : Operator → Int → Int → Prop
  | eq, q, m => q = m
  | neq, q, m => q ≠ m
  | gt, q, m => q > m
  | gte, q, m => q ≥ m
  | lt, q, m => q < m
  | lte, q, m => q ≤ m
  | other _, _, _ => False

instance : ∀ (op : Operator) (q m : Int), Decidable (op.Relates q m)
  | eq, q, m => inferInstanceAs (Decidable (q = m))
  | neq, q, m => inferInstanceAs (Decidable (q ≠ m))
  | gt, q, m => inferInstanceAs (Decidable (q > m))
  | gte, q, m => inferInstanceAs (Decidable (q ≥ m))
  | lt, q, m => inferInstanceAs (Decidable (q < m))
  | lte, q, m => inferInstanceAs (Decidable (q ≤ m))
  | other _, _, _ => inferInstanceAs (Decidable False)

/-- An operator says of the order of two integers what it says of the integers. -/
theorem fits_compare_iff (op : Operator) (q m : Int) :
    op.fits (compare q m) = true ↔ op.Relates q m := by
  rcases Int.lt_trichotomy q m with lt | same | gt
  · rw [Int.compare_eq_lt.mpr lt]
    cases op <;> simp [fits, Relates] <;> omega
  · rw [Int.compare_eq_eq.mpr same]
    cases op <;> simp [fits, Relates] <;> omega
  · rw [Int.compare_eq_gt.mpr gt]
    cases op <;> simp [fits, Relates] <;> omega

end Operator

namespace Rule

open Literal (SpellsInteger)

variable {m : Int} {literal : String} {op : Operator}

/-- A literal that spells an integer up to 2⁵³ makes a rule about the stock one about numbers. -/
theorem comparison_asking_stockQuantity (op : Operator) (spelled : SpellsInteger m literal.toList)
    (small : m.natAbs ≤ twoPow 53) : (asking .stockQuantity op literal).comparison = .numeric := by
  have number : (Literal.value literal.toList).isNaN = false := by
    have place := Literal.place?_value spelled small
    cases hx : Literal.value literal.toList with
    | nan =>
      rw [hx] at place
      cases place
    | _ => rfl
  exact comparison_asking_iff.mpr ⟨rfl, number⟩

/-- **Rules about the stock compare integers.**  Let a literal spell an integer up to 2⁵³ in
magnitude, in whichever way.  The rule that compares the quantity with it is satisfied by a product
with a quantity up to 2⁵³ exactly if the operator relates the two integers, and by no product
without a quantity. -/
theorem stockQuantity_exact (hop : op ∈ Operator.all) (small : m.natAbs ≤ twoPow 53)
    (spelled : SpellsInteger m literal.toList) (p : Product) :
    (∀ q, p.stockQuantity = some q → q.toInt.natAbs ≤ twoPow 53 →
      ((ofLine (line .stockQuantity op literal)).holds p = true ↔ op.Relates q.toInt m)) ∧
    (p.stockQuantity = none → (ofLine (line .stockQuantity op literal)).holds p = false) := by
  have read := ofLine_line (f := .stockQuantity) (by decide) hop spelled.isWord
  have kind := comparison_asking_stockQuantity op spelled small
  obtain ⟨test, htest⟩ := Operator.exists_onNumbers? hop
  rw [read, holds_of_numeric rfl kind rfl htest]
  constructor
  · intro q hq bounded
    have order := Literal.compare?_value bounded small spelled
    rw [hq, ← Operator.fits_compare_iff, ← Operator.apply_eq_fits htest order]
    rfl
  · intro lacking
    rw [lacking]
    rfl

/-- The greatest quantity that is exact, spelled with a radix marker, and a product without one. -/
theorem stockQuantity_exact_bound :
    let stocked (q : Option Int64) : Product :=
      ⟨7, "Mug", .ofNat 5, "instock", q, "Kitchen", [], true, none, none⟩
    let line := line .stockQuantity .gte "0X0020000000000000"
    line = "stock_quantity >= 0X0020000000000000" ∧
      SpellsInteger 9007199254740992 "0X0020000000000000".toList ∧
      Int.natAbs 9007199254740992 ≤ twoPow 53 ∧
      (ofLine line).holds (stocked (some 9007199254740992)) = true ∧
      (ofLine line).holds (stocked (some 9007199254740991)) = false ∧
      (ofLine line).holds (stocked none) = false := by
  intro stocked line
  have spelled : SpellsInteger 9007199254740992 "0X0020000000000000".toList :=
    .prefixed (b := .hexadecimal) (n := 9007199254740992)
      (@Literal.Spells.digits .hexadecimal _ 'X' 2 "20000000000000".toList (by decide) (by decide +kernel))
  have small : Int.natAbs 9007199254740992 ≤ twoPow 53 := by decide
  have hop : Operator.gte ∈ Operator.all := by decide
  have exact (q : Option Int64) := stockQuantity_exact hop small spelled (stocked q)
  refine ⟨by decide, spelled, small, ?_, ?_, (exact none).2 rfl⟩
  · exact ((exact (some 9007199254740992)).1 _ rfl (by decide)).mpr (by decide)
  · rw [Bool.eq_false_iff, Ne, (exact (some 9007199254740991)).1 _ rfl (by decide)]
    decide

end Rule

end ProductSegments

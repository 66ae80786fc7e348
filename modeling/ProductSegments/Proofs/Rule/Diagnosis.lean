import ProductSegments.Proofs.Rule.Strictness
import ProductSegments.Rule.Condition

/-!
# Faults and conditions

The strict reading of a line and the condition that its lenient reading stands for are worked out
apart from each other.  A line in which the strict reading finds a fault is one whose rule no
product satisfies.

## Main results

* `Rule.ofLine_eq_of_ofLine?` — both readings give the same rule where the strict one gives any.
* `Rule.not_holds_of_check` — an operator that means nothing is satisfied by no product.
* `Rule.not_holds_of_diagnose` — nor is a rule with any other fault.
-/

namespace ProductSegments.Rule

/-! ### The two readings -/

theorem not_holds_of_not_isValid {r : Rule} (h : r.isValid = false) (p : Product) :
    r.holds p = false := by
  rw [holds, h, Bool.false_and]

/-- Where the strict reading gives a rule, the lenient one gives the same. -/
theorem ofLine_eq_of_ofLine? {line : String} {r : Rule} (h : ofLine? line = .ok r) :
    ofLine line = r :=
  (ofLine?_eq_ok_iff.mp h).2.symm

/-- A line that the strict reading refuses is read leniently as a rule that is satisfied by no
product: one with too few tokens, or with an unknown field. -/
theorem not_holds_of_ofLine? {line : String} {fault : Fault} (h : ofLine? line = .error fault)
    (p : Product) : (ofLine line).holds p = false :=
  not_holds_of_not_isValid (not_isValid_of_ofLine? h) p

/-! ### Operators without a meaning -/

/-- A rule whose operator means nothing for its kind of comparison is satisfied by no product. -/
theorem not_holds_of_not_supports {r : Rule} (h : r.comparison.supports r.operator = false)
    (p : Product) : r.holds p = false := by
  unfold holds
  cases hv : p.value? r.field with
  | none => simp
  | some value =>
    cases hc : r.comparison with
    | numeric =>
      rw [hc] at h
      have hop : r.operator.onNumbers? = none := by simpa [Comparison.supports] using h
      simp [hop]
    | textual =>
      rw [hc] at h
      have hop : r.operator.onTexts? = none := by simpa [Comparison.supports] using h
      simp [hop]

theorem not_holds_of_check {r : Rule} {fault : Fault} (h : r.check = .error fault)
    (p : Product) : r.holds p = false := by
  refine not_holds_of_not_supports ?_ p
  unfold check at h
  split at h
  · cases h
  · next hs => simpa using hs

/-! ### All faults -/

/-- A fault of a line is one of its tokens or one of the operator of its rule. -/
theorem diagnose_eq_error_iff {line : String} {fault : Fault} :
    diagnose line = .error fault ↔
      ofLine? line = .error fault ∨ ∃ r, ofLine? line = .ok r ∧ r.check = .error fault := by
  unfold diagnose
  cases hr : ofLine? line with
  | error e => simp [bind, Except.bind]
  | ok r => cases hc : r.check <;> simp [bind, Except.bind, pure, Except.pure, hc]

/-- **A line with a fault matches nothing at all**: its rule is satisfied by no product, in
whatever catalog. -/
theorem not_holds_of_diagnose {line : String} {fault : Fault} (h : diagnose line = .error fault)
    (p : Product) : (ofLine line).holds p = false := by
  rcases diagnose_eq_error_iff.mp h with h | ⟨r, hr, hc⟩
  · exact not_holds_of_ofLine? h p
  · rw [ofLine_eq_of_ofLine? hr]
    exact not_holds_of_check hc p

end ProductSegments.Rule

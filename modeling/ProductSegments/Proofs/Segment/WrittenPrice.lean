import ProductSegments.Proofs.Number.RoundTrip
import ProductSegments.Proofs.Rule.Comparison
import ProductSegments.Proofs.Segment.Selection

/-!
# Written prices

A number that the layout of rule values has written can stand in a rule: the canonical line of such a
rule is read as that rule, and the number compares as the one that was written.  So the line that
asks for a price has the products with that price for its segment.

## Main definitions

* `Rule.written` — the rule that compares a field with a written number.

## Main results

* `Rule.diagnose_text_written` — its line is read as that rule, and without a fault.
* `Rule.holds_written` — whether a product satisfies it.
* `Segment.select_written_price` — what is written for a price is read as that price, and the line
  with it selects the products with that price.
-/

namespace ProductSegments

/-! ### The line of a rule -/

namespace Rule

/-- The rule that compares a field with a written number. -/
def written (f : Field) (op : Operator) (x : Binary64) : Rule :=
  ⟨f, op, Layout.rule.text x, true, true, x.dropZeroSign⟩

variable {f : Field} {op : Operator} {x : Binary64}

theorem text_written_price (x : Binary64) :
    (written .price .eq x).text = "price = " ++ Layout.rule.text x := by
  have hfront : Field.price.name ++ " " ++ Operator.eq.symbol ++ " " = "price = " := by decide
  rw [← hfront]
  rfl

theorem isWord_text (h : x.isNaN = false) : Text.IsWord (Layout.rule.text x) := by
  constructor
  · rw [Layout.text, String.toList_ofList]
    exact Literal.chars_rule_ne_nil h
  · rw [Layout.text, String.toList_ofList]
    exact Literal.unbroken_chars_rule h

/-- The rule that asks for a written number is the one that it is written for. -/
theorem asking_text (hf : f.isNumeric = true) (h : x.isNaN = false) :
    asking f op (Layout.rule.text x) = written f op x := by
  have hnumber : Literal.value (Layout.rule.text x).toList = x.dropZeroSign := by
    rw [Layout.text, String.toList_ofList, Literal.value_chars_rule h]
  simp [asking, written, hf, hnumber, h]

/-- **The line of a written number is read as the rule that it is written for.** -/
theorem ofLine_text_written (hf : f.isNumeric = true) (hop : op.onNumbers?.isSome = true)
    (h : x.isNaN = false) : ofLine (written f op x).text = written f op x := by
  have known : f ≠ .unknown := by
    rintro rfl
    cases hf
  have read := ofLine_line known (Operator.isSome_onNumbers?_iff.mp hop) (isWord_text h)
  rw [asking_text hf h] at read
  exact read

/-- **Its line has no fault.** -/
theorem diagnose_text_written (hf : f.isNumeric = true) (hop : op.onNumbers?.isSome = true)
    (h : x.isNaN = false) : diagnose (written f op x).text = .ok (written f op x) := by
  have hread : ofLine? (written f op x).text = .ok (written f op x) := by
    rw [ofLine?_eq_ok_iff, ofLine_text_written hf hop h]
    exact ⟨rfl, rfl⟩
  have hcheck : (written f op x).check = .ok () := by
    have hkind : (written f op x).comparison = .numeric := comparison_eq_numeric_iff.mpr ⟨rfl, hf⟩
    rw [check, hkind]
    exact if_pos hop
  rw [diagnose, hread]
  simp [bind, Except.bind, hcheck, pure, Except.pure]

/-- **A product satisfies the rule if its price compares so with the number that was written.** -/
theorem holds_written {test : Binary64 → Binary64 → Bool} (hop : op.onNumbers? = some test)
    (p : Product) : (written .price op x).holds p = test p.price x := by
  have hsign : test p.price x.dropZeroSign = test p.price x := by
    cases op <;> cases hop <;> simp only [Binary64.compare?_dropZeroSign_right]
  have numeric : (written .price op x).comparison = .numeric := rfl
  rw [← hsign, holds_of_numeric rfl numeric rfl hop]
  rfl

end Rule

/-! ### Its segment -/

namespace Segment

/-- **A written price selects the products with that price.**  What is written for a number is read as
that number, the negative zero as zero.  The line that asks for it as a price is a valid numeric rule
without a fault, and its segment is the products whose price is numerically equal, in whichever way
the segment is worked out. -/
theorem select_written_price (products : List Product) {p : Binary64} (h : p.isNaN = false) :
    (Literal.value (Layout.rule.chars p)).compare? p = some .eq ∧
    ((∀ exact, p ≠ .finite true 0 exact) → Literal.value (Layout.rule.chars p) = p) ∧
    (∀ exact, p = .finite true 0 exact → Literal.value (Layout.rule.chars p) = .zero) ∧
    let line := "price = " ++ Layout.rule.text p
    let chosen := products.filter fun q => q.price.compare? p = some .eq
    (Rule.ofLine line).isValid = true ∧ (Rule.ofLine line).isNumeric = true ∧
    Rule.diagnose line = .ok (Rule.ofLine line) ∧
    (∀ q : Product, (Rule.ofLine line).holds q = true ↔ q.price.compare? p = some .eq) ∧
    select products [line] = chosen ∧ select? products [line] = .ok chosen ∧
    ∀ traced, (report traced products [line]).products = chosen := by
  have hvalue := Literal.value_chars_rule h
  have hdiagnose : Rule.diagnose ("price = " ++ Layout.rule.text p) = .ok (.written .price .eq p) :=
    Rule.text_written_price p ▸ Rule.diagnose_text_written rfl rfl h
  have hread : Rule.ofLine ("price = " ++ Layout.rule.text p) = .written .price .eq p :=
    Rule.text_written_price p ▸ Rule.ofLine_text_written rfl rfl h
  have hop : Operator.eq.onNumbers? = some fun a b => decide (a.compare? b = some .eq) := rfl
  have hmatching : matching products ["price = " ++ Layout.rule.text p]
      = products.filter fun q => q.price.compare? p = some .eq := by
    rw [matching_singleton, hread]
    exact List.filter_congr fun q _ => Rule.holds_written hop q
  have hstrict : select? products ["price = " ++ Layout.rule.text p]
      = .ok (matching products ["price = " ++ Layout.rule.text p]) :=
    select?_eq_ok (fun line hline => ⟨_, List.mem_singleton.mp hline ▸ hdiagnose⟩) products
  refine ⟨?_, fun hne => ?_, ?_, ?_⟩
  · rw [hvalue, Binary64.compare?_dropZeroSign_left, Binary64.compare?_self h]
  · rw [hvalue, Binary64.dropZeroSign_eq_self hne]
  · rintro exact rfl
    exact hvalue
  · intro line chosen
    refine ⟨?_, ?_, ?_, fun q => ?_, ?_, ?_, fun traced => ?_⟩
    · exact hread ▸ rfl
    · exact hread ▸ rfl
    · rw [hread]
      exact hdiagnose
    · rw [hread, Rule.holds_written hop, decide_eq_true_iff]
    · rw [select_eq_products_report false, products_report]
      exact hmatching
    · rw [hstrict]
      exact congrArg Except.ok hmatching
    · rw [products_report]
      exact hmatching

/-- A price that is written with an exponent. -/
theorem select_written_price_small :
    let priced (x : Binary64) : Product := ⟨1, "", x, "", none, "", [], false, none, none⟩
    let p := Binary64.ofRatio false 15 100000000
    p.isNaN = false ∧ select [priced p, priced (.ofNat 10)] ["price = 1.5e-7"] = [priced p] := by
  intro priced p
  have hp : p.isNaN = false := Binary64.isNaN_ofRatio false 15 100000000
  have hline : "price = " ++ Layout.rule.text p = "price = 1.5e-7" := by decide +kernel
  obtain ⟨-, -, -, -, -, -, -, hselect, -⟩ := select_written_price [priced p, priced (.ofNat 10)] hp
  refine ⟨hp, ?_⟩
  rw [← hline, hselect]
  decide +kernel

end Segment

end ProductSegments

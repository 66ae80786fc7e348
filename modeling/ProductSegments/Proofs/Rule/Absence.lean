import ProductSegments.Proofs.Number.RoundTrip
import ProductSegments.Proofs.Rule.Comparison
import ProductSegments.Proofs.Rule.Strictness

/-!
# Numbers compared as texts

A rule may name a field of numbers and have a value that spells none.  Then texts are compared, on the
side of the product what is written for its number.  Every number is written as a literal, so a value
that is none can only be the text of what is no number: `NaN`, or `null` for a number that is missing.

## Main definitions

* `Rule.SeesAbsence` — the product lacks a number, and the rule has the text that stands for it.

## Main results

* `Rule.text_ne_value` — no number is written as a value that spells none.
* `Rule.asText_price_eq_iff`, `Rule.asText_stockQuantity_eq_iff` — when the two texts are the same.
* `Rule.textual_sees_absence` — what such a rule says, with every operator.
-/

namespace ProductSegments

namespace Binary64

theorem isNaN_ofInt (n : Int) : (ofInt n).isNaN = false := isNaN_ofRatio ..

theorem eq_nan_of_isNaN {x : Binary64} (h : x.isNaN = true) : x = nan := by
  cases x with
  | nan => rfl
  | _ => cases h

end Binary64

namespace Rule

variable {line : String}

/-! ### Values that spell no number -/

/-- What a valid rule knows of its value: whether that is a number of its field. -/
theorem isNumeric_ofLine (known : (ofLine line).field ≠ .unknown) : (ofLine line).isNumeric =
    ((ofLine line).field.isNumeric && !(Literal.value (ofLine line).value.toList).isNaN) := by
  rcases words_cases line with ⟨field, operator, value, others, h⟩ | short
  · rw [ofLine_of_words h] at known ⊢
    unfold ofTokens at known ⊢
    split at known
    · exact absurd rfl known
    · rfl
  · rw [ofLine_of_short short] at known
    exact absurd rfl known

/-- **No number is written as a value that spells none.** -/
theorem text_ne_value {value : String} (notNumber : (Literal.value value.toList).isNaN = true)
    {x : Binary64} (h : x.isNaN = false) : Layout.rule.text x ≠ value := by
  rintro rfl
  rw [Layout.text, String.toList_ofList, Literal.value_chars_rule h, Binary64.isNaN_dropZeroSign,
    h] at notNumber
  cases notNumber

/-! ### What is missing -/

/-- The product lacks the number that a rule is about, and the value of the rule is the text that
stands for that. -/
inductive SeesAbsence (r : Rule) (p : Product) : Prop where
  | price (field : r.field = .price) (lacking : p.price.isNaN = true) (value : r.value = "NaN")
  | stockQuantity (field : r.field = .stockQuantity) (lacking : p.stockQuantity = none)
      (value : r.value = "null")

variable {r : Rule} {p : Product} {v : Value}

/-- A price is written as a value that spells no number only if it is not-a-number. -/
theorem asText_price_eq_iff (field : r.field = .price) (hv : p.value? r.field = some v)
    (notNumber : (Literal.value r.value.toList).isNaN = true) :
    v.asText = r.value ↔ SeesAbsence r p := by
  have hv : v = .number (some p.price) := by
    rw [field] at hv
    exact (Option.some.inj hv).symm
  rw [hv, Value.asText]
  constructor
  · intro same
    cases lacking : p.price.isNaN with
    | true =>
      refine .price field lacking ?_
      rw [← same, Binary64.eq_nan_of_isNaN lacking]
      rfl
    | false => exact absurd same (text_ne_value notNumber lacking)
  · intro sees
    cases sees with
    | price _ lacking value =>
      rw [value, Binary64.eq_nan_of_isNaN lacking]
      rfl
    | stockQuantity field' =>
      rw [field] at field'
      cases field'

/-- A quantity is written as such a value only if it is missing. -/
theorem asText_stockQuantity_eq_iff (field : r.field = .stockQuantity)
    (hv : p.value? r.field = some v) (notNumber : (Literal.value r.value.toList).isNaN = true) :
    v.asText = r.value ↔ SeesAbsence r p := by
  have hv : v = .number (p.stockQuantity.map fun q => .ofInt q.toInt) := by
    rw [field] at hv
    exact (Option.some.inj hv).symm
  rw [hv]
  constructor
  · intro same
    cases hq : p.stockQuantity with
    | none =>
      rw [hq] at same
      exact .stockQuantity field hq same.symm
    | some q =>
      rw [hq, Option.map_some, Value.asText] at same
      exact absurd same (text_ne_value notNumber (Binary64.isNaN_ofInt q.toInt))
  · intro sees
    cases sees with
    | price field' =>
      rw [field] at field'
      cases field'
    | stockQuantity _ lacking value =>
      rw [lacking, value]
      rfl

/-! ### Rules about numbers that compare texts -/

/-- **A rule about a number whose value spells none sees only that the number is missing.**  With
`=` it is satisfied by the products whose price is not-a-number, if its value is `NaN`, or whose
quantity is missing, if its value is `null`; with `!=` by all other products, and with any other
operator by none.  No number is written as its value, neither a price nor a quantity nor any other. -/
theorem textual_sees_absence (line : String) (p : Product)
    (hf : (ofLine line).field = .price ∨ (ofLine line).field = .stockQuantity)
    (textual : (ofLine line).isNumeric = false) :
    ((ofLine line).operator = .eq → ((ofLine line).holds p = true ↔ SeesAbsence (ofLine line) p)) ∧
    ((ofLine line).operator = .neq →
      ((ofLine line).holds p = true ↔ ¬SeesAbsence (ofLine line) p)) ∧
    ((ofLine line).operator ≠ .eq → (ofLine line).operator ≠ .neq →
      (ofLine line).holds p = false) ∧
    ∀ x : Binary64, x.isNaN = false → Layout.rule.text x ≠ (ofLine line).value := by
  have known : (ofLine line).field ≠ .unknown := by
    rcases hf with field | field <;> simp [field]
  have numbers : (ofLine line).field.isNumeric = true := by
    rcases hf with field | field <;> simp [field, Field.isNumeric]
  have notNumber : (Literal.value (ofLine line).value.toList).isNaN = true := by
    simpa [isNumeric_ofLine known, numbers] using textual
  obtain ⟨v, hv⟩ := p.exists_value? known
  have same : v.asText = (ofLine line).value ↔ SeesAbsence (ofLine line) p := by
    rcases hf with field | field
    · exact asText_price_eq_iff field hv notNumber
    · exact asText_stockQuantity_eq_iff field hv notNumber
  have kind : (ofLine line).comparison = .textual := by
    rw [comparison_eq_textual_iff, Ne, comparison_eq_numeric_iff, textual]
    rintro ⟨numeric, -⟩
    cases numeric
  have compared := holds_of_textual ((isRead_ofLine line).isValid_iff.mpr known) kind hv
  rw [compared, ← same]
  refine ⟨?_, ?_, ?_, ?_⟩
  · intro hop
    simp [hop, Operator.onTexts?]
  · intro hop
    simp [hop, Operator.onTexts?]
  · intro ne_eq ne_neq
    cases hop : (ofLine line).operator with
    | eq => exact absurd hop ne_eq
    | neq => exact absurd hop ne_neq
    | _ => rfl
  · intro x hx
    exact text_ne_value notNumber hx

/-- A price that is not-a-number, and one that is a number. -/
theorem textual_sees_absence_unpriced :
    let product (price : Binary64) : Product :=
      ⟨7, "Mug", price, "instock", none, "Kitchen", [], true, none, none⟩
    let line := "price = NaN"
    ((ofLine line).field = .price ∧ (ofLine line).isNumeric = false ∧ (ofLine line).operator = .eq) ∧
      (ofLine line).holds (product .nan) = true ∧ (ofLine line).holds (product (.ofNat 5)) = false ∧
      Layout.rule.text (.ofNat 5) ≠ "NaN" := by
  intro product line
  have field : (ofLine line).field = .price := by decide +kernel
  have textual : (ofLine line).isNumeric = false := by decide +kernel
  have operator : (ofLine line).operator = .eq := by decide +kernel
  have value : (ofLine line).value = "NaN" := by decide +kernel
  obtain ⟨unpriced, -, -, -⟩ := textual_sees_absence line (product .nan) (.inl field) textual
  obtain ⟨priced, -, -, never⟩ := textual_sees_absence line (product (.ofNat 5)) (.inl field) textual
  refine ⟨⟨field, textual, operator⟩, (unpriced operator).mpr (.price field rfl value), ?_, ?_⟩
  · rw [Bool.eq_false_iff, Ne, priced operator]
    intro sees
    cases sees with
    | price _ lacking _ => exact absurd lacking (by decide +kernel)
    | stockQuantity field' => exact absurd (field.symm.trans field') (by decide)
  · rw [← value]
    exact never _ (Binary64.isNaN_ofNat 5)

end Rule

end ProductSegments

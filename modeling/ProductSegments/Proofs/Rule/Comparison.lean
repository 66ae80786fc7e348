import ProductSegments.Proofs.Rule.Reading
import ProductSegments.Rule.Condition

/-!
# What a rule compares

A valid rule compares a number of the product with the number that its value spells, or else a text of
the product with its value as it is written.  Which of the two it does is settled by the field and
the value, before there is a product; for the product nothing is left but an order of two numbers, or
whether two texts are the same.

## Main definitions

* `Rule.line` — the line that asks for a field, an operator and a value.
* `Rule.asking` — the rule on that line.
* `Operator.fits` — what an operator says of two values by their order.

## Main results

* `Rule.ofLine_line` — the line is read as that rule.
* `Rule.holds_of_numeric`, `Rule.holds_of_textual` — the two comparisons of a valid rule.
* `Operator.apply_eq_fits` — numbers are compared by their order alone.
-/

namespace ProductSegments

open Text (words IsWord)

/-! ### Operators and orders -/

namespace Operator

variable {op : Operator}

/-- What an operator says of two values by their order, the value of the product being the first. -/
def fits : Operator → Ordering → Bool
  | eq, o => o.isEq
  | neq, o => o.isNe
  | gt, o => o.isGT
  | gte, o => o.isGE
  | lt, o => o.isLT
  | lte, o => o.isLE
  | other _, _ => false

/-- The operators have a meaning for numbers, and nothing else has. -/
theorem isSome_onNumbers?_iff : op.onNumbers?.isSome = true ↔ op ∈ all := by
  cases op <;> simp [onNumbers?, all]

theorem exists_onNumbers? (hop : op ∈ all) : ∃ test, op.onNumbers? = some test :=
  Option.isSome_iff_exists.mp (isSome_onNumbers?_iff.mpr hop)

/-- **Numbers are compared by their order alone.** -/
theorem apply_eq_fits {test : Binary64 → Binary64 → Bool} (hop : op.onNumbers? = some test)
    {a b : Binary64} {o : Ordering} (h : a.compare? b = some o) : test a b = op.fits o := by
  cases op <;> cases hop <;> cases o <;> simp [h, fits]

theorem isWord_symbol (hop : op ∈ all) : IsWord op.symbol := by
  have words : ∀ op ∈ all, op.symbol.toList ≠ [] ∧ Text.Unbroken op.symbol.toList := by decide
  obtain ⟨ne_nil, unbroken⟩ := words op hop
  exact ⟨ne_nil, unbroken⟩

theorem ofToken_symbol (hop : op ∈ all) : ofToken op.symbol = op := by
  have tokens : ∀ op ∈ all, ofToken op.symbol = op := by decide
  exact tokens op hop

end Operator

theorem Binary64.exists_place? {a : Binary64} (h : a.isNaN = false) : ∃ x, a.place? = some x := by
  cases a with
  | nan => cases h
  | _ => exact ⟨_, rfl⟩

/-- Numbers have an order. -/
theorem Binary64.exists_compare? {a b : Binary64} (ha : a.isNaN = false) (hb : b.isNaN = false) :
    ∃ o, a.compare? b = some o := by
  obtain ⟨x, hx⟩ := exists_place? ha
  obtain ⟨y, hy⟩ := exists_place? hb
  exact ⟨compare x y, by simp [compare?, hx, hy]⟩

/-! ### What a product has -/

theorem Product.exists_value? (p : Product) {f : Field} (known : f ≠ .unknown) :
    ∃ value, p.value? f = some value := by
  cases f with
  | unknown => exact absurd rfl known
  | _ => exact ⟨_, rfl⟩

namespace Rule

/-! ### The line of a rule -/

variable {f : Field} {op : Operator} {value : String}

/-- The line that asks for a field, an operator and a value. -/
def line (f : Field) (op : Operator) (value : String) : String :=
  f.name ++ " " ++ op.symbol ++ " " ++ value

/-- The rule that compares a field with a value. -/
def asking (f : Field) (op : Operator) (value : String) : Rule :=
  let number := Literal.value value.toList
  ⟨f, op, value, true, f.isNumeric && !number.isNaN, number⟩

theorem words_line (f : Field) (hop : op ∈ Operator.all) (hv : IsWord value) :
    words (line f op value) = [f.name, op.symbol, value] :=
  Text.words_spaced (isWord_name f) (Operator.isWord_symbol hop) hv

theorem ofTokens_name (known : f ≠ .unknown) (hop : op ∈ Operator.all) (value : String) :
    ofTokens f.name op.symbol value = asking f op value := by
  unfold ofTokens
  rw [Field.ofName_name, Operator.ofToken_symbol hop]
  cases f with
  | unknown => exact absurd rfl known
  | _ => rfl

/-- **The line is read as the rule that it asks for.** -/
theorem ofLine_line (known : f ≠ .unknown) (hop : op ∈ Operator.all) (hv : IsWord value) :
    ofLine (line f op value) = asking f op value := by
  rw [ofLine, words_line f hop hv]
  exact ofTokens_name known hop value

/-! ### The two comparisons -/

variable {r : Rule} {p : Product}

theorem comparison_eq_numeric_iff :
    r.comparison = .numeric ↔ r.isNumeric = true ∧ r.field.isNumeric = true := by
  rw [comparison]
  split
  · next numeric => simpa using numeric
  · next textual => simpa using textual

theorem comparison_eq_textual_iff : r.comparison = .textual ↔ r.comparison ≠ .numeric := by
  cases r.comparison <;> decide

/-- **A rule about numbers** compares the number of the product, if that is there. -/
theorem holds_of_numeric (valid : r.isValid = true) (kind : r.comparison = .numeric)
    {n : Option Binary64} (hv : p.value? r.field = some (.number n))
    {test : Binary64 → Binary64 → Bool} (hop : r.operator.onNumbers? = some test) :
    r.holds p = n.any (test · r.number) := by
  cases n <;> simp [holds, valid, hv, kind, hop, Value.number?]

/-- **A rule about texts** compares whatever the product has as a text. -/
theorem holds_of_textual (valid : r.isValid = true) (kind : r.comparison = .textual) {v : Value}
    (hv : p.value? r.field = some v) :
    r.holds p = r.operator.onTexts?.any (· v.asText r.value) := by
  cases hop : r.operator.onTexts? <;> simp [holds, valid, hv, kind, hop]

/-- The rule that a line asks for compares numbers if the field has them and the value spells one. -/
theorem comparison_asking_iff : (asking f op value).comparison = .numeric ↔
    f.isNumeric = true ∧ (Literal.value value.toList).isNaN = false := by
  rw [comparison_eq_numeric_iff]
  cases hf : f.isNumeric <;> simp [asking, hf]

end Rule

end ProductSegments

import ProductSegments.Proofs.Rule.Comparison
import ProductSegments.Proofs.Rule.Diagnosis

/-!
# Rules of any make

Not every rule comes from a line.  One that is put together by hand may be valid and have no field,
claim a number for a field that holds a text, have a token that is written like an operator and is
none, or ask for a number that is not-a-number.  Whether a product satisfies such a rule is said here
by the parts of the rule: which of them decide the kind of comparison, which operators that kind has,
and which operand is compared.

## Main definitions

* `Operator.fits?` — what an operator says of two numbers that may have no order.
* `Rule.Meets` — what a product has stands to the operand of a rule as the operator says.
* `Rule.Sound` — the parts of a rule do not get in each other's way.

## Main results

* `Rule.isValid_of_holds`, `Rule.known_of_holds`, `Rule.supports_of_holds` — what a rule that a
  product satisfies is like.
* `Rule.holds_iff` — **which products satisfy a rule**, whatever the rule is like.
* `Rule.check_eq_ok_iff` — which rules pass the check of their operator.
* `Rule.Meets.with_value`, `Rule.Meets.with_number` — the operand that is not compared may be any.
* `Rule.sound` — every rule is sound.
-/

namespace ProductSegments

namespace Operator

/-- What an operator says of two numbers by their order.  Numbers without an order are unequal, and
nothing else is said of them. -/
def fits? (op : Operator) : Option Ordering → Bool
  | some o => op.fits o
  | none => op = .neq

/-- **An operator says of two numbers what it says of their order**, also if there is none. -/
theorem apply_eq_fits? {op : Operator} {test : Binary64 → Binary64 → Bool}
    (hop : op.onNumbers? = some test) (a b : Binary64) : test a b = op.fits? (a.compare? b) := by
  cases order : a.compare? b with
  | some o => exact apply_eq_fits hop order
  | none => cases op <;> cases hop <;> simp [order, fits?]

/-- What says something of two numbers has a meaning for numbers. -/
theorem mem_all_of_fits? {op : Operator} {o? : Option Ordering} (h : op.fits? o? = true) :
    op ∈ all := by
  cases op with
  | other token => cases o? <;> simp [fits?, fits] at h
  | _ => decide

end Operator

/-- A field that holds a number has a number or lacks it. -/
theorem Product.exists_number? (p : Product) {f : Field} (numeric : f.isNumeric = true) :
    ∃ n, p.value? f = some (.number n) := by
  cases f with
  | price => exact ⟨_, rfl⟩
  | stockQuantity => exact ⟨_, rfl⟩
  | _ => cases numeric

namespace Rule

variable {r : Rule} {p : Product}

/-! ### What satisfies a rule -/

/-- Only valid rules are satisfied. -/
theorem isValid_of_holds (h : r.holds p = true) : r.isValid = true := by
  cases valid : r.isValid with
  | true => rfl
  | false => cases (not_holds_of_not_isValid valid p).symm.trans h

/-- Only rules whose operator means something for their kind of comparison are satisfied. -/
theorem supports_of_holds (h : r.holds p = true) : r.comparison.supports r.operator = true := by
  cases supports : r.comparison.supports r.operator with
  | true => rfl
  | false => cases (not_holds_of_not_supports supports p).symm.trans h

/-- Only rules with a field are satisfied. -/
theorem known_of_holds (h : r.holds p = true) : r.field ≠ .unknown := by
  intro unknown
  have lacks : p.value? r.field = none := by
    rw [unknown]
    rfl
  rw [holds, lacks, Bool.and_false] at h
  cases h

/-- What a product has stands to the operand of a rule as the operator says, by the kind of
comparison. -/
inductive Meets (r : Rule) (p : Product) : Prop where
  /-- The number of the product stands so to the number of the rule. -/
  | number {n : Binary64} (kind : r.comparison = .numeric)
      (has : p.value? r.field = some (.number (some n)))
      (fits : r.operator.fits? (n.compare? r.number) = true)
  /-- The text of the product is to be the value of the rule, and it is. -/
  | same {v : Value} (kind : r.comparison = .textual) (has : p.value? r.field = some v)
      (operator : r.operator = .eq) (text : v.asText = r.value)
  /-- It is to be another text, and it is. -/
  | different {v : Value} (kind : r.comparison = .textual) (has : p.value? r.field = some v)
      (operator : r.operator = .neq) (text : v.asText ≠ r.value)

theorem meets_of_holds (h : r.holds p = true) : r.Meets p := by
  have valid := isValid_of_holds h
  have supports := supports_of_holds h
  cases kind : r.comparison with
  | numeric =>
    rw [kind] at supports
    obtain ⟨test, hop⟩ := Option.isSome_iff_exists.mp supports
    obtain ⟨n?, has⟩ := p.exists_number? (comparison_eq_numeric_iff.mp kind).2
    rw [holds_of_numeric valid kind has hop, Option.any_eq_true] at h
    obtain ⟨n, rfl, fits⟩ := h
    rw [Operator.apply_eq_fits? hop] at fits
    exact .number kind has fits
  | textual =>
    obtain ⟨v, has⟩ := p.exists_value? (known_of_holds h)
    rw [holds_of_textual valid kind has] at h
    cases operator : r.operator with
    | eq =>
      rw [operator] at h
      exact .same kind has operator (of_decide_eq_true h)
    | neq =>
      rw [operator] at h
      exact .different kind has operator (of_decide_eq_true h)
    | _ =>
      rw [operator] at h
      cases h

theorem Meets.holds (meets : r.Meets p) (valid : r.isValid = true) : r.holds p = true := by
  cases meets with
  | number kind has fits =>
    obtain ⟨test, hop⟩ := Operator.exists_onNumbers? (Operator.mem_all_of_fits? fits)
    rw [holds_of_numeric valid kind has hop, Option.any_some, Operator.apply_eq_fits? hop]
    exact fits
  | same kind has operator text =>
    rw [holds_of_textual valid kind has, operator]
    exact decide_eq_true text
  | different kind has operator text =>
    rw [holds_of_textual valid kind has, operator]
    exact decide_eq_true text

/-- **Which products satisfy a rule**: the rule is valid and they meet it. -/
theorem holds_iff : r.holds p = true ↔ r.isValid = true ∧ r.Meets p :=
  ⟨fun h => ⟨isValid_of_holds h, meets_of_holds h⟩, fun h => h.2.holds h.1⟩

/-! ### The check of the operator -/

/-- A rule passes the check if its operator means something for its kind of comparison. -/
theorem check_eq_ok_iff : r.check = .ok () ↔ r.comparison.supports r.operator = true := by
  unfold check
  constructor
  · intro h
    split at h
    · next supports => exact supports
    · split at h <;> cases h
  · intro supports
    rw [if_pos supports]

/-! ### Operands -/

/-- A rule about numbers is met whatever its value is. -/
theorem Meets.with_value (kind : r.comparison = .numeric) (h : r.Meets p) (value : String) :
    { r with value }.Meets p := by
  cases h with
  | number _ has fits => exact .number kind has fits
  | same textual _ _ _ => cases kind.symm.trans textual
  | different textual _ _ _ => cases kind.symm.trans textual

/-- A rule about texts is met whatever its number is. -/
theorem Meets.with_number (kind : r.comparison = .textual) (h : r.Meets p) (number : Binary64) :
    { r with number }.Meets p := by
  cases h with
  | number numeric _ _ => cases kind.symm.trans numeric
  | same _ has operator text => exact .same kind has operator text
  | different _ has operator text => exact .different kind has operator text

/-! ### Soundness -/

/-- The parts of a rule do not get in each other's way. -/
structure Sound (r : Rule) : Prop where
  /-- The products that satisfy it are those that meet it, if it is valid. -/
  exact : ∀ p, r.holds p = true ↔ r.isValid = true ∧ r.Meets p
  /-- If there are any, it has a field, and its operator means something for the comparison. -/
  able : ∀ p, r.holds p = true →
    r.isValid = true ∧ r.field ≠ .unknown ∧ r.comparison.supports r.operator = true
  /-- That the operator does is what is checked. -/
  checked : r.check = .ok () ↔ r.comparison.supports r.operator = true
  /-- With a fault it is satisfied by no product. -/
  faulty : ∀ fault, r.check = .error fault → ∀ p, r.holds p = false
  /-- A rule about numbers does not look at its value. -/
  numeric : r.comparison = .numeric → ∀ value p, { r with value }.holds p = r.holds p
  /-- A rule about texts does not look at its number. -/
  textual : r.comparison = .textual → ∀ number p, { r with number }.holds p = r.holds p

/-- **Every rule is sound**, however it has been made. -/
theorem sound (r : Rule) : r.Sound where
  exact := fun p => holds_iff
  able := fun p h => ⟨isValid_of_holds h, known_of_holds h, supports_of_holds h⟩
  checked := check_eq_ok_iff
  faulty := fun fault h => not_holds_of_check h
  numeric := by
    intro kind value p
    rw [Bool.eq_iff_iff, holds_iff, holds_iff]
    -- with its own value back it is the rule as it was
    exact and_congr_right fun _ =>
      ⟨fun h => Meets.with_value (r := { r with value }) kind h r.value,
        fun h => h.with_value kind value⟩
  textual := by
    intro kind number p
    rw [Bool.eq_iff_iff, holds_iff, holds_iff]
    exact and_congr_right fun _ =>
      ⟨fun h => Meets.with_number (r := { r with number }) kind h r.number,
        fun h => h.with_number kind number⟩

/-- Rules that no line spells, and a product with a price: a valid rule without a field, a token that
is written like an operator, a number that is not-a-number, and a text that is said to be one. -/
theorem sound_handmade :
    let mug : Product := ⟨7, "Mug", .ofNat 5, "instock", none, "Kitchen", [], true, none, none⟩
    let fieldless : Rule := ⟨.unknown, .neq, "5", true, true, .ofNat 4⟩
    let lookalike : Rule := ⟨.price, .other "=", "5", true, true, .ofNat 5⟩
    let unequal : Rule := ⟨.price, .neq, "5", true, true, .nan⟩
    let titled : Rule := ⟨.title, .eq, "Mug", true, true, .infinity false⟩
    fieldless.holds mug = false ∧
    (lookalike.check = .error (.unsupportedOperator "=" "numeric") ∧ lookalike.holds mug = false) ∧
    (unequal.comparison = .numeric ∧ unequal.holds mug = true ∧
      { unequal with value := "ten" }.holds mug = true) ∧
    (titled.comparison = .textual ∧ titled.holds mug = true ∧
      { titled with number := .nan }.holds mug = true) := by
  intro mug fieldless lookalike unequal titled
  have fault : lookalike.check = .error (.unsupportedOperator "=" "numeric") := rfl
  have differs : unequal.holds mug = true := by decide +kernel
  have named : titled.holds mug = true := by decide +kernel
  refine ⟨?_, ⟨fault, (sound lookalike).faulty _ fault mug⟩,
    ⟨rfl, differs, ((sound unequal).numeric rfl "ten" mug).trans differs⟩,
    ⟨rfl, named, ((sound titled).textual rfl .nan mug).trans named⟩⟩
  rw [Bool.eq_false_iff]
  intro holds
  exact ((sound fieldless).able mug holds).2.1 rfl

end Rule

end ProductSegments

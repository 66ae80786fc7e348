import Mathlib.Data.List.Perm.Basic
import ProductSegments.Proofs.Number.Literal
import ProductSegments.Proofs.Rule.Comparison
import ProductSegments.Proofs.Segment.Algebra

/-!
# Rules that complement each other

The rules with `=` and `!=` for one field and one value share the catalog out between them, whether they
compare numbers or texts.  Only where a number is missing they do not: as a text it is there, but a
comparison of numbers leaves its product out, whatever the operator.  Among numbers the six
operators are told by the order alone, and a text has no order.

## Main definitions

* `Rule.ComparesNumbers` — the rules for a field and a value compare numbers.
* `Rule.Lacks` — and a product has no number there.

## Main results

* `Rule.holds_neq`, `Rule.not_holds_of_lacks` — the opposite of equality, and where there is none.
* `Rule.holds_line_eq_fits` — numbers are compared by one order for all operators.
* `Rule.existsUnique_holds_line` — so exactly one of `<`, `=` and `>` is satisfied.
* `Segment.filter_append_perm` — two conditions, one of which holds wherever something counts.
* `Segment.select_complementary` — how the segments of the rules for one value lie.
-/

namespace ProductSegments

open Text (IsWord)

/-! ### Operators that exclude each other -/

namespace Operator

/-- Of `<`, `=` and `>` exactly one fits an order. -/
theorem existsUnique_fits (o : Ordering) : ∃! op, op ∈ [lt, eq, gt] ∧ op.fits o = true := by
  have only : ∀ op ∈ [lt, eq, gt], ∀ other ∈ [lt, eq, gt],
      op.fits o = true → other.fits o = true → other = op := by
    cases o <;> decide
  have one : ∃ op ∈ [lt, eq, gt], op.fits o = true := by
    cases o <;> decide
  obtain ⟨op, hop, fits⟩ := one
  refine ⟨op, ⟨hop, fits⟩, ?_⟩
  rintro other ⟨hother, fits'⟩
  exact only op hop other hother fits fits'

/-- The other operators are made of these. -/
theorem fits_or (o : Ordering) :
    (lte.fits o = true ↔ lt.fits o = true ∨ eq.fits o = true) ∧
      (gte.fits o = true ↔ gt.fits o = true ∨ eq.fits o = true) ∧
      (neq.fits o = true ↔ lt.fits o = true ∨ gt.fits o = true) := by
  cases o <;> decide

theorem mem_all_of_mem_strict {op : Operator} (h : op ∈ [lt, eq, gt]) : op ∈ all := by
  have within : ∀ op ∈ [lt, eq, gt], op ∈ all := by decide
  exact within op h

/-- The operators that ask for an order are four of the six. -/
theorem mem_all_of_isOrdering {op : Operator} (h : op.isOrdering = true) : op ∈ all := by
  cases op <;> first | decide | cases h

end Operator

namespace Rule

variable {f : Field} {v : String} {op : Operator} {p : Product}

/-! ### What the rules for a value compare -/

/-- The rules for a field and a value compare numbers: the field has them, and the value is a
literal. -/
def ComparesNumbers (f : Field) (v : String) : Prop :=
  (f = .price ∨ f = .stockQuantity) ∧ Literal.IsLiteral v.toList

theorem isNaN_value_iff (hv : IsWord v) :
    (Literal.value v.toList).isNaN = false ↔ Literal.IsLiteral v.toList := by
  rw [Literal.value, Text.trim_eq_self hv.unbroken]
  exact Literal.isNaN_ofTrimmed_iff _

theorem isNumeric_iff : f.isNumeric = true ↔ f = .price ∨ f = .stockQuantity := by
  cases f <;> decide

theorem comparison_eq_numeric (hv : IsWord v) (numbers : ComparesNumbers f v) :
    (asking f op v).comparison = .numeric := by
  rw [comparison_asking_iff, isNumeric_iff, isNaN_value_iff hv]
  exact numbers

theorem comparison_eq_textual (hv : IsWord v) (texts : ¬ComparesNumbers f v) :
    (asking f op v).comparison = .textual := by
  rw [comparison_eq_textual_iff, Ne, comparison_asking_iff, isNumeric_iff, isNaN_value_iff hv]
  exact texts

/-! ### Equality and its opposite -/

/-- The rules for a field and a value compare numbers, and the product has none there. -/
def Lacks (f : Field) (v : String) (p : Product) : Prop :=
  f = .stockQuantity ∧ Literal.IsLiteral v.toList ∧ p.stockQuantity = none

theorem exists_number_of_not_lacks (numbers : ComparesNumbers f v) (there : ¬Lacks f v p) :
    ∃ x, p.value? f = some (.number (some x)) := by
  obtain ⟨rfl | rfl, literal⟩ := numbers
  · exact ⟨p.price, rfl⟩
  · cases hq : p.stockQuantity with
    | none => exact absurd ⟨rfl, literal, hq⟩ there
    | some q => exact ⟨.ofInt q.toInt, by rw [Product.value?, hq]; rfl⟩

/-- **Inequality is the opposite of equality**, wherever the number that is compared is there. -/
theorem holds_neq (known : f ≠ .unknown) (hv : IsWord v) (there : ¬Lacks f v p) :
    (asking f .neq v).holds p = !(asking f .eq v).holds p := by
  by_cases numbers : ComparesNumbers f v
  · obtain ⟨x, hx⟩ := exists_number_of_not_lacks numbers there
    -- a price that is not-a-number has no order, so it is unequal to whatever the value spells
    rw [holds_of_numeric rfl (comparison_eq_numeric hv numbers) hx rfl,
      holds_of_numeric rfl (comparison_eq_numeric hv numbers) hx rfl]
    exact decide_not
  · obtain ⟨value, hvalue⟩ := p.exists_value? known
    rw [holds_of_textual rfl (comparison_eq_textual hv numbers) hvalue,
      holds_of_textual rfl (comparison_eq_textual hv numbers) hvalue]
    exact decide_not

/-- **A number that is missing satisfies no comparison of numbers.** -/
theorem not_holds_of_lacks (hop : op ∈ Operator.all) (hv : IsWord v) (lacking : Lacks f v p) :
    (asking f op v).holds p = false := by
  obtain ⟨rfl, literal, none⟩ := lacking
  obtain ⟨test, htest⟩ := Operator.exists_onNumbers? hop
  rw [holds_of_numeric rfl (comparison_eq_numeric hv ⟨.inr rfl, literal⟩) rfl htest, none]
  rfl

/-- No product satisfies both. -/
theorem not_holds_neq (known : f ≠ .unknown) (hv : IsWord v)
    (equal : (asking f .eq v).holds p = true) : (asking f .neq v).holds p = false := by
  by_cases lacking : Lacks f v p
  · exact not_holds_of_lacks (by decide) hv lacking
  · rw [holds_neq known hv lacking, equal]
    rfl

/-! ### Orders -/

/-- **Numbers are compared by one order for all operators.** -/
theorem holds_line_eq_fits (hv : IsWord v) (numbers : ComparesNumbers f v) {x : Binary64}
    (hx : p.value? f = some (.number (some x))) (number : x.isNaN = false) :
    ∃ o, ∀ op ∈ Operator.all, (ofLine (line f op v)).holds p = op.fits o := by
  have known : f ≠ .unknown := by
    rintro rfl
    cases hx
  have spelled : (Literal.value v.toList).isNaN = false := (isNaN_value_iff hv).mpr numbers.2
  obtain ⟨o, order⟩ := Binary64.exists_compare? number spelled
  refine ⟨o, ?_⟩
  intro op hop
  obtain ⟨test, htest⟩ := Operator.exists_onNumbers? hop
  rw [ofLine_line known hop hv, holds_of_numeric rfl (comparison_eq_numeric hv numbers) hx htest,
    ← Operator.apply_eq_fits htest order]
  rfl

/-- **Of `<`, `=` and `>` exactly one is satisfied** by a product with a number. -/
theorem existsUnique_holds_line (hv : IsWord v) (numbers : ComparesNumbers f v) {x : Binary64}
    (hx : p.value? f = some (.number (some x))) (number : x.isNaN = false) :
    ∃! op, op ∈ [Operator.lt, .eq, .gt] ∧ (ofLine (line f op v)).holds p = true := by
  obtain ⟨o, told⟩ := holds_line_eq_fits hv numbers hx number
  obtain ⟨op, ⟨hop, fits⟩, only⟩ := Operator.existsUnique_fits o
  refine ⟨op, ⟨hop, ?_⟩, ?_⟩
  · rw [told op (Operator.mem_all_of_mem_strict hop)]
    exact fits
  · rintro other ⟨hother, sat⟩
    rw [told other (Operator.mem_all_of_mem_strict hother)] at sat
    exact only other ⟨hother, sat⟩

/-- **A text has no order.** -/
theorem not_holds_line_of_isOrdering (known : f ≠ .unknown) (hv : IsWord v)
    (texts : ¬ComparesNumbers f v) (ordering : op.isOrdering = true) (p : Product) :
    (ofLine (line f op v)).holds p = false := by
  obtain ⟨value, hvalue⟩ := p.exists_value? known
  rw [ofLine_line known (Operator.mem_all_of_isOrdering ordering) hv,
    holds_of_textual rfl (comparison_eq_textual hv texts) hvalue]
  cases op <;> first | rfl | cases ordering

end Rule

namespace Segment

/-! ### Filters -/

/-- A list is shared out by two conditions of which exactly one holds of whatever counts, and none of
the rest. -/
theorem filter_append_perm {α : Type} {first second counts : α → Bool} (l : List α)
    (opposite : ∀ a, counts a = true → second a = !first a)
    (neither : ∀ a, counts a = false → first a = false ∧ second a = false) :
    (l.filter first ++ l.filter second).Perm (l.filter counts) := by
  have hfirst : l.filter first = (l.filter counts).filter first := by
    rw [List.filter_filter]
    refine List.filter_congr fun a _ => ?_
    cases ha : counts a with
    | true => exact (Bool.and_true _).symm
    | false => rw [(neither a ha).1, Bool.false_and]
  have hsecond : l.filter second = (l.filter counts).filter fun a => !first a := by
    rw [List.filter_filter]
    refine List.filter_congr fun a _ => ?_
    cases ha : counts a with
    | true => rw [opposite a ha, Bool.and_true]
    | false => rw [(neither a ha).2, Bool.and_false]
  rw [hfirst, hsecond]
  exact List.filter_append_perm first (l.filter counts)

/-! ### The rules for one value -/

variable {f : Field} {v : String}

theorem select_line (known : f ≠ .unknown) (hv : IsWord v) {op : Operator} (hop : op ∈ Operator.all)
    (products : List Product) :
    select products [Rule.line f op v] = products.filter (Rule.asking f op v).holds := by
  rw [select_eq, matching_singleton, Rule.ofLine_line known hop hv]

/-- The segments of `=` and `!=` share out the products that do not lack what is compared. -/
theorem select_eq_append_select_neq_perm (known : f ≠ .unknown) (hv : IsWord v)
    {counts : Product → Bool} (hcounts : ∀ p, counts p = true ↔ ¬Rule.Lacks f v p)
    (products : List Product) :
    (select products [Rule.line f .eq v] ++ select products [Rule.line f .neq v]).Perm
      (products.filter counts) := by
  rw [select_line known hv (by decide), select_line known hv (by decide)]
  apply filter_append_perm
  · intro p there
    exact Rule.holds_neq known hv ((hcounts p).mp there)
  · intro p lacking
    have lacks : Rule.Lacks f v p := by
      by_contra there
      exact Bool.eq_false_iff.mp lacking ((hcounts p).mpr there)
    exact ⟨Rule.not_holds_of_lacks (by decide) hv lacks, Rule.not_holds_of_lacks (by decide) hv lacks⟩

/-- No product is in both segments. -/
theorem not_mem_select_neq (known : f ≠ .unknown) (hv : IsWord v) {products : List Product}
    {p : Product} (h : p ∈ select products [Rule.line f .eq v]) :
    p ∉ select products [Rule.line f .neq v] := by
  rw [select_line known hv (by decide), List.mem_filter] at h ⊢
  rintro ⟨-, unequal⟩
  rw [Rule.not_holds_neq known hv h.2] at unequal
  cases unequal

/-- **How the segments of the rules for one value lie.**  For a field and a value the segments of
`=` and `!=` have no product in common, and together they are the catalog; without the products
that lack a quantity, if quantities are compared as numbers.  Where numbers are compared, a
product with a number satisfies exactly one of `<`, `=` and `>`, and the other three operators are what
they are made of.  Where texts are compared, no product satisfies an operator that asks for an
order. -/
theorem select_complementary (allowed : f ∈ Field.allowed) (hv : IsWord v)
    (products : List Product) :
    let segment (op : Operator) := select products [Rule.line f op v]
    let satisfies (op : Operator) (p : Product) := (Rule.ofLine (Rule.line f op v)).holds p = true
    (∀ p ∈ segment .eq, p ∉ segment .neq) ∧
    (f = .stockQuantity ∧ Literal.IsLiteral v.toList →
      (segment .eq ++ segment .neq).Perm (products.filter (·.stockQuantity.isSome))) ∧
    (¬(f = .stockQuantity ∧ Literal.IsLiteral v.toList) →
      (segment .eq ++ segment .neq).Perm products) ∧
    (Rule.ComparesNumbers f v → ∀ (p : Product) (x : Binary64),
      p.value? f = some (.number (some x)) → x.isNaN = false →
        (∃! op, op ∈ [Operator.lt, .eq, .gt] ∧ satisfies op p) ∧
        (satisfies .lte p ↔ satisfies .lt p ∨ satisfies .eq p) ∧
        (satisfies .gte p ↔ satisfies .gt p ∨ satisfies .eq p) ∧
        (satisfies .neq p ↔ satisfies .lt p ∨ satisfies .gt p)) ∧
    (¬Rule.ComparesNumbers f v → ∀ op ∈ [Operator.gt, .gte, .lt, .lte], ∀ p, ¬satisfies op p) := by
  intro segment satisfies
  have known : f ≠ .unknown := (Field.mem_allowed_iff f).mp allowed
  refine ⟨?disjoint, ?counted, ?all, ?numbers, ?texts⟩
  case disjoint =>
    intro p
    exact not_mem_select_neq known hv
  case counted =>
    rintro ⟨rfl, literal⟩
    apply select_eq_append_select_neq_perm known hv
    intro p
    rw [Rule.Lacks, Option.isSome_iff_ne_none]
    tauto
  case all =>
    intro elsewhere
    have everything (p : Product) : true = true ↔ ¬Rule.Lacks f v p := by
      refine iff_of_true rfl ?_
      rintro ⟨quantity, literal, -⟩
      exact elsewhere ⟨quantity, literal⟩
    have shared := select_eq_append_select_neq_perm known hv everything products
    rwa [List.filter_true] at shared
  case numbers =>
    intro numbers p x hx number
    refine ⟨Rule.existsUnique_holds_line hv numbers hx number, ?_⟩
    obtain ⟨o, told⟩ := Rule.holds_line_eq_fits hv numbers hx number
    simp only [satisfies, told .lte (by decide), told .lt (by decide), told .eq (by decide),
      told .gte (by decide), told .gt (by decide), told .neq (by decide)]
    exact Operator.fits_or o
  case texts =>
    intro texts op hop p
    have ordering : op.isOrdering = true := by
      have all : ∀ op ∈ [Operator.gt, .gte, .lt, .lte], op.isOrdering = true := by decide
      exact all op hop
    exact Bool.eq_false_iff.mp (Rule.not_holds_line_of_isOrdering known hv texts ordering p)

/-- Three quantities, one of which is missing, against a number; and against a text, which is what is
missing. -/
theorem select_complementary_quantities :
    let stocked (q : Option Int64) : Product :=
      ⟨7, "Mug", .ofNat 5, "instock", q, "Kitchen", [], true, none, none⟩
    let catalog := [stocked none, stocked (some 3), stocked (some 5)]
    let segment (value : String) (op : Operator) :=
      select catalog [Rule.line .stockQuantity op value]
    Field.stockQuantity ∈ Field.allowed ∧ IsWord "3" ∧ IsWord "null" ∧
      (segment "3" .eq ++ segment "3" .neq).Perm [stocked (some 3), stocked (some 5)] ∧
      (segment "null" .eq ++ segment "null" .neq).Perm catalog ∧
      (∃! op, op ∈ [Operator.lt, .eq, .gt] ∧
        (Rule.ofLine (Rule.line .stockQuantity op "3")).holds (stocked (some 5)) = true) ∧
      (Rule.ofLine (Rule.line .stockQuantity .gte "null")).holds (stocked (some 5)) ≠ true := by
  intro stocked catalog segment
  have allowed : Field.stockQuantity ∈ Field.allowed := by decide
  have three : IsWord "3" := ⟨by decide, by decide⟩
  have null : IsWord "null" := ⟨by decide, by decide⟩
  have literal : Literal.IsLiteral "3".toList := by
    rw [← Rule.isNaN_value_iff three]
    decide +kernel
  have text : ¬Literal.IsLiteral "null".toList := by
    rw [← Rule.isNaN_value_iff null]
    decide +kernel
  obtain ⟨-, counted, -, numbers, -⟩ := select_complementary allowed three catalog
  obtain ⟨-, -, all, -, texts⟩ := select_complementary allowed null catalog
  refine ⟨allowed, three, null, counted ⟨rfl, literal⟩, all fun h => text h.2, ?_, ?_⟩
  · exact (numbers ⟨.inr rfl, literal⟩ (stocked (some 5)) (.ofInt 5) rfl (by decide +kernel)).1
  · exact texts (fun h => text h.2) .gte (by decide) (stocked (some 5))

end Segment

end ProductSegments

import ProductSegments.Proofs.Segment.Selection

/-!
# The algebra of segments

A segment is a filter of the catalog, whatever is done first and wherever the work is cut short: for
an empty catalog, without rules, or at a rule with a fault.  So segments of segments, segments of
two catalogs together and lists of rules in another order are what they should be.

## Main results

* `Segment.matching_append_right`, `Segment.matching_append_left` — rules and products one after the
  other.
* `Segment.matching_congr` — only which rules there are counts, not their order and number.
* `Segment.isOk_select?` — the strict way gives products if no rule has a fault.
* `Segment.select_algebra` — the laws of segments.
-/

namespace ProductSegments.Segment

variable {products others : List Product} {lines lines' : List String}

/-! ### Products that match -/

/-- **The products that match two lists of rules** are those among the ones that match the first
list that match the second. -/
theorem matching_append_right (products : List Product) (lines lines' : List String) :
    matching products (lines ++ lines') = matching (matching products lines) lines' := by
  unfold matching
  rw [List.filter_filter]
  refine List.filter_congr fun p _ => ?_
  rw [List.all_append, Bool.and_comm]

/-- **The products of two catalogs that match** are those of the one and then those of the other. -/
theorem matching_append_left (products others : List Product) (lines : List String) :
    matching (products ++ others) lines = matching products lines ++ matching others lines :=
  List.filter_append ..

/-- **Only which rules there are counts**, not their order, nor how often one is repeated. -/
theorem matching_congr (products : List Product) (h : ∀ line, line ∈ lines' ↔ line ∈ lines) :
    matching products lines' = matching products lines := by
  refine List.filter_congr fun p _ => ?_
  rw [Bool.eq_iff_iff, List.all_eq_true, List.all_eq_true]
  constructor
  · intro all line hline
    exact all line ((h line).mpr hline)
  · intro all line hline
    exact all line ((h line).mp hline)

/-- A product by itself matches if it satisfies all rules. -/
theorem matching_singleton_eq_iff (p : Product) (lines : List String) :
    matching [p] lines = [p] ↔ ∀ line ∈ lines, (Rule.ofLine line).holds p = true := by
  rw [matching, List.filter_eq_self]
  constructor
  · intro all
    exact List.all_eq_true.mp (all p List.mem_cons_self)
  · intro all q hq
    obtain rfl := List.mem_singleton.mp hq
    exact List.all_eq_true.mpr all

/-- **Each product matches or does not by itself**, whatever else is in the catalog. -/
theorem matching_eq_filter (products : List Product) (lines : List String) :
    matching products lines = products.filter fun p => matching [p] lines = [p] := by
  refine List.filter_congr fun p _ => ?_
  rw [Bool.eq_iff_iff, List.all_eq_true, decide_eq_true_iff, matching_singleton_eq_iff]

/-! ### Faults -/

/-- Looking for faults goes through all lines if it finds none. -/
theorem isOk_diagnose_of_forM (h : (lines.forM fun line => discard (Rule.diagnose line)) = .ok ()) :
    ∀ line ∈ lines, (Rule.diagnose line).isOk = true := by
  induction lines with
  | nil =>
    intro line hline
    cases hline
  | cons first lines ih =>
    change (do discard (Rule.diagnose first); lines.forM fun line => discard (Rule.diagnose line))
      = .ok () at h
    cases hd : Rule.diagnose first with
    | error fault =>
      rw [hd] at h
      cases h
    | ok r =>
      rw [hd] at h
      intro line hline
      rcases List.mem_cons.mp hline with rfl | hline
      · rw [hd]
        rfl
      · exact ih h line hline

/-- **The strict way gives products if no rule has a fault**, unless the catalog has none. -/
theorem isOk_select? (ne_nil : products ≠ []) (lines : List String) :
    (select? products lines).isOk = true ↔ ∀ line ∈ lines, (Rule.diagnose line).isOk = true := by
  constructor
  · intro ok
    have some : products.isEmpty = false := by
      rw [List.isEmpty_eq_false_iff]
      exact ne_nil
    rw [select?, if_neg (by rw [some]; decide)] at ok
    cases hf : lines.forM fun line => discard (Rule.diagnose line) with
    | error fault =>
      rw [hf] at ok
      cases ok
    | ok u => exact isOk_diagnose_of_forM hf
  · intro all
    cases hs : select? products lines with
    | ok chosen => rfl
    | error fault =>
      obtain ⟨-, line, hline, faulty⟩ := mem_of_select?_eq_error hs
      have ok := all line hline
      rw [faulty] at ok
      cases ok

/-- Whether the strict way gives products depends neither on which products there are nor on the
order and number of the rules. -/
theorem isOk_select?_congr (ne_nil : products ≠ []) (ne_nil' : others ≠ [])
    (h : ∀ line, line ∈ lines' ↔ line ∈ lines) :
    (select? others lines').isOk = (select? products lines).isOk := by
  rw [Bool.eq_iff_iff, isOk_select? ne_nil, isOk_select? ne_nil']
  constructor
  · intro all line hline
    exact all line ((h line).mpr hline)
  · intro all line hline
    exact all line ((h line).mp hline)

/-! ### Segments -/

/-- The segment is the products that match. -/
theorem select_eq (products : List Product) (lines : List String) :
    select products lines = matching products lines := by
  rw [select_eq_products_report false, products_report]

/-- **The laws of segments**, for all catalogs and lists of rules.  The segment of two lists of
rules is the segment by the one in the segment by the other; the segment of two catalogs is the
segment of the one and then that of the other.  Without rules everything is in the segment.  A
segment lists products of the catalog in the order of the catalog, each of them as often as it is
there, if it satisfies all rules by itself.  The order of the rules and repeated rules do not
matter; nor do they matter for whether the strict way finds a fault, and nor do the products, if
there are any. -/
theorem select_algebra (products others : List Product) (lines lines' : List String) :
    select products (lines ++ lines') = select (select products lines) lines' ∧
    select (products ++ others) lines = select products lines ++ select others lines ∧
    select products [] = products ∧
    (select products lines).Sublist products ∧
    (select products lines = products.filter fun p => select [p] lines = [p]) ∧
    (∀ p : Product, select [p] lines = [p] ↔
      ∀ line ∈ lines, (Rule.ofLine line).holds p = true) ∧
    (∀ rules, (∀ line, line ∈ rules ↔ line ∈ lines) →
      select products rules = select products lines) ∧
    (products ≠ [] → ∀ catalog rules, catalog ≠ [] → (∀ line, line ∈ rules ↔ line ∈ lines) →
      (select? catalog rules).isOk = (select? products lines).isOk) := by
  simp only [select_eq]
  refine ⟨matching_append_right products lines lines', matching_append_left products others lines,
    matching_nil_right products, List.filter_sublist, matching_eq_filter products lines,
    fun p => matching_singleton_eq_iff p lines, fun rules => matching_congr products, ?_⟩
  intro ne_nil catalog rules ne_nil' same
  exact isOk_select?_congr ne_nil ne_nil' same

/-- Two equal products and two rules in another order, one of them with a fault. -/
theorem select_algebra_swapped :
    let p : Product := ⟨7, "Mug", .ofNat 5, "instock", none, "Kitchen", [], true, none, none⟩
    let rules := ["on_sale = true", "weight > 5"]
    (∀ line, line ∈ rules.reverse ↔ line ∈ rules) ∧ [p, p] ≠ [] ∧ [p] ≠ [] ∧
      select [p, p] rules.reverse = select [p, p] rules ∧
      (select? [p] rules.reverse).isOk = (select? [p, p] rules).isOk ∧
      (select? [p, p] rules).isOk = false := by
  intro p rules
  have same : ∀ line, line ∈ rules.reverse ↔ line ∈ rules := fun line => List.mem_reverse
  obtain ⟨-, -, -, -, -, -, order, strict⟩ := select_algebra [p, p] [] rules []
  refine ⟨same, List.cons_ne_nil _ _, List.cons_ne_nil _ _, order _ same,
    strict (List.cons_ne_nil _ _) [p] _ (List.cons_ne_nil _ _) same, ?_⟩
  decide +kernel

end ProductSegments.Segment

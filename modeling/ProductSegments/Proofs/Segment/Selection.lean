import ProductSegments.Proofs.Rule.Diagnosis
import ProductSegments.Segment

/-!
# The products of a segment

A segment is worked out in two ways.  One looks for faults in all rules first and then selects; the
other selects at once.  Both give the products that satisfy the rule on every line, in the order of
the catalog.

## Main definitions

* `Segment.matching` — the products that satisfy the rule on every line.

## Main results

* `Segment.products_report` — the report lists these products, traced or not.
* `Segment.select_eq_products_report` — these are the products of the segment.
* `Segment.mem_of_select?_eq_error` — a fault is one of a line among the rules.
* `Segment.select?_eq_ok` — without faults the segment is given also in the strict way.
* `Segment.select_eq_matching` — both ways agree, and a fault loses no product.
-/

namespace ProductSegments.Segment

/-- The products that satisfy the rule on every line. -/
def matching (products : List Product) (lines : List String) : List Product :=
  products.filter fun p => lines.all fun line => (Rule.ofLine line).holds p

@[simp] theorem matching_nil_left (lines : List String) : matching [] lines = [] := rfl

@[simp] theorem matching_nil_right (products : List Product) : matching products [] = products := by
  simp [matching]

/-- With one rule they are the products that satisfy it. -/
theorem matching_singleton (products : List Product) (line : String) :
    matching products [line] = products.filter (Rule.ofLine line).holds := by
  refine List.filter_congr fun p _ => ?_
  rw [List.all_cons, List.all_nil, Bool.and_true]

/-- A line whose rule no product satisfies empties the segment. -/
theorem matching_eq_nil {products : List Product} {lines : List String} {line : String}
    (hmem : line ∈ lines) (h : ∀ p, (Rule.ofLine line).holds p = false) :
    matching products lines = [] := by
  rw [matching, List.filter_eq_nil_iff]
  intro p _ hall
  have := List.all_eq_true.mp hall line hmem
  rw [h p] at this
  exact absurd this (by decide)

/-! ### The report -/

theorem satisfies_map_ofLine (lines : List String) (p : Product) :
    satisfies (lines.map Rule.ofLine) p = lines.all fun line => (Rule.ofLine line).holds p := by
  simp only [satisfies, List.all_map]
  rfl

/-- The report lists the products that satisfy the rule on every line, traced or not. -/
theorem products_report (traced : Bool) (products : List Product) (lines : List String) :
    (report traced products lines).products = matching products lines := by
  unfold report
  split
  · next h => rw [List.isEmpty_iff.mp h, matching_nil_left]
  · split
    · next h => rw [List.isEmpty_iff.mp h, matching_nil_right]
    · exact List.filter_congr fun p _ => satisfies_map_ofLine lines p

/-- How many products are reported does not depend on whether that is traced. -/
theorem matched_report (traced traced' : Bool) (products : List Product) (lines : List String) :
    (report traced products lines).matched = (report traced' products lines).matched := by
  unfold report
  split
  · rfl
  · split <;> rfl

/-! ### The strict way -/

/-- Looking for faults in all lines ends with the fault of one of them, if there is any. -/
theorem mem_of_forM_diagnose {lines : List String} {fault : Rule.Fault}
    (h : (lines.forM fun line => discard (Rule.diagnose line)) = .error fault) :
    ∃ line ∈ lines, Rule.diagnose line = .error fault := by
  induction lines with
  | nil => cases h
  | cons line lines ih =>
    change (do discard (Rule.diagnose line); lines.forM fun line => discard (Rule.diagnose line))
      = .error fault at h
    cases hd : Rule.diagnose line with
    | error e =>
      rw [hd] at h
      have he : e = fault := Except.error.inj h
      exact ⟨line, List.mem_cons_self, he ▸ hd⟩
    | ok r =>
      rw [hd] at h
      obtain ⟨other, hmem, ho⟩ := ih h
      exact ⟨other, List.mem_cons_of_mem _ hmem, ho⟩

theorem mem_of_select?_eq_error {products : List Product} {lines : List String}
    {fault : Rule.Fault} (h : select? products lines = .error fault) :
    products ≠ [] ∧ ∃ line ∈ lines, Rule.diagnose line = .error fault := by
  unfold select? at h
  split at h
  · cases h
  · next hne =>
    refine ⟨fun hnil => hne (by rw [hnil]; rfl), ?_⟩
    cases hf : lines.forM fun line => discard (Rule.diagnose line) with
    | error e =>
      rw [hf] at h
      have he : e = fault := Except.error.inj h
      exact mem_of_forM_diagnose (he ▸ hf)
    | ok u => rw [hf] at h; cases h

theorem eq_matching_of_select?_eq_ok {products chosen : List Product} {lines : List String}
    (h : select? products lines = .ok chosen) : chosen = matching products lines := by
  unfold select? at h
  split at h
  · next hnil =>
    rw [List.isEmpty_iff.mp hnil, matching_nil_left]
    exact (Except.ok.inj h).symm
  · cases hf : lines.forM fun line => discard (Rule.diagnose line) with
    | error e => rw [hf] at h; cases h
    | ok u =>
      rw [hf] at h
      rw [← products_report false]
      exact (Except.ok.inj h).symm

/-- Without a fault the segment is given also in the strict way. -/
theorem select?_eq_ok {lines : List String} (h : ∀ line ∈ lines, ∃ r, Rule.diagnose line = .ok r)
    (products : List Product) : select? products lines = .ok (matching products lines) := by
  cases hs : select? products lines with
  | ok chosen => rw [eq_matching_of_select?_eq_ok hs]
  | error fault =>
    obtain ⟨-, line, hmem, hfault⟩ := mem_of_select?_eq_error hs
    obtain ⟨r, hr⟩ := h line hmem
    rw [hr] at hfault
    cases hfault

/-- A fault loses no product: the segment is empty anyway. -/
theorem matching_eq_nil_of_select?_eq_error {products : List Product} {lines : List String}
    {fault : Rule.Fault} (h : select? products lines = .error fault) :
    matching products lines = [] := by
  obtain ⟨-, line, hmem, hd⟩ := mem_of_select?_eq_error h
  exact matching_eq_nil hmem (Rule.not_holds_of_diagnose hd)

/-- The report lists the segment. -/
theorem select_eq_products_report (traced : Bool) (products : List Product) (lines : List String) :
    select products lines = (report traced products lines).products := by
  rw [products_report]
  unfold select
  split
  · next h => exact eq_matching_of_select?_eq_ok h
  · next h => exact (matching_eq_nil_of_select?_eq_error h).symm

/-- **Both ways give the same segment**: the products that satisfy the rule on every line, in the
order of the catalog.  Where the strict way answers with products, these are they; where it answers
with a fault, the catalog has products, and the fault is that of a line whose rule is satisfied by
no product of any catalog. -/
theorem select_eq_matching (products : List Product) (lines : List String) :
    select products lines = matching products lines ∧
      (∀ traced, (report traced products lines).products = matching products lines) ∧
      match select? products lines with
      | .ok chosen => chosen = matching products lines
      | .error fault => products ≠ [] ∧ ∃ line ∈ lines,
          Rule.diagnose line = .error fault ∧ ∀ p : Product, (Rule.ofLine line).holds p = false := by
  refine ⟨?_, fun traced => products_report traced products lines, ?_⟩
  · unfold select
    split
    · next h => exact eq_matching_of_select?_eq_ok h
    · next h => exact (matching_eq_nil_of_select?_eq_error h).symm
  · split
    · next h => exact eq_matching_of_select?_eq_ok h
    · next h =>
      obtain ⟨hne, line, hmem, hd⟩ := mem_of_select?_eq_error h
      exact ⟨hne, line, hmem, hd, Rule.not_holds_of_diagnose hd⟩

end ProductSegments.Segment

import ProductSegments.Proofs.Rule.Reading
import ProductSegments.Proofs.Segment.Selection

/-!
# The trace of a segment

On request a report has a line about each rule.  That line is worked out from the rule without the
blanks around it, while the segment is worked out from the lines as they are; nevertheless it says
what the strict way has to say about the rule alone, and the first fault in the trace is the one
with which the strict way ends.

## Main definitions

* `Rule.Fault.isOfTokens` — the fault lies in the tokens of a line.
* `Segment.validLine`, `Segment.neverMatchesLine` — the two forms of a line of a trace.
* `Segment.ReadsValid` — a line of the first form.

## Main results

* `Rule.diagnose_trim` — blanks around a rule do not change what is wrong with it.
* `Segment.not_readsValid_neverMatchesLine` — a line cannot be taken for one of the other form.
* `Segment.traceLine_eq` — a line of a trace says what the strict way says about the rule alone.
* `Segment.select?_eq_error_of_first` — the strict way ends with the first fault.
* `Segment.trace_truthful` — the trace as a whole.
-/

namespace ProductSegments

/-! ### Rules without the blanks around them -/

namespace Rule

theorem words_trim (line : String) :
    Text.words (String.ofList (Text.trim line.toList)) = Text.words line := by
  rw [Text.words, Text.words, String.toList_ofList, Text.tokens_trim]

/-- Blanks around a line do not change its rule. -/
theorem ofLine_trim (line : String) : ofLine (String.ofList (Text.trim line.toList)) = ofLine line :=
  ofLine_eq_of_take_words (by rw [words_trim])

/-- **Blanks around a line do not change what is wrong with it**, not even the wording. -/
theorem diagnose_trim (line : String) :
    diagnose (String.ofList (Text.trim line.toList)) = diagnose line := by
  have strict : ofLine? (String.ofList (Text.trim line.toList)) = ofLine? line := by
    rw [ofLine?, ofLine?, words_trim, ofLine_trim, String.toList_ofList, Text.trim_trim]
  rw [diagnose, diagnose, strict]

/-- The fault lies in the tokens of the line, not in what its operator means. -/
def Fault.isOfTokens : Fault → Bool
  | empty | missingToken .. | unknownField _ => true
  | unsupportedOperator .. | orderingOnText .. => false

/-- The strict reading finds faults in tokens only. -/
theorem isOfTokens_of_ofLine? {line : String} {fault : Fault} (h : ofLine? line = .error fault) :
    fault.isOfTokens = true := by
  unfold ofLine? at h
  split at h
  · cases h
    rfl
  · split at h
    · cases h
      rfl
    · cases h
  · cases h
    rfl

theorem isOfTokens_of_check {r : Rule} {fault : Fault} (h : r.check = .error fault) :
    fault.isOfTokens = false := by
  unfold check at h
  split at h
  · cases h
  · split at h
    · cases h
      rfl
    · cases h
      rfl

/-- **A rule with a fault is invalid exactly if the fault lies in the tokens of its line.** -/
theorem isValid_of_diagnose {line : String} {fault : Fault} (h : diagnose line = .error fault) :
    (ofLine line).isValid = !fault.isOfTokens := by
  rcases diagnose_eq_error_iff.mp h with h | ⟨r, hr, hc⟩
  · rw [isOfTokens_of_ofLine? h, not_isValid_of_ofLine? h, Bool.not_true]
  · rw [(ofLine?_eq_ok_iff.mp hr).1, isOfTokens_of_check hc, Bool.not_false]

/-- A line without a fault has the rule of its lenient reading. -/
theorem eq_ofLine_of_diagnose {line : String} {r : Rule} (h : diagnose line = .ok r) :
    r = ofLine line := by
  unfold diagnose at h
  cases hr : ofLine? line with
  | error fault =>
    rw [hr] at h
    cases h
  | ok read =>
    rw [ofLine_eq_of_ofLine? hr]
    cases hc : read.check <;> simp_all [bind, Except.bind, pure, Except.pure]

end Rule

namespace Segment

variable {products : List Product} {lines : List String}

/-! ### The two forms of a line -/

/-- The line of a trace about a rule that products can satisfy: how it compares, and how many of all
products satisfy it. -/
def validLine (index total hits : Nat) (rule : Rule) : String :=
  s!"rules[{index}]: {rule.text} => VALID ({rule.comparison.name}), 单独命中 {hits}/{total}"

/-- The line of a trace about a rule that no product can satisfy: whether it is valid nevertheless,
and what is wrong with it. -/
def neverMatchesLine (index : Nat) (line : String) (isValid : Bool) (fault : Rule.Fault) : String :=
  let mark := if isValid then "valid" else "invalid"
  s!"rules[{index}]: '{String.ofList (Text.trim line.toList)}' => NEVER_MATCHES ({mark}): {fault.message}"

/-- The line of a trace says that products can satisfy a rule. -/
def ReadsValid (entry : String) : Prop :=
  ∃ index total hits rule, entry = validLine index total hits rule

/-- What stands behind the first space of a line: the subject, in quotes or not. -/
def subject (entry : String) : List Char := (entry.toList.dropWhile (· ≠ ' ')).tail

/-- The heading of a line has no space but its last character. -/
theorem subject_heading (index : Nat) (text : String) :
    subject ("rules[" ++ (toString index ++ ("]: " ++ text))) = text.toList := by
  have digits : ∀ c ∈ (toString index).toList, c ≠ ' ' := by
    intro c hc space
    have digit := Nat.isDigit_of_mem_toDigits (by decide) (by decide) (Nat.toList_repr ▸ hc)
    rw [space] at digit
    exact absurd digit (by decide)
  have front : ∀ c ∈ "rules[".toList ++ (toString index).toList ++ "]:".toList, c ≠ ' ' :=
    List.forall_mem_append.mpr ⟨List.forall_mem_append.mpr ⟨Text.forall_mem (by decide), digits⟩,
      Text.forall_mem (by decide)⟩
  have split : ("rules[" ++ (toString index ++ ("]: " ++ text))).toList =
      ("rules[".toList ++ (toString index).toList ++ "]:".toList) ++ ' ' :: text.toList := by
    simp [String.toList_append]
  rw [subject, split, List.dropWhile_append_of_pos (by simpa using front),
    List.dropWhile_cons_of_neg (by decide), List.tail_cons]

/-- A line of the first form has the name of a field for the beginning of its subject. -/
theorem head?_subject_validLine (index total hits : Nat) (rule : Rule) :
    (subject (validLine index total hits rule)).head? = rule.field.name.toList.head? := by
  have plain : ∀ s : String, toString s = s := fun _ => rfl
  simp only [validLine, plain, String.append_assoc]
  rw [subject_heading, String.toList_append, Rule.text, String.append_assoc, String.append_assoc,
    String.append_assoc, String.toList_append]
  cases rule.field <;> rfl

/-- A line of the second form has a quote there. -/
theorem head?_subject_neverMatchesLine (index : Nat) (line : String) (isValid : Bool)
    (fault : Rule.Fault) :
    (subject (neverMatchesLine index line isValid fault)).head? = some '\'' := by
  have plain : ∀ s : String, toString s = s := fun _ => rfl
  have front : "]: '" = "]: " ++ "'" := by decide
  simp only [neverMatchesLine, plain, front, String.append_assoc]
  rw [subject_heading, String.toList_append]
  rfl

/-- **A line cannot be taken for one of the other form**, whatever text the rule itself has. -/
theorem not_readsValid_neverMatchesLine (index : Nat) (line : String) (isValid : Bool)
    (fault : Rule.Fault) : ¬ReadsValid (neverMatchesLine index line isValid fault) := by
  rintro ⟨index', total, hits, rule, same⟩
  have heads : (subject _).head? = (subject _).head? := congrArg (List.head? ∘ subject) same
  rw [head?_subject_validLine, head?_subject_neverMatchesLine] at heads
  revert heads
  cases rule.field <;> decide

/-! ### What a line says -/

/-- The strict way with one rule gives the products that satisfy it, unless it has a fault. -/
theorem select?_singleton (ne_nil : products ≠ []) (line : String) : select? products [line] =
    match Rule.diagnose line with
    | .ok _ => .ok (matching products [line])
    | .error fault => .error fault := by
  cases hd : Rule.diagnose line with
  | ok rule => exact select?_eq_ok (fun _ hmem => ⟨rule, List.mem_singleton.mp hmem ▸ hd⟩) products
  | error fault =>
    have some : products.isEmpty = false := List.isEmpty_eq_false_iff.mpr ne_nil
    have search : ([line].forM fun line => discard (Rule.diagnose line)) = .error fault := by
      change (do discard (Rule.diagnose line); pure ()) = _
      rw [hd]
      rfl
    rw [select?, if_neg (by rw [some]; decide), search]
    rfl

theorem length_matching_singleton (products : List Product) (line : String) :
    (matching products [line]).length = products.countP (Rule.ofLine line).holds := by
  rw [List.countP_eq_length_filter, matching_singleton]

/-- **A line of a trace says what the strict way says about the rule alone**: how many products it
gives, or with which fault it ends. -/
theorem traceLine_eq (ne_nil : products ≠ []) (index : Nat) (line : String) :
    traceLine products index line = match select? products [line] with
      | .ok chosen => validLine index products.length chosen.length (Rule.ofLine line)
      | .error fault => neverMatchesLine index line (!fault.isOfTokens) fault := by
  rw [select?_singleton ne_nil, traceLine]
  dsimp only
  rw [Rule.diagnose_trim]
  cases hd : Rule.diagnose line with
  | ok rule =>
    dsimp only
    rw [length_matching_singleton, ← Rule.eq_ofLine_of_diagnose hd, validLine]
  | error fault =>
    dsimp only
    rw [Rule.isValid_of_diagnose hd, neverMatchesLine]

/-! ### The first fault -/

/-- **The strict way ends with the first fault**, whatever the lines behind it are. -/
theorem select?_eq_error_of_first (ne_nil : products ≠ []) {before behind : List String}
    {line : String} {fault : Rule.Fault} (h : select? products [line] = .error fault)
    (first : ∀ other ∈ before, (select? products [other]).isOk = true) :
    select? products (before ++ line :: behind) = .error fault := by
  have some : products.isEmpty = false := List.isEmpty_eq_false_iff.mpr ne_nil
  have search : ((before ++ line :: behind).forM fun line => discard (Rule.diagnose line)) =
      .error fault := by
    induction before with
    | nil =>
      rw [select?_singleton ne_nil] at h
      change (do discard (Rule.diagnose line); behind.forM fun line => discard (Rule.diagnose line))
        = _
      cases hd : Rule.diagnose line with
      | ok rule =>
        rw [hd] at h
        cases h
      | error e =>
        rw [hd] at h
        cases h
        rfl
    | cons other before ih =>
      have ok := first other List.mem_cons_self
      rw [select?_singleton ne_nil] at ok
      change (do discard (Rule.diagnose other)
                 (before ++ line :: behind).forM fun line => discard (Rule.diagnose line)) = _
      cases hd : Rule.diagnose other with
      | ok rule => exact ih fun o ho => first o (List.mem_cons_of_mem other ho)
      | error e =>
        rw [hd] at ok
        cases ok
  rw [select?, if_neg (by rw [some]; decide), search]
  rfl

/-! ### The trace -/

theorem trace_report (ne_nil : products ≠ []) (lines : List String) :
    (report true products lines).trace = lines.mapIdx (traceLine products) := by
  rw [report, if_neg (by simpa using ne_nil)]
  cases lines with
  | nil => rfl
  | cons line lines => rfl

theorem trace_report_of_empty (h : products = [] ∨ lines = []) :
    (report true products lines).trace = [] := by
  rcases h with rfl | rfl
  · rfl
  · unfold report
    split <;> rfl

theorem total_report (traced traced' : Bool) (products : List Product) (lines : List String) :
    (report traced products lines).total = (report traced' products lines).total := by
  unfold report
  split
  · rfl
  · split <;> rfl

/-- A line of the trace has the first form exactly if the strict way with its rule alone gives
products. -/
theorem readsValid_traceLine_iff (ne_nil : products ≠ []) (index : Nat) (line : String) :
    ReadsValid (traceLine products index line) ↔ (select? products [line]).isOk = true := by
  rw [traceLine_eq ne_nil]
  rcases select? products [line] with fault | chosen
  · have never := not_readsValid_neverMatchesLine index line (!fault.isOfTokens) fault
    exact iff_of_false never Bool.false_ne_true
  · exact iff_of_true ⟨index, products.length, chosen.length, _, rfl⟩ rfl

/-- **The trace tells the truth.**  A traced report has the same products and counts as any other, and
if there are products and rules, one line about each rule in the order of the rules.  A line reads
`VALID` exactly if the strict way with its rule alone gives products, and then has the comparison of
the rule and the number of these products; else it has the fault with which that way ends, and the
mark that the rule is invalid exactly if the fault lies in the tokens.  If there is such a line, the
segment is empty, and the strict way with all rules ends with the fault of the first one. -/
theorem trace_truthful (products : List Product) (lines : List String) :
    (report true products lines).products = (report false products lines).products ∧
    (report true products lines).matched = (report false products lines).matched ∧
    (report true products lines).total = (report false products lines).total ∧
    (products = [] ∨ lines = [] → (report true products lines).trace = []) ∧
    (products ≠ [] → (report true products lines).trace.length = lines.length ∧
      ∀ index line, lines[index]? = some line → ∃ entry,
        (report true products lines).trace[index]? = some entry ∧
        (ReadsValid entry ↔ (select? products [line]).isOk = true) ∧
        (ReadsValid entry → entry = validLine index products.length
          (select products [line]).length (Rule.ofLine line)) ∧
        (¬ReadsValid entry → ∃ fault, select? products [line] = .error fault ∧
          entry = neverMatchesLine index line (!fault.isOfTokens) fault ∧
          (report true products lines).products = [] ∧
          ((∀ earlier < index, ∀ other, (report true products lines).trace[earlier]? = some other →
            ReadsValid other) → select? products lines = .error fault))) := by
  refine ⟨?_, matched_report .., total_report .., trace_report_of_empty, fun ne_nil => ?_⟩
  · rw [products_report, products_report]
  rw [trace_report ne_nil]
  refine ⟨List.length_mapIdx, fun index line hline => ?_⟩
  refine ⟨traceLine products index line, by rw [List.getElem?_mapIdx, hline]; rfl,
    readsValid_traceLine_iff ne_nil index line, fun valid => ?_, fun never => ?_⟩
  · have ok := (readsValid_traceLine_iff ne_nil index line).mp valid
    rw [traceLine_eq ne_nil]
    unfold select
    cases hs : select? products [line] with
    | ok chosen => rfl
    | error fault =>
      rw [hs] at ok
      cases ok
  · rw [readsValid_traceLine_iff ne_nil] at never
    cases hs : select? products [line] with
    | ok chosen =>
      rw [hs] at never
      exact absurd rfl never
    | error fault =>
      obtain ⟨-, other, hmem, hd⟩ := mem_of_select?_eq_error hs
      obtain rfl := List.mem_singleton.mp hmem
      refine ⟨fault, rfl, by rw [traceLine_eq ne_nil, hs], ?_, fun first => ?_⟩
      · rw [products_report]
        exact matching_eq_nil (List.mem_of_getElem? hline) (Rule.not_holds_of_diagnose hd)
      · -- the lines in front of this one are those that the hypothesis is about
        obtain ⟨hlt, hget⟩ := List.getElem?_eq_some_iff.mp hline
        have split : lines = lines.take index ++ other :: lines.drop (index + 1) := by
          rw [← hget, ← List.drop_eq_getElem_cons hlt, List.take_append_drop]
        rw [split]
        refine select?_eq_error_of_first ne_nil hs fun o ho => ?_
        obtain ⟨earlier, hearlier, rfl⟩ := List.mem_take_iff_getElem.mp ho
        have valid := first earlier (by omega) (traceLine products earlier lines[earlier])
          (by rw [List.getElem?_mapIdx, List.getElem?_eq_getElem]; rfl)
        exact (readsValid_traceLine_iff ne_nil _ _).mp valid

/-- A rule with blanks around it and an unknown field, behind one that a product satisfies. -/
theorem trace_truthful_weight :
    let p : Product := ⟨7, "Mug", .ofNat 5, "instock", none, "Kitchen", [], true, none, none⟩
    let lines := ["price < 8", " weight > 5\n", "title > a"]
    [p] ≠ [] ∧ (report true [p] lines).trace.length = 3 ∧
      (report true [p] lines).trace[0]? =
        some "rules[0]: price < 8 => VALID (numeric), 单独命中 1/1" ∧
      (report true [p] lines).trace[1]? =
        some "rules[1]: 'weight > 5' => NEVER_MATCHES (invalid): 不支持的字段: weight" ∧
      (report true [p] lines).products = [] := by
  intro p lines
  obtain ⟨-, -, -, -, traced⟩ := trace_truthful [p] lines
  obtain ⟨length, told⟩ := traced (List.cons_ne_nil _ _)
  obtain ⟨first, hfirst, valid, shown, -⟩ := told 0 "price < 8" rfl
  obtain ⟨second, hsecond, never, -, faulty⟩ := told 1 " weight > 5\n" rfl
  have ok : (select? [p] ["price < 8"]).isOk = true := by decide +kernel
  have fails : ¬(select? [p] [" weight > 5\n"]).isOk = true := by decide +kernel
  obtain ⟨fault, hfault, entry, empty, -⟩ := faulty fun reads => fails (never.mp reads)
  obtain rfl : fault = .unknownField "weight" := by
    obtain ⟨-, line, hline, hd⟩ := mem_of_select?_eq_error hfault
    obtain rfl := List.mem_singleton.mp hline
    have unknown : Rule.diagnose " weight > 5\n" = .error (.unknownField "weight") := rfl
    exact Except.error.inj (hd.symm.trans unknown)
  refine ⟨List.cons_ne_nil _ _, length, ?_, ?_, empty⟩
  · rw [hfirst, shown (valid.mpr ok)]
    decide +kernel
  · rw [hsecond, entry]
    decide +kernel

end Segment

end ProductSegments

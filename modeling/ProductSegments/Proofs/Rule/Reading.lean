import ProductSegments.Proofs.Rule.Strictness

/-!
# Reading rules again

The canonical line of a rule is read as that rule, whatever line the rule was on: a valid one, one
with an unknown field or operator, or one that is too short.  Only the first three words of a line
count, not the blanks between them and not what follows.

## Main results

* `Rule.words_text_ofTokens` — the words of the canonical line of a rule with three words.
* `Rule.ofLine_text_ofLine` — the canonical line of a rule is read as that rule.
* `Rule.ofLine_eq_of_take_words` — lines with the same first three words have the same rule.
* `Rule.ofLine_stable` — both of it, for lines in which the words are spaced in any way.
-/

namespace ProductSegments

/-- A field that is known is known by its name. -/
theorem Field.name_ofName {name : String} (h : Field.ofName name ≠ .unknown) :
    (Field.ofName name).name = name := by
  rw [Field.ofName] at h ⊢
  cases hf : Field.allowed.find? (·.name = name) with
  | none =>
    rw [hf] at h
    exact absurd rfl h
  | some f =>
    have found := List.find?_some hf
    exact of_decide_eq_true found

namespace Rule

open Text (words Spaced IsWord)

theorem isWord_name (f : Field) : IsWord f.name := by
  constructor
  · cases f <;> decide
  · cases f <;> decide

/-! ### Rules with three words -/

/-- Of the field only what it stands for counts. -/
theorem ofTokens_congr {field field' : String} (h : Field.ofName field = Field.ofName field')
    (operator value : String) : ofTokens field operator value = ofTokens field' operator value := by
  rw [ofTokens, ofTokens, h]

/-- The canonical line names the field, an unknown one by the name for all of them, and repeats the
other two words. -/
theorem text_ofTokens (field operator value : String) : (ofTokens field operator value).text =
    (Field.ofName field).name ++ " " ++ operator ++ " " ++ value := by
  have symbol : (Operator.ofToken operator).symbol = operator := Operator.symbol_ofToken operator
  rw [ofTokens]
  split
  · next unknown => rw [unknown, invalid, text, symbol]
  · rw [text, symbol]

theorem words_text_ofTokens {operator value : String} (field : String) (ho : IsWord operator)
    (hv : IsWord value) : words (ofTokens field operator value).text =
      [(Field.ofName field).name, operator, value] := by
  rw [text_ofTokens]
  exact Text.words_spaced (isWord_name _) ho hv

/-! ### Rules with fewer words -/

/-- The canonical line of a rule without a field and a value has its operator for a word, if there
is one. -/
theorem words_text_invalid {operator : String} (ho : IsWord operator) :
    words (invalid (.ofToken operator) "").text = [Field.unknown.name, operator] := by
  have field := isWord_name .unknown
  have spaced : Spaced [Field.unknown.name.toList, operator.toList]
      (invalid (.ofToken operator) "").text.toList := by
    have line : (invalid (.ofToken operator) "").text.toList =
        [] ++ (Field.unknown.name.toList ++ ' ' :: ([] ++ (operator.toList ++ ' ' :: []))) := by
      simp [text, invalid, String.toList_append]
    rw [line]
    exact .word Text.isGap_nil field.ne_nil field.unbroken (by decide)
      (.word Text.isGap_nil ho.ne_nil ho.unbroken (by decide) (.gap Text.isGap_nil))
  rw [words, spaced.tokens_eq]
  simp

theorem words_text_invalid_empty : words (invalid (.ofToken "") "").text = [Field.unknown.name] := by
  decide

/-! ### Reading again -/

/-- **The canonical line of a rule is read as that rule.** -/
theorem ofLine_text_ofLine (line : String) : ofLine (ofLine line).text = ofLine line := by
  have isWord : ∀ word ∈ words line, IsWord word := fun word => Text.isWord_of_mem_words
  rcases words_cases line with ⟨field, operator, value, others, h⟩ | short
  · rw [h] at isWord
    have again : words (ofTokens field operator value).text = _ :=
      words_text_ofTokens field (isWord operator (by simp)) (isWord value (by simp))
    rw [ofLine_of_words h, ofLine_of_words again]
    exact ofTokens_congr (Field.ofName_name _) operator value
  · rw [ofLine_of_short short]
    -- a second word is all that there is to print
    cases second : (words line)[1]? with
    | none => rw [Option.getD_none, ofLine, words_text_invalid_empty]
    | some operator =>
      have word : IsWord operator := isWord operator (List.mem_of_getElem? second)
      rw [Option.getD_some, ofLine, words_text_invalid word]

/-- **Only the first three words count.** -/
theorem ofLine_eq_of_take_words {line line' : String}
    (h : (words line').take 3 = (words line).take 3) : ofLine line' = ofLine line := by
  unfold ofLine
  revert h
  -- the cases of the reading are told apart by the first three words
  rcases words line' with _ | ⟨field', _ | ⟨operator', _ | ⟨value', others'⟩⟩⟩ <;>
    rcases words line with _ | ⟨field, _ | ⟨operator, _ | ⟨value, others⟩⟩⟩ <;>
    simp +contextual

/-- The canonical line of a valid rule has the first three words of the line that it was on, with a
space between them. -/
theorem text_of_isValid {line : String} (valid : (ofLine line).isValid = true) :
    (ofLine line).text = " ".intercalate ((words line).take 3) := by
  rcases words_cases line with ⟨field, operator, value, others, h⟩ | short
  · rw [ofLine_of_words h] at valid ⊢
    have known : Field.ofName field ≠ .unknown := (isValid_ofTokens_iff ..).mp valid
    rw [text_ofTokens, Field.name_ofName known, h]
    rfl
  · rw [ofLine_of_short short] at valid
    cases valid

/-- **Rules are stable under printing and spacing.**  Every line is made of words; the canonical
line of its rule is read as the same rule, and is made of the first three words with a space between
them if the rule is valid; and every other line with the same first three words, or the same fewer
words, has the same rule, however the words are spaced and whatever follows them. -/
theorem ofLine_stable (line : String) : ofLine (ofLine line).text = ofLine line ∧
    ∃ tokens, Spaced tokens line.toList ∧
      ((ofLine line).isValid = true →
        (ofLine line).text = " ".intercalate ((tokens.take 3).map String.ofList)) ∧
      ∀ line' tokens', Spaced tokens' line'.toList → tokens'.take 3 = tokens.take 3 →
        ofLine line' = ofLine line := by
  refine ⟨ofLine_text_ofLine line, Text.tokens line.toList, Text.spaced_tokens _, ?_, ?_⟩
  · intro valid
    rw [List.map_take]
    exact text_of_isValid valid
  · intro line' tokens' spaced same
    refine ofLine_eq_of_take_words ?_
    rw [words, words, ← List.map_take, ← List.map_take, spaced.tokens_eq, same]

/-- A line with an unknown field, spaced in two ways. -/
theorem ofLine_stable_untidy :
    let tidy := "weight >> 5"
    let untidy := "\u3000weight\t>>  5 kg\n"
    Spaced (Text.tokens untidy.toList) untidy.toList ∧
      (Text.tokens untidy.toList).take 3 = (Text.tokens tidy.toList).take 3 ∧
      ofLine untidy = ofLine tidy := by
  intro tidy untidy
  have spaced : Spaced (Text.tokens untidy.toList) untidy.toList := Text.spaced_tokens _
  have same : (Text.tokens untidy.toList).take 3 = (Text.tokens tidy.toList).take 3 := by decide
  obtain ⟨-, tokens, made, -, stable⟩ := ofLine_stable tidy
  rw [made.tokens_eq] at same
  exact ⟨spaced, made.tokens_eq ▸ same, stable untidy _ spaced same⟩

end Rule

end ProductSegments

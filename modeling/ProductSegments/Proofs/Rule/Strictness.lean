import ProductSegments.Proofs.Text.Spacing
import ProductSegments.Rule.Line

/-!
# Lines that are rules

The strict reading collects all words of a line and then looks for what is missing; the lenient one
takes up to three words and makes the best of them.  Which lines are rules is said here by their
words alone, and both readings are measured by that: a line with too few words, with three words and
an unknown field in front, or with three words and a field.

## Main definitions

* `Rule.fieldNames` — the names that may stand first on a line.
* `Rule.IsRead` — what every rule is like that was read from a line.

## Main results

* `Rule.ofLine_of_short`, `Rule.ofLine_of_words` — the lenient reading by the words of a line.
* `Rule.ofLine?_of_short`, `Rule.ofLine?_of_words` — the strict reading by the words of a line.
* `Rule.isValid_ofLine_iff` — the lines whose rule is valid.
* `Rule.isRead_ofLine` — no part of a rule contradicts another.
* `Rule.readings_agree` — both readings agree on every line, and what is wrong with the others.
-/

namespace ProductSegments.Rule

open Text (words Spaced IsWord IsTrimmed)

/-! ### Fields -/

/-- The names that may stand first on a line. -/
def fieldNames : List String :=
  ["price", "stock_quantity", "on_sale", "stock_status", "category", "tags", "title"]

/-- A name stands for a field exactly if it is one of these. -/
theorem ofName_ne_unknown_iff {name : String} :
    Field.ofName name ≠ .unknown ↔ name ∈ fieldNames := by
  constructor
  · intro known
    rw [Field.ofName] at known
    cases found : Field.allowed.find? (·.name = name) with
    | none =>
      rw [found] at known
      simp at known
    | some f =>
      have allowed : ∀ f ∈ Field.allowed, f.name ∈ fieldNames := by decide
      have hname : f.name = name := by simpa using List.find?_some found
      rw [← hname]
      exact allowed f (List.mem_of_find?_eq_some found)
  · intro hname
    have known : ∀ name ∈ fieldNames, Field.ofName name ≠ .unknown := by decide
    exact known name hname

/-! ### The readings by the words of a line -/

variable {line field operator value : String} {others : List String}

/-- Three words in front of a line are its rule. -/
theorem ofLine_of_words (h : words line = field :: operator :: value :: others) :
    ofLine line = ofTokens field operator value := by
  rw [ofLine, h]

/-- With fewer words there is no field and no value, and an operator only if there is a second
word. -/
theorem ofLine_of_short (h : (words line).length < 3) :
    ofLine line = invalid (.ofToken ((words line)[1]?.getD "")) "" := by
  match hw : words line with
  | [] => simp [ofLine, hw]
  | [field] => simp [ofLine, hw]
  | [field, operator] => simp [ofLine, hw]
  | field :: operator :: value :: others =>
    simp only [hw, List.length_cons] at h
    omega

theorem ofLine?_of_words (h : words line = field :: operator :: value :: others) :
    ofLine? line = if Field.ofName field = .unknown then .error (.unknownField field)
      else .ok (ofLine line) := by
  rw [ofLine?, h]

theorem ofLine?_of_nil (h : words line = []) : ofLine? line = .error .empty := by
  rw [ofLine?, h]

theorem ofLine?_of_short (ne_nil : words line ≠ []) (h : (words line).length < 3) :
    ofLine? line =
      .error (.missingToken (String.ofList (Text.trim line.toList)) (words line).length) := by
  match hw : words line with
  | [] => exact absurd hw ne_nil
  | [field] => simp [ofLine?, hw]
  | [field, operator] => simp [ofLine?, hw]
  | field :: operator :: value :: others =>
    simp only [hw, List.length_cons] at h
    omega

/-- A line has three words in front, or too few. -/
theorem words_cases (line : String) :
    (∃ field operator value others, words line = field :: operator :: value :: others) ∨
      (words line).length < 3 := by
  match words line with
  | [] => exact .inr (by simp)
  | [_] => exact .inr (by simp)
  | [_, _] => exact .inr (by simp)
  | field :: operator :: value :: others => exact .inl ⟨field, operator, value, others, rfl⟩

theorem isValid_ofTokens_iff (field operator value : String) :
    (ofTokens field operator value).isValid = true ↔ Field.ofName field ≠ .unknown := by
  rw [ofTokens]
  split
  · next unknown => simp [invalid, unknown]
  · next known => exact iff_of_true rfl known

/-- **The lines whose rule is valid** are those with three words and a field in front. -/
theorem isValid_ofLine_iff (line : String) : (ofLine line).isValid = true ↔
    3 ≤ (words line).length ∧ ∃ name ∈ fieldNames, (words line).head? = some name := by
  rcases words_cases line with ⟨field, operator, value, others, h⟩ | short
  · rw [ofLine_of_words h, isValid_ofTokens_iff, ofName_ne_unknown_iff, h]
    simp
  · rw [ofLine_of_short short]
    refine iff_of_false Bool.false_ne_true ?_
    rintro ⟨enough, -⟩
    omega

/-! ### The strict reading -/

/-- **The strict reading gives the rule of exactly the lines whose rule is valid.** -/
theorem ofLine?_eq_ok_iff {r : Rule} :
    ofLine? line = .ok r ↔ (ofLine line).isValid = true ∧ r = ofLine line := by
  rcases words_cases line with ⟨field, operator, value, others, h⟩ | short
  · rw [ofLine?_of_words h, ofLine_of_words h, isValid_ofTokens_iff]
    split
    · next unknown => simp [unknown]
    · next known => simp [known, eq_comm]
  · have invalid : (ofLine line).isValid = false := by
      rw [ofLine_of_short short]
      rfl
    rw [invalid]
    by_cases ne_nil : words line = []
    · simp [ofLine?_of_nil ne_nil]
    · simp [ofLine?_of_short ne_nil short]

/-- The strict reading refuses a line only if its rule is invalid. -/
theorem not_isValid_of_ofLine? {fault : Fault} (h : ofLine? line = .error fault) :
    (ofLine line).isValid = false := by
  rw [Bool.eq_false_iff]
  intro valid
  rw [ofLine?_eq_ok_iff.mpr ⟨valid, rfl⟩] at h
  cases h

theorem ofLine?_eq_empty_iff : ofLine? line = .error .empty ↔ words line = [] := by
  rcases words_cases line with ⟨field, operator, value, others, h⟩ | short
  · rw [ofLine?_of_words h, h]
    split <;> simp
  · by_cases ne_nil : words line = []
    · simp [ofLine?_of_nil ne_nil, ne_nil]
    · simp [ofLine?_of_short ne_nil short, ne_nil]

/-- One or two words are reported with their number and the trimmed line. -/
theorem ofLine?_eq_missingToken_iff {text : String} {found : Nat} :
    ofLine? line = .error (.missingToken text found) ↔
      ((words line).length = 1 ∨ (words line).length = 2) ∧ found = (words line).length ∧
        IsTrimmed line.toList text.toList := by
  rcases words_cases line with ⟨field, operator, value, others, h⟩ | short
  · rw [ofLine?_of_words h, h]
    split
    · simp
    · simp
  · by_cases ne_nil : words line = []
    · simp [ofLine?_of_nil ne_nil, ne_nil]
    · have some : (words line).length ≠ 0 := by simpa using ne_nil
      have few : (words line).length = 1 ∨ (words line).length = 2 := by omega
      have same : String.ofList (Text.trim line.toList) = text ↔
          IsTrimmed line.toList text.toList := by
        rw [Text.isTrimmed_iff, ← String.toList_inj, String.toList_ofList, eq_comm]
      rw [ofLine?_of_short ne_nil short, ← same]
      simp only [Except.error.injEq, Fault.missingToken.injEq, few, true_and]
      constructor
      · rintro ⟨htext, hfound⟩
        exact ⟨hfound.symm, htext⟩
      · rintro ⟨hfound, htext⟩
        exact ⟨htext, hfound.symm⟩

/-- A first word that names no field is reported as it is. -/
theorem ofLine?_eq_unknownField_iff {name : String} :
    ofLine? line = .error (.unknownField name) ↔
      3 ≤ (words line).length ∧ (words line).head? = some name ∧ name ∉ fieldNames := by
  rcases words_cases line with ⟨field, operator, value, others, h⟩ | short
  · rw [ofLine?_of_words h, h, ← ofName_ne_unknown_iff, Decidable.not_not]
    split
    · next unknown =>
      simp only [Except.error.injEq, Fault.unknownField.injEq, List.length_cons, List.head?_cons,
        Option.some.injEq]
      constructor
      · rintro rfl
        exact ⟨by omega, rfl, unknown⟩
      · rintro ⟨-, hname, -⟩
        exact hname
    · next known =>
      simp only [reduceCtorEq, List.head?_cons, Option.some.injEq, false_iff]
      rintro ⟨-, rfl, unknown⟩
      exact known unknown
  · have few : ¬3 ≤ (words line).length := by omega
    by_cases ne_nil : words line = []
    · simp [ofLine?_of_nil ne_nil, ne_nil]
    · simp [ofLine?_of_short ne_nil short, few]

/-! ### Rules that were read -/

/-- What every rule is like that was read from a line. -/
structure IsRead (r : Rule) : Prop where
  isValid_iff : r.isValid = true ↔ r.field ≠ .unknown
  /-- Only a valid rule compares numbers. -/
  isValid_of_isNumeric : r.isNumeric = true → r.isValid = true
  isNumeric_field : r.isNumeric = true → r.field.isNumeric = true
  isNaN_number : r.isNumeric = true → r.number.isNaN = false
  unbroken_value : Text.Unbroken r.value.toList
  unbroken_symbol : Text.Unbroken r.operator.symbol.toList
  value_ne_empty : r.isValid = true → r.value ≠ ""
  symbol_ne_empty : r.isValid = true → r.operator.symbol ≠ ""

theorem ne_empty_of_isWord {word : String} (h : IsWord word) : word ≠ "" := by
  rintro rfl
  exact h.ne_nil rfl

theorem isRead_invalid (ho : Text.Unbroken operator.toList) (hv : Text.Unbroken value.toList) :
    IsRead (invalid (.ofToken operator) value) := by
  have symbol : (Operator.ofToken operator).symbol = operator := Operator.symbol_ofToken operator
  constructor <;> simp [invalid, symbol, ho, hv]

/-- Three words, the last two of which have no blanks, make such a rule. -/
theorem isRead_ofTokens (field : String) (ho : IsWord operator) (hv : IsWord value) :
    IsRead (ofTokens field operator value) := by
  have symbol : (Operator.ofToken operator).symbol = operator := Operator.symbol_ofToken operator
  rw [ofTokens]
  split
  · exact isRead_invalid ho.unbroken hv.unbroken
  · next known =>
    have known : Field.ofName field ≠ .unknown := known
    constructor
    case isValid_iff => exact iff_of_true rfl known
    case isValid_of_isNumeric =>
      intro _
      rfl
    case isNumeric_field =>
      intro numeric
      exact (Bool.and_eq_true_iff.mp numeric).1
    case isNaN_number =>
      intro numeric
      simpa using (Bool.and_eq_true_iff.mp numeric).2
    case unbroken_value => exact hv.unbroken
    case unbroken_symbol =>
      rw [symbol]
      exact ho.unbroken
    case value_ne_empty =>
      intro _
      exact ne_empty_of_isWord hv
    case symbol_ne_empty =>
      intro _
      rw [symbol]
      exact ne_empty_of_isWord ho

/-- **No part of a rule contradicts another**, whatever line it was read from. -/
theorem isRead_ofLine (line : String) : IsRead (ofLine line) := by
  have isWord : ∀ word ∈ words line, IsWord word := fun word => Text.isWord_of_mem_words
  rcases words_cases line with ⟨field, operator, value, others, h⟩ | short
  · rw [ofLine_of_words h]
    rw [h] at isWord
    exact isRead_ofTokens field (isWord operator (by simp)) (isWord value (by simp))
  · -- the second word is kept as the operator of a rule that is too short
    rw [ofLine_of_short short]
    refine isRead_invalid ?_ (by decide)
    cases second : (words line)[1]? with
    | none => decide
    | some operator => exact (isWord operator (List.mem_of_getElem? second)).unbroken

/-! ### Both readings -/

/-- **Both readings agree on every line.**  The strict one gives the rule of the lenient one exactly
if that rule is valid, which is so if the line has three words and the first of them names a field.
Else its fault is that the line is empty, that one or two words are too few, or that the first of
more words names no field, each in exactly these cases and with the trimmed line and the number of
words, or that name.  No part of a rule contradicts another. -/
theorem readings_agree (line : String) :
    ((ofLine? line).isOk = true ↔ (ofLine line).isValid = true) ∧
    (∀ r, ofLine? line = .ok r → r = ofLine line) ∧
    (∃ tokens, Spaced tokens line.toList ∧
      ((ofLine line).isValid = true ↔
        3 ≤ tokens.length ∧ ∃ name ∈ fieldNames, tokens.head? = some name.toList) ∧
      (ofLine? line = .error .empty ↔ tokens = []) ∧
      (∀ text found, ofLine? line = .error (.missingToken text found) ↔
        (tokens.length = 1 ∨ tokens.length = 2) ∧ found = tokens.length ∧
          IsTrimmed line.toList text.toList) ∧
      (∀ name, ofLine? line = .error (.unknownField name) ↔
        3 ≤ tokens.length ∧ tokens.head? = some name.toList ∧ name ∉ fieldNames)) ∧
    IsRead (ofLine line) := by
  have length : (words line).length = (Text.tokens line.toList).length := by simp [words]
  have head (name : String) :
      (words line).head? = some name ↔ (Text.tokens line.toList).head? = some name.toList := by
    rw [words, List.head?_map, Option.map_eq_some_iff]
    constructor
    · rintro ⟨token, htoken, rfl⟩
      rw [htoken, String.toList_ofList]
    · intro htoken
      exact ⟨name.toList, htoken, String.ofList_toList⟩
  refine ⟨?_, ?_, ⟨Text.tokens line.toList, Text.spaced_tokens _, ?_, ?_, ?_, ?_⟩,
    isRead_ofLine line⟩
  · constructor
    · intro ok
      cases hr : ofLine? line with
      | ok r => exact (ofLine?_eq_ok_iff.mp hr).1
      | error fault =>
        rw [hr] at ok
        cases ok
    · intro valid
      rw [ofLine?_eq_ok_iff.mpr ⟨valid, rfl⟩]
      rfl
  · intro r hr
    exact (ofLine?_eq_ok_iff.mp hr).2
  · rw [isValid_ofLine_iff, length]
    simp only [head]
  · rw [ofLine?_eq_empty_iff, words, List.map_eq_nil_iff]
  · intro text found
    rw [ofLine?_eq_missingToken_iff, length]
  · intro name
    rw [ofLine?_eq_unknownField_iff, length, head]

end ProductSegments.Rule

import ProductSegments.Proofs.Rule.Comparison

/-!
# Texts that rules can ask for

The value of a rule is one word of its line, so there is no rule for a text that is empty or has a
blank: no line with `=` is satisfied by a product with such a text, and every line with `!=` is.  A
text that is one word can be asked for by writing it on a line, whatever it looks like; a field that
holds texts compares texts even if they spell numbers.

## Main definitions

* `Rule.TextField` — the fields that hold texts, and what a product has there.

## Main results

* `Rule.holds_eq_iff`, `Rule.holds_neq_iff` — the rules of a line about such a field.
* `Rule.holds_line_iff` — the line that asks for a text, whatever stands behind it.
* `Rule.selects_words` — the texts that can be asked for are the words.
-/

namespace ProductSegments.Rule

open Text (words IsWord)

/-! ### Fields that hold texts -/

/-- A field that holds a text. -/
inductive TextField where
  | title
  | category
  | stockStatus
  /-- The tags are one text with commas between them. -/
  | tags
  deriving DecidableEq, Repr

namespace TextField

/-- The field by which a rule names it. -/
def field : TextField → Field
  | title => .title
  | category => .category
  | stockStatus => .stockStatus
  | tags => .tags

/-- The text that a product has in a field. -/
def text (f : TextField) (p : Product) : String :=
  match f with
  | title => p.title
  | category => p.category
  | stockStatus => p.stockStatus
  | tags => ",".intercalate p.tags

theorem field_ne_unknown (f : TextField) : f.field ≠ .unknown := by
  cases f <;> decide

theorem isNumeric_field (f : TextField) : f.field.isNumeric = false := by
  cases f <;> rfl

/-- The text is how the value of the field reads. -/
theorem exists_value (f : TextField) (p : Product) :
    ∃ v, p.value? f.field = some v ∧ v.asText = f.text p := by
  cases f <;> exact ⟨_, rfl, rfl⟩

end TextField

variable {f : TextField} {r : Rule} {p : Product}

/-! ### Rules about texts -/

/-- Whatever the value spells, texts are compared. -/
theorem comparison_of_textField (field : r.field = f.field) : r.comparison = .textual := by
  rw [comparison_eq_textual_iff, Ne, comparison_eq_numeric_iff, field, f.isNumeric_field]
  rintro ⟨-, numeric⟩
  cases numeric

theorem holds_of_textField (valid : r.isValid = true) (field : r.field = f.field) :
    r.holds p = r.operator.onTexts?.any (· (f.text p) r.value) := by
  obtain ⟨v, value, text⟩ := f.exists_value p
  rw [← field] at value
  rw [holds_of_textual valid (comparison_of_textField field) value, text]

/-- **A rule with `=`** is satisfied by the products that have its value for a text. -/
theorem holds_eq_iff (valid : r.isValid = true) (field : r.field = f.field)
    (equal : r.operator = .eq) : r.holds p = true ↔ f.text p = r.value := by
  rw [holds_of_textField valid field, equal]
  exact decide_eq_true_iff

/-- **A rule with `!=`** is satisfied by all others. -/
theorem holds_neq_iff (valid : r.isValid = true) (field : r.field = f.field)
    (unequal : r.operator = .neq) : r.holds p = true ↔ f.text p ≠ r.value := by
  rw [holds_of_textField valid field, unequal]
  exact decide_eq_true_iff

/-! ### Lines about texts -/

theorem isWord_iff {text : String} :
    IsWord text ↔ text ≠ "" ∧ ∀ c ∈ text.toList, Text.isBlank c = false := by
  have nil : text.toList = [] ↔ text = "" := String.toList_eq_nil_iff
  constructor
  · rintro ⟨ne_nil, unbroken⟩
    exact ⟨fun empty => ne_nil (nil.mpr empty), unbroken⟩
  · rintro ⟨ne_empty, unbroken⟩
    exact ⟨fun empty => ne_empty (nil.mp empty), unbroken⟩

variable {line : String}

theorem isValid_of_field (field : (ofLine line).field = f.field) : (ofLine line).isValid = true := by
  rw [(isRead_ofLine line).isValid_iff, field]
  exact f.field_ne_unknown

/-- The value on a line that is a rule is a word. -/
theorem isWord_value (valid : (ofLine line).isValid = true) : IsWord (ofLine line).value :=
  isWord_iff.mpr ⟨(isRead_ofLine line).value_ne_empty valid, (isRead_ofLine line).unbroken_value⟩

/-- The words of a line with a field and an operator in front. -/
theorem words_line_append (g : Field) {op : Operator} (hop : op ∈ Operator.all) (rest : String) :
    words (Rule.line g op rest) = g.name :: op.symbol :: words rest := by
  have split : Rule.line g op rest = g.name ++ " " ++ (op.symbol ++ " " ++ rest) := by
    simp only [Rule.line, String.append_assoc]
  rw [split, Text.words_space_append (isWord_name g),
    Text.words_space_append (Operator.isWord_symbol hop)]

/-- **A line that asks for a text** is satisfied by the products that have the first word behind `=`
for a text. -/
theorem holds_line_iff (f : TextField) (rest : String) (p : Product) :
    (ofLine (Rule.line f.field .eq rest)).holds p = true ↔ (words rest).head? = some (f.text p) := by
  have all := words_line_append f.field (show .eq ∈ Operator.all by decide) rest
  cases hw : words rest with
  | nil =>
    -- without a word behind `=` the line is too short for a rule
    have short : (words (Rule.line f.field .eq rest)).length < 3 := by
      rw [all, hw]
      exact Nat.lt_succ_self 2
    rw [ofLine_of_short short]
    exact iff_of_false Bool.false_ne_true nofun
  | cons value others =>
    rw [hw] at all
    rw [ofLine_of_words all, ofTokens_name f.field_ne_unknown (by decide),
      holds_eq_iff (f := f) rfl rfl rfl, List.head?_cons, Option.some.injEq, eq_comm]
    rfl

/-! ### Which texts can be asked for -/

/-- The value of a rule with `=` that a product satisfies is its text. -/
theorem isWord_text_of_holds (field : (ofLine line).field = f.field)
    (equal : (ofLine line).operator = .eq) (holds : (ofLine line).holds p = true) :
    IsWord (f.text p) := by
  have valid := isValid_of_field field
  rw [(holds_eq_iff valid field equal).mp holds]
  exact isWord_value valid

/-- **A text that is no word satisfies every line with `!=`.** -/
theorem holds_neq_of_not_isWord (noWord : ¬IsWord (f.text p)) (field : (ofLine line).field = f.field)
    (unequal : (ofLine line).operator = .neq) : (ofLine line).holds p = true := by
  have valid := isValid_of_field field
  rw [holds_neq_iff valid field unequal]
  intro same
  exact noWord (same ▸ isWord_value valid)

/-- **The texts that can be asked for are the words.**  A product satisfies some line with `=` for a
field, written with a space around the operator or in any other way, exactly if its text there is not
empty and has no blank.  Then the line with this text is one, and the other products that satisfy
it are those with the same text.  A product with any other text satisfies every line with `!=`. -/
theorem selects_words (f : TextField) (p : Product) :
    let text := f.text p
    let isWord := text ≠ "" ∧ ∀ c ∈ text.toList, Text.isBlank c = false
    let asks (line : String) (op : Operator) :=
      (ofLine line).field = f.field ∧ (ofLine line).operator = op
    ((∃ line, asks line .eq ∧ (ofLine line).holds p = true) ↔ isWord) ∧
    ((∃ rest, (ofLine (Rule.line f.field .eq rest)).holds p = true) ↔ isWord) ∧
    (isWord → asks (Rule.line f.field .eq text) .eq ∧
      ∀ q, (ofLine (Rule.line f.field .eq text)).holds q = true ↔ f.text q = text) ∧
    (¬isWord → ∀ line, asks line .neq → (ofLine line).holds p = true) := by
  intro text isWord asks
  have iff : IsWord text ↔ isWord := isWord_iff
  have first (word : isWord) : (words text).head? = some text := by
    rw [Text.words_of_isWord (iff.mpr word), List.head?_cons]
  have asked (word : isWord) : asks (Rule.line f.field .eq text) .eq := by
    have read := ofLine_line f.field_ne_unknown (show .eq ∈ Operator.all by decide) (iff.mpr word)
    exact ⟨congrArg Rule.field read, congrArg Rule.operator read⟩
  refine ⟨?lines, ?spaced, ?itself, ?unequal⟩
  case lines =>
    constructor
    · rintro ⟨line, ⟨field, equal⟩, holds⟩
      exact iff.mp (isWord_text_of_holds field equal holds)
    · intro word
      exact ⟨_, asked word, (holds_line_iff f text p).mpr (first word)⟩
  case spaced =>
    simp only [holds_line_iff]
    constructor
    · rintro ⟨rest, head⟩
      exact iff.mp (Text.isWord_of_mem_words (List.mem_of_mem_head? head))
    · intro word
      exact ⟨text, first word⟩
  case itself =>
    intro word
    refine ⟨asked word, fun q => ?_⟩
    rw [holds_line_iff, first word, Option.some.injEq, eq_comm]
  case unequal =>
    rintro noWord line ⟨field, unequal⟩
    exact holds_neq_of_not_isWord (fun word => noWord (iff.mp word)) field unequal

end ProductSegments.Rule

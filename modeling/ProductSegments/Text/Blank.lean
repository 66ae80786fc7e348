/-!
# Blanks and tokens

Rule lines, literals and settings are cut at *blanks*, the characters with the Unicode property
`White_Space`.

## Main definitions

* `Text.isBlank` — the 25 characters with the property.
* `Text.trim` — a text without the blanks at its two ends.
* `Text.tokens` — the maximal runs of other characters, in order.
-/

namespace ProductSegments.Text

/-- The code points with the property `White_Space`, as inclusive ranges. -/
def blankRanges : List (Nat × Nat) :=
  [(0x9, 0xD), (0x20, 0x20), (0x85, 0x85), (0xA0, 0xA0), (0x1680, 0x1680), (0x2000, 0x200A),
    (0x2028, 0x2029), (0x202F, 0x202F), (0x205F, 0x205F), (0x3000, 0x3000)]

/-- The character has the property `White_Space`. -/
def isBlank (c : Char) : Bool := blankRanges.any fun (low, high) => low ≤ c.toNat && c.toNat ≤ high

example : (blankRanges.map fun (low, high) => high - low + 1).sum = 25 := by decide

/-- The text from its first character that is no blank. -/
def trimStart (cs : List Char) : List Char := cs.dropWhile isBlank

/-- The text up to its last character that is no blank. -/
def trimEnd (cs : List Char) : List Char := (cs.reverse.dropWhile isBlank).reverse

/-- The text without the blanks at its two ends. -/
def trim (cs : List Char) : List Char := trimEnd (trimStart cs)

/-- The run of other characters that starts at the front, perhaps empty, and the tokens behind it. -/
def leadingToken (cs : List Char) : List Char × List (List Char) :=
  cs.foldr (fun c (token, others) =>
    if isBlank c then ([], if token.isEmpty then others else token :: others)
    else (c :: token, others)) ([], [])

/-- The maximal runs of characters that are no blanks, in order. -/
def tokens (cs : List Char) : List (List Char) :=
  match leadingToken cs with
  | ([], others) => others
  | (token, others) => token :: others

@[simp] theorem tokens_nil : tokens [] = [] := rfl

/-- The tokens of a line of text. -/
def words (line : String) : List String := (tokens line.toList).map String.ofList

end ProductSegments.Text

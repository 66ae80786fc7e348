/-!
# Blanks and comments in notations with braces

Between the parts of such a notation there may be blanks, comments from two slashes to the end of the
line, and comments between `/*` and `*/`.

## Main definitions

* `Text.GapStyle` — what a notation allows between its parts.
* `Text.GapStyle.skip` — a text without the blanks and comments in front.
-/

namespace ProductSegments.Text

/-- What a notation allows between its parts. -/
structure GapStyle where
  isBlank : Char → Bool
  /-- The character ends a comment behind two slashes. -/
  endsLine : Char → Bool
  /-- Comments between marks may contain others. -/
  nests : Bool

/-- What a character stands in, outside the parts of a document. -/
inductive Surrounding where
  | gap
  | line
  /-- Inside some comments between marks, and inside `depth` more around these. -/
  | block (depth : Nat)
  deriving DecidableEq, Repr

/-- The text without the blanks and comments in front.  A comment that is never closed leaves an
asterisk behind, with which no part of a document begins. -/
def GapStyle.skipFrom (style : GapStyle) : Surrounding → List Char → List Char
  | .gap, '/' :: '/' :: cs => style.skipFrom .line cs
  | .gap, '/' :: '*' :: cs => style.skipFrom (.block 0) cs
  | .gap, c :: cs => if style.isBlank c then style.skipFrom .gap cs else c :: cs
  | .line, c :: cs => style.skipFrom (if style.endsLine c then .gap else .line) cs
  | .block depth, '*' :: '/' :: cs =>
    style.skipFrom (if depth = 0 then .gap else .block (depth - 1)) cs
  | .block depth, '/' :: c :: cs =>
    if style.nests && c = '*' then style.skipFrom (.block (depth + 1)) cs
    else style.skipFrom (.block depth) (c :: cs)
  | .block depth, _ :: cs => style.skipFrom (.block depth) cs
  | .block _, [] => ['*']
  | _, [] => []

/-- The text without the blanks and comments in front. -/
def GapStyle.skip (style : GapStyle) : List Char → List Char := style.skipFrom .gap

end ProductSegments.Text

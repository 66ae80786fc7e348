/-!
# Scans

A text is read from front to back.  A scan reads something from the front of a text, if it stands
there, and leaves what follows.

## Main definitions

* `Text.Scan` — reads something from the front of a text.
* `Text.listed` — reads items between commas, up to a closing mark.
-/

namespace ProductSegments.Text

/-- Reads something from the front of a text, and leaves what follows. -/
abbrev Scan (α : Type) := List Char → Option (α × List Char)

/-- At most `count` items behind those read so far, which are reversed. -/
def listedFrom {α : Type} (gap : List Char → List Char) (close : Char) (item : Scan α) :
    (count : Nat) → (read : List α) → Scan (List α)
  | 0, _, _ => none
  | count + 1, read, cs =>
    match gap cs with
    | [] => none
    | c :: rest =>
      if c = close then some (read.reverse, rest)
      else do
        let (a, rest) ← item (c :: rest)
        match gap rest with
        | [] => none
        | c :: rest =>
          if c = close then some ((a :: read).reverse, rest)
          else if c = ',' then listedFrom gap close item count (a :: read) rest
          else none

/-- Items between commas, up to a closing mark.  A comma may stand behind the last item too, and `gap`
skips what may stand in front of items and marks. -/
def listed {α : Type} (gap : List Char → List Char) (close : Char) (item : Scan α) : Scan (List α) :=
  fun cs => listedFrom gap close item (cs.length + 1) [] cs

end ProductSegments.Text

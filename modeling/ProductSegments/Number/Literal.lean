import ProductSegments.Number.Decimal
import ProductSegments.Number.Radix
import ProductSegments.Text.Blank

/-!
# Number literals

The value token of a rule may spell a number: a decimal numeral, a whole number with the marker of
its radix, or an infinity.  Every other text is not-a-number, and the empty text is zero.

## Main definitions

* `Literal.radix?` — the radix that a marker letter stands for.
* `Literal.prefixed?` — the value of a literal with a radix marker.
* `Literal.value` — the number that a text spells.
-/

namespace ProductSegments.Literal

/-- The radix that the letter behind a leading zero stands for. -/
def radix? : Char → Option Nat
  | 'x' | 'X' => some 16
  | 'o' | 'O' => some 8
  | 'b' | 'B' => some 2
  | _ => none

/-- The number that digits of a radix spell, rounded after each digit. -/
def ofRadixDigits (radix : Nat) (ds : List Nat) : Binary64 :=
  ds.foldl (fun value d => value * .ofNat radix + .ofNat d) .zero

/-- The value of a text that starts with a radix marker, which is not-a-number unless digits of
that radix follow; `none` for a text without a marker. -/
def prefixed? : List Char → Option Binary64
  | '0' :: marker :: cs => (radix? marker).map fun radix =>
    match cs.mapM (Radix.digit? radix) with
    | some (d :: ds) => ofRadixDigits radix (d :: ds)
    | _ => .nan
  | _ => none

/-- The number that a text without blanks at its ends spells. -/
def ofTrimmed (cs : List Char) : Binary64 :=
  if cs.isEmpty then .zero
  else if cs = "Infinity".toList ∨ cs = "+Infinity".toList then .infinity false
  else if cs = "-Infinity".toList then .infinity true
  else match prefixed? cs with
    | some value => value
    | none => if Decimal.isNumeral cs then (Binary64.ofChars? cs).getD .nan else .nan

/-- The number that a text spells. -/
def value (cs : List Char) : Binary64 := ofTrimmed (Text.trim cs)

end ProductSegments.Literal

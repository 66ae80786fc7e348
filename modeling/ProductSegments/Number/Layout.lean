import ProductSegments.Number.Shortest

/-!
# Number layouts

A layout says how the shortest digits of a number are written out: for which magnitudes the
digits are written in place, and how an exponent and the numbers without digits look.

## Main definitions

* `Layout` — the decisions.
* `Layout.chars`, `Layout.text` — a number written by a layout.
* `Layout.rule`, `Layout.json`, `Layout.setting` — the layouts of rule values, of JSON documents and
  of settings.
-/

namespace ProductSegments

/-- How numbers are written. -/
structure Layout where
  /-- The least exponent `e` of `0.d₁d₂… · 10 ^ e` that is written in place. -/
  lowest? : Option Int
  /-- The greatest exponent that is written in place. -/
  highest? : Option Int
  /-- Whole numbers written in place end in `.0`. -/
  keepsFraction : Bool
  /-- Zero keeps its sign. -/
  keepsZeroSign : Bool
  /-- Which of two equally near digit strings is written. -/
  tie : Tie
  /-- The text of the positive infinity. -/
  infinity : String

namespace Layout

/-- The layout of rule values: in place from 10⁻⁶ up to below 10²¹, zero without a sign. -/
def rule : Layout := ⟨some (-5), some 21, false, false, .up, "Infinity"⟩

/-- The layout of JSON documents: in place from 10⁻⁵ up to below 10¹⁶, always with a fraction. -/
def json : Layout := ⟨some (-4), some 16, true, true, .even, "Infinity"⟩

/-- The layout of settings: always in place. -/
def setting : Layout := ⟨none, none, false, true, .up, "inf"⟩

/-- Numbers with this exponent are written in place. -/
def inPlace (l : Layout) (exponent : Int) : Bool :=
  l.lowest?.all (· ≤ exponent) && l.highest?.all (exponent ≤ ·)

/-- Digits with the point in place. -/
def placed (l : Layout) (d : Digits) : List Char :=
  let ds := Nat.toDigits 10 d.value
  if d.exponent ≤ 0 then '0' :: '.' :: (List.replicate (-d.exponent).toNat '0' ++ ds)
  else if d.count ≤ d.exponent then
    ds ++ List.replicate (d.exponent - d.count).toNat '0' ++ (if l.keepsFraction then ['.', '0'] else [])
  else ds.take d.exponent.toNat ++ '.' :: ds.drop d.exponent.toNat

/-- One digit before the point, and an exponent with its sign. -/
def scaled (d : Digits) : List Char :=
  let e := d.exponent - 1
  let mantissa := match Nat.toDigits 10 d.value with
    | first :: second :: others => first :: '.' :: second :: others
    | ds => ds
  mantissa ++ 'e' :: (if e < 0 then '-' else '+') :: Nat.toDigits 10 e.natAbs

/-- The characters of a number. -/
def chars (l : Layout) : Binary64 → List Char
  | .nan => "NaN".toList
  | .infinity negative => sign negative ++ l.infinity.toList
  | .finite negative 0 _ => sign (negative && l.keepsZeroSign) ++ '0' :: (if l.keepsFraction then ['.', '0'] else [])
  | .finite negative quanta _ =>
    let d := Shortest.ofQuanta l.tie quanta
    sign negative ++ if l.inPlace d.exponent then l.placed d else scaled d
where
  /-- The sign of a number. -/
  sign (negative : Bool) : List Char := if negative then ['-'] else []

/-- The text of a number. -/
def text (l : Layout) (x : Binary64) : String := String.ofList (l.chars x)

end Layout

end ProductSegments

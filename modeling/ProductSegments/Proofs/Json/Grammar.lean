import Mathlib.Data.List.Forall2
import ProductSegments.Json.Reader
import ProductSegments.Proofs.Number.Numeral

/-!
# The grammar of documents

What JSON texts look like, said without reading one: blanks, strings, numbers, and the parts of
lists and objects between commas.  The text of a part reaches from comma to comma, so the blanks
around a value belong to it.

A string whose characters are asked for must spell them: its bytes are UTF-8, and its escapes are
no halves of surrogate pairs.  A string that nobody looks at only has to find its end.

## Main definitions

* `Json.IsGap`, `Json.Padded` — blanks, and what stands among them.
* `Json.Ended` — what stands behind a value.
* `Json.Spells`, `Json.Quotes` — how characters are written in a string.
* `Json.Passes` — what a string is that nobody looks at.
* `Json.IsNumber`, `Json.IsScalar` — numbers, and scalars that nobody looks at.
* `Json.Parted`, `Json.IsArray`, `Json.IsObject` — the parts of a list, the members of an object.
* `Json.IsValue` — the text is a JSON value.
-/

namespace ProductSegments.Json

/-! ### Blanks -/

/-- Nothing but blanks. -/
def IsGap (s : List UInt8) : Prop := ∀ b ∈ s, isBlank b = true

/-- What stands among blanks has the property. -/
def Padded (P : List UInt8 → Prop) (t : List UInt8) : Prop :=
  ∃ front core back, IsGap front ∧ IsGap back ∧ P core ∧ t = front ++ (core ++ back)

/-- What stands behind a value: nothing, a blank, or a byte that parts or closes. -/
def Ended (rest : List UInt8) : Prop :=
  ∀ b ∈ rest.head?, isBlank b = true ∨ b = byte ',' ∨ b = byte ']' ∨ b = byte '}'

/-! ### Strings -/

/-- How one character is written in a string: as it is, by a letter, by the four digits of its code
point, or by two such escapes that are the halves of a surrogate pair. -/
inductive Spelled : Char → List UInt8 → Prop where
  | plain {c : Char} (quote : c ≠ '"') (backslash : c ≠ '\\') (control : ¬c.toNat < 0x20) :
      Spelled c (String.utf8EncodeChar c)
  | letter {c : Char} {b : UInt8} (h : escapeLetter? b = some c) : Spelled c [byte '\\', b]
  | unit {point : Nat} {ds : List UInt8} (digits : hexQuad? ds = some (point, []))
      (whole : point < 0xD800 ∨ 0xE000 ≤ point) :
      Spelled (.ofNat point) (byte '\\' :: byte 'u' :: ds)
  | pair {high low : Nat} {ds es : List UInt8} (first : hexQuad? ds = some (high, []))
      (second : hexQuad? es = some (low, [])) (isHigh : 0xD800 ≤ high ∧ high < 0xDC00)
      (isLow : 0xDC00 ≤ low ∧ low < 0xE000) :
      Spelled (.ofNat (0x10000 + (high - 0xD800) * 0x400 + (low - 0xDC00)))
        (byte '\\' :: byte 'u' :: (ds ++ byte '\\' :: byte 'u' :: es))

/-- What stands between two quotes spells the characters. -/
inductive Spells : List Char → List UInt8 → Prop where
  | nil : Spells [] []
  | cons {c : Char} {cs : List Char} {written raw : List UInt8} (first : Spelled c written)
      (others : Spells cs raw) : Spells (c :: cs) (written ++ raw)

/-- The text is a string of the given characters. -/
def Quotes (cs : List Char) (t : List UInt8) : Prop :=
  ∃ raw, Spells cs raw ∧ t = byte '"' :: (raw ++ [byte '"'])

/-- One byte, or one escape, of a string that nobody looks at. -/
inductive Passable : List UInt8 → Prop where
  | plain {b : UInt8} (quote : b ≠ byte '"') (backslash : b ≠ byte '\\') (control : ¬b < 0x20) :
      Passable [b]
  | letter {b : UInt8} (h : (escapeLetter? b).isSome) : Passable [byte '\\', b]
  | unit {point : Nat} {ds : List UInt8} (digits : hexQuad? ds = some (point, [])) :
      Passable (byte '\\' :: byte 'u' :: ds)

/-- What may stand between two quotes if nobody looks at it: bytes that are no UTF-8 and halves of
surrogate pairs may be among it. -/
inductive Passes : List UInt8 → Prop where
  | nil : Passes []
  | cons {written raw : List UInt8} (first : Passable written) (others : Passes raw) :
      Passes (written ++ raw)

/-! ### Scalars -/

/-- The text is a number: no plus, no zeros in front, and digits on both sides of a point. -/
def IsNumber (t : List UInt8) : Prop := ∃ n : Decimal.Numeral, n.IsPlain ∧ t = n.chars.map byte

/-- The text is a scalar that nobody looks at. -/
inductive IsScalar : List UInt8 → Prop where
  | null : IsScalar (ascii "null")
  | flag (b : Bool) : IsScalar (ascii (if b then "true" else "false"))
  | number {t : List UInt8} (h : IsNumber t) : IsScalar t
  | string {raw : List UInt8} (h : Passes raw) : IsScalar (byte '"' :: (raw ++ [byte '"']))

/-! ### Containers -/

/-- The parts stand between commas; without any part there may be blanks. -/
def Parted (parts : List (List UInt8)) (t : List UInt8) : Prop :=
  match parts with
  | [] => IsGap t
  | part :: others => t = part ++ others.flatMap (byte ',' :: ·)

/-- The parts stand between an opening and a closing byte. -/
def Encloses (opening closing : UInt8) (parts : List (List UInt8)) : List UInt8 → Prop :=
  Padded fun t => ∃ inner, Parted parts inner ∧ t = opening :: (inner ++ [closing])

/-- The text is a list of the given texts. -/
def IsArray : List (List UInt8) → List UInt8 → Prop := Encloses (byte '[') (byte ']')

/-- The part of an object that gives a value to the name that is written between its quotes. -/
def Named (name value part : List UInt8) : Prop :=
  ∃ front back, IsGap front ∧ IsGap back ∧
    part = front ++ byte '"' :: (name ++ byte '"' :: (back ++ byte ':' :: value))

/-- The text is an object with the given names and the texts of their values, in this order. -/
def IsObject (members : List (List Char × List UInt8)) (t : List UInt8) : Prop :=
  ∃ parts, Encloses (byte '{') (byte '}') parts t ∧
    List.Forall₂ (fun m part => ∃ name, Spells m.1 name ∧ Named name m.2 part) members parts

/-- **The text is a JSON value.** -/
inductive IsValue : List UInt8 → Prop where
  | scalar {t : List UInt8} (h : Padded IsScalar t) : IsValue t
  | array {t : List UInt8} {parts : List (List UInt8)} (h : IsArray parts t)
      (values : ∀ part ∈ parts, IsValue part) : IsValue t
  | object {t : List UInt8} {members : List (List UInt8 × List UInt8)} {parts : List (List UInt8)}
      (h : Encloses (byte '{') (byte '}') parts t)
      (names : List.Forall₂ (fun m part => Passes m.1 ∧ Named m.1 m.2 part) members parts)
      (values : ∀ m ∈ members, IsValue m.2) : IsValue t

end ProductSegments.Json

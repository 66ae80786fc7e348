import ProductSegments.Json.Reader

/-!
# JSON values

A document that nobody expects anything of is read as a tree.

## Main definitions

* `Json.Value` — the tree of a document.
* `Json.value` — the reader of such a tree, which may be nested to a limited depth.
-/

namespace ProductSegments.Json

/-- The tree of a document.  The members of an object are in the order in which they were written. -/
inductive Value where
  | scalar (value : Scalar)
  | array (items : List Value)
  | object (members : List (List Char × Value))

instance : Inhabited Value := ⟨.scalar .null⟩

/-- A name, a colon, and the value that `reader` reads. -/
def namedValue {α : Type} (reader : Reader α) : Reader (List Char × α) := fun s => do
  let ⟨quote, afterQuote, h₁⟩ ← token s
  if quote = byte '"' then
    let ⟨name, afterName, h₂⟩ ← stringRest afterQuote
    let ⟨colon, afterColon, h₃⟩ ← token afterName
    if colon = byte ':' then
      let ⟨value, rest, h₄⟩ ← reader afterColon
      return ⟨(name, value), rest, shorter_trans h₁ (shorter_trans h₂ (shorter_trans h₃ h₄))⟩
    else throw .malformed
  else throw .malformed

/-- A tree in which at most `depth` containers are nested. -/
def value : (depth : Nat) → Reader Value
  | depth, s => match token s with
    | .error e => .error e
    | .ok ⟨b, rest, lt⟩ =>
      if b = byte '[' || b = byte '{' then match depth with
        | 0 => .error .malformed
        | depth + 1 =>
          if b = byte '[' then do
            let ⟨items, rest, lt⟩ ← itemsTail (value depth) (byte ']') s [] rest lt
            return ⟨.array items, rest, lt⟩
          else do
            let ⟨members, rest, lt⟩ ← itemsTail (namedValue (value depth)) (byte '}') s [] rest lt
            return ⟨.object members, rest, lt⟩
      else do
        let ⟨value, rest, lt⟩ ← scalar s
        return ⟨.scalar value, rest, lt⟩

end ProductSegments.Json

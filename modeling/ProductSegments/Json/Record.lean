import ProductSegments.Json.Skip

/-!
# Records

A record is written as an object with named members in any order, or as a list of its members in
their own order.  Members with names of no interest are skipped; a member written twice is a fault,
and so is a missing one that has no value of its own.

## Main definitions

* `Json.Member` — a member of a record: its name, its reader and where its value is kept.
* `Json.record` — the reader of a record.
-/

namespace ProductSegments.Json

/-- A member of a record that is being filled into a draft of type `σ`. -/
structure Member (σ : Type) where
  name : List Char
  /-- Reads the member's value, to be put into the draft. -/
  reader : Reader (σ → σ)
  /-- The draft has the member's value already. -/
  isSet : σ → Bool
  /-- A list may end in front of the member. -/
  isTrailing : Bool

/-- The member whose value `reader` reads and `put` puts into the draft. -/
def Member.of {σ α : Type} (name : String) (reader : Reader α) (get : σ → Option α)
    (put : α → σ → σ) (isTrailing : Bool) : Member σ where
  name := name.toList
  reader := fun s => do
    let ⟨value, rest, lt⟩ ← reader s
    return ⟨put value, rest, lt⟩
  isSet := fun draft => (get draft).isSome
  isTrailing := isTrailing

variable {σ α : Type}

/-- A colon, and the value that `reader` reads. -/
def afterColon (reader : Reader α) : Reader α := fun s => do
  let ⟨c, behind, h⟩ ← token s
  if c = byte ':' then
    let ⟨value, rest, h'⟩ ← reader behind
    return ⟨value, rest, shorter_trans h h'⟩
  else throw .malformed

/-- The value of the member with the given name, put into the draft. -/
def memberValue (members : List (Member σ)) (draft : σ) (name : List Char) : Reader σ := fun s =>
  match members.find? (·.name = name) with
  | none => do
    let ⟨_, rest, lt⟩ ← afterColon skip s
    return ⟨draft, rest, lt⟩
  | some member =>
    if member.isSet draft then .error .unexpected
    else do
      let ⟨put, rest, lt⟩ ← afterColon member.reader s
      return ⟨put draft, rest, lt⟩

/-- The byte with which the next member of an object begins: the next byte `b` for the first member,
else the one behind a comma.  `behind` is what follows `b`. -/
def memberStart (first : Bool) (s : List UInt8) (b : UInt8) (behind : List UInt8)
    (h : behind.length < s.length) : Except Fault (Step UInt8 s) :=
  if first then .ok ⟨b, behind, h⟩
  else if b = byte ',' then match token behind with
    | .ok ⟨c, rest, h'⟩ => .ok ⟨c, rest, shorter_trans h h'⟩
    | .error e => .error e
  else .error .malformed

/-- The members of an object up to its closing brace; `first` says that none has been read. -/
def objectTail (members : List (Member σ)) (origin : List UInt8) (first : Bool) (draft : σ)
    (s : List UInt8) (lt : s.length < origin.length) : Except Fault (Step σ origin) :=
  match token s with
  | .error e => .error e
  | .ok ⟨b, behind, h⟩ =>
    if b = byte '}' then .ok ⟨draft, behind, shorter_trans lt h⟩
    else match memberStart first s b behind h with
      | .error e => .error e
      | .ok ⟨c, afterQuote, h₁⟩ =>
        if c = byte '"' then match stringRest afterQuote with
          | .error e => .error e
          | .ok ⟨name, afterName, h₂⟩ => match memberValue members draft name afterName with
            | .error e => .error e
            | .ok ⟨draft, rest, h₃⟩ =>
              have h₂ := shorter_trans h₁ h₂
              have h₃ := shorter_trans h₂ h₃
              objectTail members origin false draft rest (shorter_trans lt h₃)
        else .error .malformed
termination_by s.length
decreasing_by assumption

/-- The value of the next member of a list, which stands behind a comma unless it is the first. -/
def memberInPlace {α : Type} (reader : Reader α) (first : Bool) (s : List UInt8) (b : UInt8)
    (behind : List UInt8) (h : behind.length < s.length) : Except Fault (Step α s) :=
  if first then reader s
  else if b = byte ',' then match reader behind with
    | .ok ⟨value, rest, h'⟩ => .ok ⟨value, rest, shorter_trans h h'⟩
    | .error e => .error e
  else .error .malformed

/-- The members of a list up to its closing bracket, each in its place; `first` says that none has
been read.  Once the list has ended only members that may trail can be missing. -/
def listTail (origin : List UInt8) (first : Bool) (draft : σ) :
    (members : List (Member σ)) → (s : List UInt8) → s.length < origin.length →
    Except Fault (Step σ origin)
  | [], s, lt => match token s with
    | .error e => .error e
    | .ok ⟨b, behind, h⟩ =>
      if b = byte ']' then .ok ⟨draft, behind, shorter_trans lt h⟩ else .error .malformed
  | member :: members, s, lt => match token s with
    | .error e => .error e
    | .ok ⟨b, behind, h⟩ =>
      if b = byte ']' then
        if (member :: members).all (·.isTrailing) then .ok ⟨draft, behind, shorter_trans lt h⟩
        else .error .unexpected
      else match memberInPlace member.reader first s b behind h with
        | .error e => .error e
        | .ok ⟨put, rest, h⟩ => listTail origin false (put draft) members rest (shorter_trans lt h)

/-- A record with the given members; `finish` makes it from the draft unless one is missing. -/
def record (members : List (Member σ)) (empty : σ) (finish : σ → Option α) : Reader α :=
  refine finish fun s =>
    match token s with
    | .error e => .error e
    | .ok ⟨b, rest, lt⟩ =>
      if b = byte '{' then objectTail members s true empty rest lt
      else if b = byte '[' then listTail s true empty members rest lt
      else match scalar s with
        | .error e => .error e
        | .ok _ => .error .unexpected

end ProductSegments.Json

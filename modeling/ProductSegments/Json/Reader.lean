import ProductSegments.Number.Scaling
import ProductSegments.Text.Utf8

/-!
# Reading JSON

A document is read front to back in one pass, and each value is read as what the receiver expects
there.  The first fault met ends the reading; it lies either in the grammar or in the data, a
well-formed value that is not the expected one.

## Main definitions

* `Json.Fault` — the two classes of faults.
* `Json.Step`, `Json.Reader` — a value read from the front of some bytes, of which at least one is
  used up.
* `Json.Numeral.value` — the number that is read from a numeral, which need not be the nearest one.
* `Json.string`, `Json.integer`, `Json.number`, `Json.flag`, `Json.optional`, `Json.array` — the
  readers of single values and of lists.
* `Json.document` — the value that a whole document holds.
-/

namespace ProductSegments.Json

/-- Why a document cannot be read. -/
inductive Fault where
  /-- The bytes are no JSON document. -/
  | malformed
  /-- A well-formed value is not what is expected in its place. -/
  | unexpected
  deriving DecidableEq, Repr

/-- A value read from the front of `s`, and the bytes behind it. -/
structure Step (α : Type) (s : List UInt8) where
  value : α
  rest : List UInt8
  shorter : rest.length < s.length

/-- Reads a value from the front of some bytes. -/
abbrev Reader (α : Type) := (s : List UInt8) → Except Fault (Step α s)

/-- Reading `s` gives `value` and leaves `rest`. -/
def Reads {α : Type} (reader : Reader α) (s : List UInt8) (value : α) (rest : List UInt8) : Prop :=
  ∃ shorter, reader s = .ok ⟨value, rest, shorter⟩

theorem shorter_trans {s t u : List UInt8} (h : t.length < s.length) (h' : u.length < t.length) :
    u.length < s.length := Nat.lt_trans h' h

/-! ### Bytes -/

/-- The byte may stand between the parts of a document. -/
def isBlank (b : UInt8) : Bool := b = 0x20 || b = 0x0A || b = 0x0D || b = 0x09

/-- The bytes from the first one that is no blank. -/
def skipBlanks (s : List UInt8) : List UInt8 := s.dropWhile isBlank

theorem length_skipBlanks_le (s : List UInt8) : (skipBlanks s).length ≤ s.length := by
  induction s with
  | nil => simp [skipBlanks]
  | cons b s ih =>
    simp only [skipBlanks, List.dropWhile_cons] at ih ⊢
    split <;> simp only [List.length_cons] <;> omega

theorem length_of_skipBlanks {s rest : List UInt8} {b : UInt8} (h : skipBlanks s = b :: rest) :
    rest.length < s.length := by
  have := length_skipBlanks_le s
  rw [h, List.length_cons] at this
  omega

/-- The first byte that is no blank. -/
def token : Reader UInt8 := fun s =>
  match h : skipBlanks s with
  | [] => .error .malformed
  | b :: rest => .ok ⟨b, rest, length_of_skipBlanks h⟩

/-- The byte of an ASCII character. -/
abbrev byte (c : Char) : UInt8 := UInt8.ofNat c.toNat

/-- The byte is a decimal digit. -/
def isDigit (b : UInt8) : Bool := byte '0' ≤ b && b ≤ byte '9'

/-- The given bytes in front, and the bytes behind them. -/
def exactly? (expected : List UInt8) (s : List UInt8) : Option (List UInt8) :=
  if expected.isPrefixOf s then some (s.drop expected.length) else none

theorem length_exactly? {expected s rest : List UInt8} (h : exactly? expected s = some rest) :
    rest.length ≤ s.length := by
  simp only [exactly?] at h
  split at h
  · simp only [Option.some.injEq] at h; simp [← h]
  · cases h

/-! ### Strings -/

/-- The value of a hexadecimal digit. -/
def hexDigit? (b : UInt8) : Option Nat :=
  if isDigit b then some (b - byte '0').toNat
  else if byte 'a' ≤ b && b ≤ byte 'f' then some ((b - byte 'a').toNat + 10)
  else if byte 'A' ≤ b && b ≤ byte 'F' then some ((b - byte 'A').toNat + 10)
  else none

/-- The number spelled by four hexadecimal digits in front. -/
def hexQuad? : List UInt8 → Option (Nat × List UInt8)
  | a :: b :: c :: d :: s => do
    let (a, b, c, d) := (← hexDigit? a, ← hexDigit? b, ← hexDigit? c, ← hexDigit? d)
    some (((a * 16 + b) * 16 + c) * 16 + d, s)
  | _ => none

theorem length_hexQuad? {s rest : List UInt8} {n : Nat} (h : hexQuad? s = some (n, rest)) :
    rest.length ≤ s.length := by
  match s, h with
  | a :: b :: c :: d :: s, h =>
    simp only [hexQuad?, Option.bind_eq_bind, Option.bind_eq_some_iff, Option.some.injEq,
      Prod.mk.injEq] at h
    obtain ⟨_, _, _, _, _, _, _, _, _, rfl⟩ := h
    simp only [List.length_cons]; omega

/-- The character that a letter behind a backslash stands for. -/
def escapeLetter? (b : UInt8) : Option Char :=
  if b = byte '"' then some '"'
  else if b = byte '\\' then some '\\'
  else if b = byte '/' then some '/'
  else if b = byte 'b' then some '\x08'
  else if b = byte 'f' then some '\x0c'
  else if b = byte 'n' then some '\n'
  else if b = byte 'r' then some '\r'
  else if b = byte 't' then some '\t'
  else none

/-- The character escaped by the digits behind `\u`, or by two such escapes that are the halves of
a surrogate pair. -/
def escapeDigits? (s : List UInt8) : Option (Char × List UInt8) := do
  let (high, s) ← hexQuad? s
  if high < 0xD800 ∨ 0xE000 ≤ high then some (.ofNat high, s)
  else if 0xDC00 ≤ high then none
  else
    let (low, s) ← hexQuad? (← exactly? [byte '\\', byte 'u'] s)
    if 0xDC00 ≤ low ∧ low < 0xE000 then
      some (.ofNat (0x10000 + (high - 0xD800) * 0x400 + (low - 0xDC00)), s)
    else none

/-- The character at the front of a string: escaped, or written as it is. -/
def character? : List UInt8 → Option (Char × List UInt8)
  | [] => none
  | b :: s =>
    if b = byte '\\' then
      match s with
      | [] => none
      | letter :: s =>
        if letter = byte 'u' then escapeDigits? s
        else (escapeLetter? letter).map fun c => (c, s)
    else if b < 0x20 then none
    else Utf8.next? (b :: s)

theorem length_escapeDigits? {s rest : List UInt8} {c : Char}
    (h : escapeDigits? s = some (c, rest)) : rest.length ≤ s.length := by
  simp only [escapeDigits?, Option.bind_eq_bind, Option.bind_eq_some_iff, Prod.exists] at h
  obtain ⟨high, t, hq, h⟩ := h
  have := length_hexQuad? hq
  split at h
  · simp only [Option.some.injEq, Prod.mk.injEq] at h; simpa [← h.2]
  · split at h
    · cases h
    · simp only [Option.bind_eq_some_iff, Prod.exists] at h
      obtain ⟨u, hu, low, v, hv, h⟩ := h
      have := length_exactly? hu
      have := length_hexQuad? hv
      split at h
      · simp only [Option.some.injEq, Prod.mk.injEq] at h; rw [← h.2]; omega
      · cases h

theorem length_character? {s rest : List UInt8} {c : Char} (h : character? s = some (c, rest)) :
    rest.length < s.length := by
  cases s with
  | nil => cases h
  | cons b s =>
    simp only [character?] at h
    split at h
    · cases s with
      | nil => cases h
      | cons letter s =>
        simp only at h
        split at h
        · have := length_escapeDigits? h; simp only [List.length_cons]; omega
        · simp only [Option.map_eq_some_iff, Prod.mk.injEq] at h
          obtain ⟨_, _, _, rfl⟩ := h
          simp only [List.length_cons]; omega
    · split at h
      · cases h
      · exact Utf8.length_next? h

theorem length_character?_cons {b : UInt8} {tail rest : List UInt8} {c : Char}
    (h : character? (b :: tail) = some (c, rest)) : rest.length < (b :: tail).length :=
  length_character? h

theorem length_tail_lt {b : UInt8} {tail origin : List UInt8}
    (le : (b :: tail).length ≤ origin.length) : tail.length < origin.length := le

theorem length_rest_le {b : UInt8} {tail rest origin : List UInt8}
    (le : (b :: tail).length ≤ origin.length) (lt : rest.length < (b :: tail).length) :
    rest.length ≤ origin.length := Nat.le_trans (Nat.le_of_lt lt) le

theorem length_le_self (s : List UInt8) : s.length ≤ s.length := Nat.le_refl _

/-- The characters read so far, reversed, continued up to the closing quote. -/
def stringTail (origin : List UInt8) (read : List Char) (s : List UInt8)
    (le : s.length ≤ origin.length) : Except Fault (Step (List Char) origin) :=
  match s with
  | [] => .error .malformed
  | b :: tail =>
    if b = byte '"' then .ok ⟨read.reverse, tail, length_tail_lt le⟩
    else match h : character? (b :: tail) with
      | none => .error .malformed
      | some (c, rest) =>
        have lt := length_character?_cons h
        stringTail origin (c :: read) rest (length_rest_le le lt)
termination_by s.length
decreasing_by assumption

/-- A string behind its first quote. -/
def stringRest : Reader (List Char) := fun s => stringTail s [] s (length_le_self s)

/-! ### Numbers -/

/-- A number as it is written in a document. -/
structure Numeral where
  negative : Bool
  /-- The digits before the point. -/
  whole : List UInt8
  /-- The digits behind the point, none if there is no point. -/
  fraction : List UInt8
  /-- The sign of the exponent, which says that it is negative, and its digits. -/
  exponent? : Option (Bool × List UInt8)
  deriving DecidableEq, Repr

/-- The number spelled by some digits. -/
def ofDigits (ds : List UInt8) : Nat := ds.foldl (fun n d => 10 * n + (d - byte '0').toNat) 0

/-- The exponent of a numeral, which is zero if none is written. -/
def Numeral.power (n : Numeral) : Int := match n.exponent? with
  | some (negative, ds) => if negative then -(ofDigits ds : Int) else ofDigits ds
  | none => 0

/-- A number with further digits behind it as long as it fits 64 bits, and the digits left over. -/
def takeDigits (n : Nat) : List UInt8 → Nat × List UInt8
  | [] => (n, [])
  | d :: ds =>
    let next := 10 * n + (d - byte '0').toNat
    if next < UInt64.size then takeDigits next ds else (n, d :: ds)

/-- The number that is read from a numeral.  Of the digits that do not fit 64 bits those before the
point count as zeros, and those behind it do not count. -/
def Numeral.value (n : Numeral) : Binary64 :=
  let (significand, zeros) := takeDigits 0 n.whole
  let (significand, dropped) := takeDigits significand n.fraction
  let exponent := n.power + zeros.length + dropped.length - n.fraction.length
  Decimal.inSteps ⟨n.negative, significand, exponent⟩

/-- The number in front of which the sign stands, if it is written without point and exponent. -/
def Numeral.natural? (n : Numeral) : Option Nat :=
  if n.fraction.isEmpty && n.exponent?.isNone then some (ofDigits n.whole) else none

/-- Digits in front, at least one, and the bytes behind them. -/
def digits? (s : List UInt8) : Option (List UInt8 × List UInt8) :=
  let ds := s.takeWhile isDigit
  if ds.isEmpty then none else some (ds, s.dropWhile isDigit)

theorem length_digits? {s ds rest : List UInt8} (h : digits? s = some (ds, rest)) :
    rest.length < s.length := by
  simp only [digits?] at h
  split at h
  · cases h
  · rename_i ne
    simp only [Option.some.injEq, Prod.mk.injEq] at h
    rw [← h.2]
    have := congrArg List.length (List.takeWhile_append_dropWhile (p := isDigit) (l := s))
    simp only [List.length_append] at this
    have : 0 < (s.takeWhile isDigit).length :=
      List.length_pos_iff.2 (by simpa using ne)
    omega

/-- The digits before the point: a leading zero stands alone. -/
def wholePart? (s : List UInt8) : Option (List UInt8 × List UInt8) := do
  let (ds, rest) ← digits? s
  if ds.head? = some (byte '0') ∧ ds.length ≠ 1 then none else some (ds, rest)

/-- The digits behind a point, none if there is no point. -/
def fraction? : List UInt8 → Option (List UInt8 × List UInt8)
  | b :: s => if b = byte '.' then digits? s else some ([], b :: s)
  | [] => some ([], [])

/-- The exponent, if there is an `e`. -/
def exponent? : List UInt8 → Option (Option (Bool × List UInt8) × List UInt8)
  | [] => some (none, [])
  | b :: s =>
    if b = byte 'e' ∨ b = byte 'E' then do
      let (negative, s) := match s with
        | c :: t => if c = byte '-' then (true, t) else if c = byte '+' then (false, t) else (false, s)
        | [] => (false, s)
      let (ds, rest) ← digits? s
      some (some (negative, ds), rest)
    else some (none, b :: s)

/-- The number at the front of some bytes, by the grammar alone. -/
def numeral? (s : List UInt8) : Option (Numeral × List UInt8) := do
  let (negative, s) := match s with
    | b :: t => if b = byte '-' then (true, t) else (false, s)
    | [] => (false, s)
  let (whole, s) ← wholePart? s
  let (fraction, s) ← fraction? s
  let (exponent, s) ← exponent? s
  some (⟨negative, whole, fraction, exponent⟩, s)

theorem length_wholePart? {s ds rest : List UInt8} (h : wholePart? s = some (ds, rest)) :
    rest.length < s.length := by
  simp only [wholePart?, Option.bind_eq_bind, Option.bind_eq_some_iff, Prod.exists] at h
  obtain ⟨ds', rest', hd, h⟩ := h
  split at h
  · cases h
  · simp only [Option.some.injEq, Prod.mk.injEq] at h
    exact h.2 ▸ length_digits? hd

theorem length_fraction? {s ds rest : List UInt8} (h : fraction? s = some (ds, rest)) :
    rest.length ≤ s.length := by
  match s, h with
  | [], h => simp only [fraction?, Option.some.injEq, Prod.mk.injEq] at h; simp [← h.2]
  | b :: s, h =>
    simp only [fraction?] at h
    split at h
    · have := length_digits? h; simp only [List.length_cons]; omega
    · simp only [Option.some.injEq, Prod.mk.injEq] at h; simp [← h.2]

theorem length_exponent? {s rest : List UInt8} {e : Option (Bool × List UInt8)}
    (h : exponent? s = some (e, rest)) : rest.length ≤ s.length := by
  match s, h with
  | [], h => simp only [exponent?, Option.some.injEq, Prod.mk.injEq] at h; simp [← h.2]
  | b :: s, h =>
    simp only [exponent?] at h
    split at h
    · simp only [Option.bind_eq_bind, Option.bind_eq_some_iff, Prod.exists, Option.some.injEq,
        Prod.mk.injEq] at h
      obtain ⟨ds, t, hd, _, rfl⟩ := h
      have := length_digits? hd
      simp only [List.length_cons]
      split at this
      · split at this
        · simp_all; omega
        · split at this <;> simp_all <;> omega
      · simp_all
    · simp only [Option.some.injEq, Prod.mk.injEq] at h; simp [← h.2]

theorem length_numeral? {s rest : List UInt8} {n : Numeral} (h : numeral? s = some (n, rest)) :
    rest.length < s.length := by
  simp only [numeral?, Option.bind_eq_bind, Option.bind_eq_some_iff, Prod.exists, Option.some.injEq,
    Prod.mk.injEq] at h
  obtain ⟨ds, t, hw, fs, u, hf, e, v, he, _, rfl⟩ := h
  have h₁ := length_wholePart? hw
  have h₂ := length_fraction? hf
  have h₃ := length_exponent? he
  have h₄ : ∀ s : List UInt8, (match s with
      | b :: t => if b = byte '-' then (true, t) else (false, s)
      | [] => (false, s)).2.length ≤ s.length := by
    intro s; split
    · split <;> simp
    · simp
  exact Nat.lt_of_le_of_lt (Nat.le_trans h₃ h₂) (Nat.lt_of_lt_of_le h₁ (h₄ s))

/-- The number at the front of some bytes; one beyond every finite value is no number. -/
def number? (s : List UInt8) : Option (Numeral × List UInt8) :=
  match numeral? s with
  | some (n, rest) => if n.value.isFinite then some (n, rest) else none
  | none => none

theorem length_number? {s rest : List UInt8} {n : Numeral} (h : number? s = some (n, rest)) :
    rest.length < s.length := by
  simp only [number?] at h
  split at h
  · rename_i m t e
    split at h
    · simp only [Option.some.injEq, Prod.mk.injEq] at h
      exact h.2 ▸ length_numeral? e
    · cases h
  · cases h

/-! ### Single values -/

/-- The kinds of values, told apart by their first byte. -/
inductive Kind where
  | null | flag | number | string | array | object
  deriving DecidableEq, Repr

/-- The kind of value that a first byte announces. -/
def Kind.ofByte? (b : UInt8) : Option Kind :=
  if b = byte 'n' then some .null
  else if b = byte 't' ∨ b = byte 'f' then some .flag
  else if b = byte '-' ∨ isDigit b then some .number
  else if b = byte '"' then some .string
  else if b = byte '[' then some .array
  else if b = byte '{' then some .object
  else none

/-- A scalar value: what a reader must take in to see that it is not the expected one. -/
inductive Scalar where
  | null
  | flag (value : Bool)
  | number (value : Numeral)
  | string (value : List Char)
  deriving DecidableEq, Repr

/-- The bytes of an ASCII text. -/
def ascii (text : String) : List UInt8 := text.toList.map byte

theorem length_exactly?_lt {expected s rest origin : List UInt8}
    (h : exactly? expected s = some rest) (lt : s.length < origin.length) :
    rest.length < origin.length := Nat.lt_of_le_of_lt (length_exactly? h) lt

theorem length_number?_lt {s rest : List UInt8} {n : Numeral}
    (h : number? (skipBlanks s) = some (n, rest)) : rest.length < s.length :=
  Nat.lt_of_lt_of_le (length_number? h) (length_skipBlanks_le s)

/-- The word in front, as a value. -/
def word {α : Type} (expected : List UInt8) (value : α) (s origin : List UInt8)
    (lt : s.length < origin.length) : Except Fault (Step α origin) :=
  match h : exactly? expected s with
  | some rest => .ok ⟨value, rest, length_exactly?_lt h lt⟩
  | none => .error .malformed

/-- The next value, which must be a scalar. -/
def scalar : Reader Scalar := fun s =>
  match token s with
  | .error e => .error e
  | .ok ⟨b, rest, lt⟩ =>
    match Kind.ofByte? b with
    | some .null => word (ascii "ull") .null rest s lt
    | some .flag =>
      if b = byte 't' then word (ascii "rue") (.flag true) rest s lt
      else word (ascii "alse") (.flag false) rest s lt
    | some .number => match h : number? (skipBlanks s) with
      | some (n, rest) => .ok ⟨.number n, rest, length_number?_lt h⟩
      | none => .error .malformed
    | some .string => match stringRest rest with
      | .ok ⟨cs, rest', lt'⟩ => .ok ⟨.string cs, rest', shorter_trans lt lt'⟩
      | .error e => .error e
    | some .array | some .object => .error .unexpected
    | none => .error .malformed

/-- The next value, if it is a scalar of the expected form. -/
def expect {α : Type} (select : Scalar → Except Fault α) : Reader α := fun s => do
  let ⟨value, rest, lt⟩ ← scalar s
  return ⟨← select value, rest, lt⟩

/-- A string. -/
def string : Reader (List Char) := expect fun
  | .string cs => .ok cs
  | _ => .error .unexpected

/-- A whole number that fits 64 bits with a sign.  It is written without point, exponent and
without a sign in front of zero. -/
def integer : Reader Int64 := expect fun
  | .number numeral => match numeral.natural? with
    | some digits =>
      let n : Int := if numeral.negative then -(digits : Int) else digits
      if (numeral.negative && digits == 0) || !Integer.fits64 n then .error .unexpected
      else .ok (.ofInt n)
    | none => .error .unexpected
  | _ => .error .unexpected

/-- A whole number that is not negative and fits 64 bits. -/
def natural : Reader Nat := expect fun
  | .number numeral => match numeral.natural? with
    | some n => if !numeral.negative && n < UInt64.size then .ok n else .error .unexpected
    | none => .error .unexpected
  | _ => .error .unexpected

/-- A number of any form. -/
def number : Reader Binary64 := expect fun
  | .number n => .ok n.value
  | _ => .error .unexpected

/-- `true` or `false`. -/
def flag : Reader Bool := expect fun
  | .flag b => .ok b
  | _ => .error .unexpected

/-- `null`. -/
def null : Reader Unit := expect fun
  | .null => .ok ()
  | _ => .error .unexpected

/-- `null`, or the value that `reader` reads. -/
def optional {α : Type} (reader : Reader α) : Reader (Option α) := fun s =>
  match token s with
  | .error e => .error e
  | .ok ⟨b, rest, lt⟩ =>
    if b = byte 'n' then word (ascii "ull") none rest s lt
    else do
      let ⟨value, rest, lt⟩ ← reader s
      return ⟨some value, rest, lt⟩

/-- The value that `reader` reads, changed by `f`, which may not expect it. -/
def refine {α β : Type} (f : α → Option β) (reader : Reader α) : Reader β := fun s => do
  let ⟨value, rest, lt⟩ ← reader s
  match f value with
  | some result => return ⟨result, rest, lt⟩
  | none => throw .unexpected

/-! ### Lists -/

/-- The items read so far, reversed, continued up to the closing bracket `close`. -/
def itemsTail {α : Type} (item : Reader α) (close : UInt8) (origin : List UInt8) (read : List α)
    (s : List UInt8) (lt : s.length < origin.length) : Except Fault (Step (List α) origin) :=
  match token s with
  | .error e => .error e
  | .ok ⟨b, behind, h⟩ =>
    if b = close then .ok ⟨read.reverse, behind, shorter_trans lt h⟩
    else if read.isEmpty then
      match item s with
      | .error e => .error e
      | .ok ⟨value, rest, h⟩ => itemsTail item close origin [value] rest (shorter_trans lt h)
    else if b = byte ',' then
      match item behind with
      | .error e => .error e
      | .ok ⟨value, rest, h'⟩ =>
        have h := shorter_trans h h'
        itemsTail item close origin (value :: read) rest (shorter_trans lt h)
    else .error .malformed
termination_by s.length
decreasing_by all_goals assumption

/-- A list in brackets of what `item` reads. -/
def array {α : Type} (item : Reader α) : Reader (List α) := fun s =>
  match token s with
  | .error e => .error e
  | .ok ⟨b, rest, lt⟩ =>
    if b = byte '[' then itemsTail item (byte ']') s [] rest lt
    else match scalar s with
      | .error e => .error e
      | .ok _ => .error .unexpected

/-! ### Whole documents -/

/-- The value that a document holds; only blanks may follow it. -/
def document {α : Type} (reader : Reader α) (s : List UInt8) : Except Fault α := do
  let ⟨value, rest, _⟩ ← reader s
  if (skipBlanks rest).isEmpty then return value else throw .malformed

end ProductSegments.Json

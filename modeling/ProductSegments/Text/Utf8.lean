/-!
# UTF-8

Documents travel as bytes.  A character is read from the bytes in front of it, which are exactly
the bytes it is written as: no overlong form, no surrogate, nothing above U+10FFFF.

## Main definitions

* `Utf8.encode` — the bytes of a text.
* `Utf8.next?` — the character at the front of some bytes, and the bytes behind it.
* `Utf8.decode?` — the text that some bytes spell.
-/

namespace ProductSegments.Utf8

/-- The bytes of a text. -/
def encode (cs : List Char) : List UInt8 := cs.flatMap String.utf8EncodeChar

@[simp] theorem encode_nil : encode [] = [] := rfl

@[simp] theorem encode_cons (c : Char) (cs : List Char) :
    encode (c :: cs) = String.utf8EncodeChar c ++ encode cs := rfl

@[simp] theorem encode_append (cs ds : List Char) : encode (cs ++ ds) = encode cs ++ encode ds :=
  List.flatMap_append

/-- The bytes of a string. -/
def ofString (text : String) : List UInt8 := encode text.toList

/-- The code point that starts with the bits of `value` and takes six more from each of `count`
continuation bytes. -/
def continued? (value : Nat) : Nat → List UInt8 → Option (Nat × List UInt8)
  | 0, s => some (value, s)
  | count + 1, b :: s =>
    if 0x80 ≤ b ∧ b < 0xC0 then continued? (value * 64 + (b.toNat - 0x80)) count s else none
  | _ + 1, [] => none

/-- The character at the front of some bytes, and the bytes behind it. -/
def next? : List UInt8 → Option (Char × List UInt8)
  | [] => none
  | a :: s =>
    if a < 0x80 then some (.ofNat a.toNat, s)
    else if a < 0xC0 then none
    else if a < 0xE0 then character 0x80 (continued? (a.toNat - 0xC0) 1 s)
    else if a < 0xF0 then character 0x800 (continued? (a.toNat - 0xE0) 2 s)
    else if a < 0xF8 then character 0x10000 (continued? (a.toNat - 0xF0) 3 s)
    else none
where
  /-- The character of a code point that needs as many bytes as it was written with. -/
  character (least : Nat) : Option (Nat × List UInt8) → Option (Char × List UInt8)
    | some (point, s) => if least ≤ point ∧ point.isValidChar then some (.ofNat point, s) else none
    | none => none

theorem length_continued? {count value point : Nat} {s r : List UInt8}
    (h : continued? value count s = some (point, r)) : r.length ≤ s.length := by
  induction count generalizing value s with
  | zero => simp only [continued?, Option.some.injEq, Prod.mk.injEq] at h; simp [h.2]
  | succ count ih =>
    cases s with
    | nil => simp [continued?] at h
    | cons b s =>
      simp only [continued?] at h
      split at h
      · have := ih h; simp only [List.length_cons]; omega
      · cases h

theorem length_next? {s r : List UInt8} {c : Char} (h : next? s = some (c, r)) :
    r.length < s.length := by
  have inner : ∀ {least count value : Nat} {s : List UInt8},
      next?.character least (continued? value count s) = some (c, r) → r.length ≤ s.length := by
    intro least count value s h
    match e : continued? value count s with
    | none => simp [e, next?.character] at h
    | some (point, t) =>
      simp only [e, next?.character] at h
      split at h
      · simp only [Option.some.injEq, Prod.mk.injEq] at h
        exact h.2 ▸ length_continued? e
      · cases h
  cases s with
  | nil => simp [next?] at h
  | cons a s =>
    simp only [next?] at h
    simp only [List.length_cons, Nat.lt_succ_iff]
    split at h
    · simp only [Option.some.injEq, Prod.mk.injEq] at h; simp [h.2]
    · split at h
      · cases h
      · split at h
        · exact inner h
        · split at h
          · exact inner h
          · split at h
            · exact inner h
            · cases h

/-- The text that some bytes spell, if they spell one. -/
def decode? (s : List UInt8) : Option (List Char) := go [] s
where
  /-- The text read so far, reversed, continued by what the bytes spell. -/
  go (read : List Char) (s : List UInt8) : Option (List Char) :=
    match s with
    | [] => some read.reverse
    | a :: tail => match h : next? (a :: tail) with
      | none => none
      | some (c, rest) =>
        have := length_next? h
        go (c :: read) rest
  termination_by s.length
  decreasing_by assumption

end ProductSegments.Utf8

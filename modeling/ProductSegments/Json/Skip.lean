import ProductSegments.Json.Reader

/-!
# Skipped values

A value that nobody looks at is skipped by its grammar alone: its strings may hold any bytes and
any escapes, its numbers may be of any size, and it may be nested to any depth.

## Main definitions

* `Json.Skipping` — how far a value has been skipped; `Json.Skipping.part?` skips one more part of it.
* `Json.skip` — the reader that skips a value.
-/

namespace ProductSegments.Json

/-- A container that is still open. -/
inductive Bracket where
  | square
  | curly
  deriving DecidableEq, Repr

/-- The byte that closes a container. -/
def Bracket.close : Bracket → UInt8
  | .square => byte ']'
  | .curly => byte '}'

/-- What must come next in a value that is being skipped. -/
inductive Awaiting where
  /-- A value. -/
  | value
  /-- The first part of the container just opened, or its end. -/
  | first
  /-- The name of a member. -/
  | name
  /-- A comma, or the end of the innermost container. -/
  | separator
  deriving DecidableEq, Repr

/-- What stands between two quotes, with the grammar of escapes only. -/
def skipStringTail (s : List UInt8) : Option (List UInt8) :=
  match s with
  | [] => none
  | b :: s =>
    if b = byte '"' then some s
    else if b < 0x20 then none
    else if b = byte '\\' then
      match s with
      | [] => none
      | letter :: s =>
        if letter = byte 'u' then match h : hexQuad? s with
          | some (_, rest) =>
            have := length_hexQuad? h
            skipStringTail rest
          | none => none
        else if (escapeLetter? letter).isSome then skipStringTail s
        else none
    else skipStringTail s
termination_by s.length

theorem length_skipStringTail {s rest : List UInt8} (h : skipStringTail s = some rest) :
    rest.length < s.length := by
  fun_induction skipStringTail s with
  | case1 => cases h
  | case2 => simp only [Option.some.injEq] at h; simp [h]
  | case3 => cases h
  | case4 => cases h
  | case5 => rename_i ih; have := ih h; simp only [List.length_cons]; omega
  | case6 => cases h
  | case7 => rename_i ih; have := ih h; simp only [List.length_cons]; omega
  | case8 => cases h
  | case9 => rename_i ih; have := ih h; simp only [List.length_cons]; omega

/-- The bytes behind the scalar whose first byte is the one in front. -/
def skipScalar? : List UInt8 → Option (List UInt8)
  | [] => none
  | b :: s => match Kind.ofByte? b with
    | some .null => exactly? (ascii "ull") s
    | some .flag =>
      if b = byte 't' then exactly? (ascii "rue") s
      else exactly? (ascii "alse") s
    | some .number => (numeral? (b :: s)).map Prod.snd
    | some .string => skipStringTail s
    | _ => none

theorem length_skipScalar? {s rest : List UInt8} (h : skipScalar? s = some rest) :
    rest.length < s.length := by
  match s, h with
  | b :: s, h =>
    simp only [skipScalar?] at h
    simp only [List.length_cons, Nat.lt_succ_iff]
    split at h
    · exact length_exactly? h
    · split at h <;> exact length_exactly? h
    · simp only [Option.map_eq_some_iff, Prod.exists, exists_eq_right] at h
      obtain ⟨n, h⟩ := h
      have := length_numeral? h
      simp only [List.length_cons] at this; omega
    · exact Nat.le_of_lt (length_skipStringTail h)
    · cases h

/-- A name and the colon behind it, from the first byte that is no blank. -/
def skipName? : List UInt8 → Option (List UInt8)
  | [] => none
  | b :: s =>
    if b = byte '"' then match skipStringTail s with
      | some rest => match token rest with
        | .ok ⟨c, rest, _⟩ => if c = byte ':' then some rest else none
        | .error _ => none
      | none => none
    else none

theorem length_skipName? {s rest : List UInt8} (h : skipName? s = some rest) :
    rest.length < s.length := by
  match s, h with
  | b :: s, h =>
    simp only [skipName?] at h
    split at h
    · split at h
      · rename_i t ht
        have := length_skipStringTail ht
        split at h
        · rename_i shorter _
          split at h
          · simp only [Option.some.injEq] at h; subst h
            simp only [List.length_cons]; omega
          · cases h
        · cases h
      · cases h
    · cases h

/-- How far a value has been skipped: what must come next, and the open containers, the innermost
first. -/
structure Skipping where
  awaiting : Awaiting
  containers : List Bracket
  deriving DecidableEq, Repr

namespace Skipping

/-- Nothing has been skipped. -/
def start : Skipping := ⟨.value, []⟩

/-- The whole value has been skipped. -/
def done : Skipping := ⟨.separator, []⟩

/-- Skip the scalar, or enter the container, at the front. -/
def value? (containers : List Bracket) : List UInt8 → Option (Skipping × List UInt8)
  | [] => none
  | b :: s =>
    if b = byte '[' then some (⟨.first, .square :: containers⟩, s)
    else if b = byte '{' then some (⟨.first, .curly :: containers⟩, s)
    else (skipScalar? (b :: s)).map (⟨.separator, containers⟩, ·)

/-- Skip the name of a member. -/
def name? (containers : List Bracket) (s : List UInt8) : Option (Skipping × List UInt8) :=
  (skipName? s).map (⟨.value, containers⟩, ·)

/-- Skip one part of the value, from the first byte that is no blank. -/
def part? (state : Skipping) (s : List UInt8) : Option (Skipping × List UInt8) :=
  match state, s with
  | _, [] => none
  | ⟨.value, containers⟩, s => value? containers s
  | ⟨.name, containers⟩, s => name? containers s
  | ⟨_, []⟩, _ => none
  | ⟨.first, container :: others⟩, b :: rest =>
    if b = container.close then some (⟨.separator, others⟩, rest)
    else match container with
      | .square => value? (.square :: others) (b :: rest)
      | .curly => name? (.curly :: others) (b :: rest)
  | ⟨.separator, container :: others⟩, b :: rest =>
    if b = container.close then some (⟨.separator, others⟩, rest)
    else if b = byte ',' then match container with
      | .square => some (⟨.value, .square :: others⟩, rest)
      | .curly => some (⟨.name, .curly :: others⟩, rest)
    else none

theorem length_value? {containers : List Bracket} {state : Skipping} {s rest : List UInt8}
    (h : value? containers s = some (state, rest)) : rest.length < s.length := by
  match s, h with
  | b :: s, h =>
    simp only [value?] at h
    split at h
    · simp only [Option.some.injEq, Prod.mk.injEq] at h; simp [h.2]
    · split at h
      · simp only [Option.some.injEq, Prod.mk.injEq] at h; simp [h.2]
      · simp only [Option.map_eq_some_iff, Prod.mk.injEq] at h
        obtain ⟨t, ht, _, rfl⟩ := h
        exact length_skipScalar? ht

theorem length_name? {containers : List Bracket} {state : Skipping} {s rest : List UInt8}
    (h : name? containers s = some (state, rest)) : rest.length < s.length := by
  simp only [name?, Option.map_eq_some_iff, Prod.mk.injEq] at h
  obtain ⟨t, ht, _, rfl⟩ := h
  exact length_skipName? ht

theorem length_part? {state next : Skipping} {s rest : List UInt8}
    (h : part? state s = some (next, rest)) : rest.length < s.length := by
  obtain ⟨awaiting, containers⟩ := state
  match s, awaiting, containers with
  | [], .value, _ | [], .name, _ | [], .first, _ | [], .separator, _ => cases h
  | _ :: _, .value, _ => exact length_value? h
  | _ :: _, .name, _ => exact length_name? h
  | _ :: _, .first, [] | _ :: _, .separator, [] => cases h
  | b :: s, .first, container :: others =>
    simp only [part?] at h
    split at h
    · simp only [Option.some.injEq, Prod.mk.injEq] at h; simp [h.2]
    · cases container with
      | square => exact length_value? h
      | curly => exact length_name? h
  | b :: s, .separator, container :: others =>
    simp only [part?] at h
    split at h
    · simp only [Option.some.injEq, Prod.mk.injEq] at h; simp [h.2]
    · split at h
      · cases container with
        | square | curly => simp only [Option.some.injEq, Prod.mk.injEq] at h; simp [h.2]
      · cases h

/-- Skip parts until the whole value has been skipped. -/
def run? (state : Skipping) (s : List UInt8) : Option (List UInt8) :=
  if state = done then some s
  else match h : part? state (skipBlanks s) with
    | none => none
    | some (next, rest) =>
      have := length_part? h
      have := length_skipBlanks_le s
      run? next rest
termination_by s.length

theorem length_run? {state : Skipping} {s rest : List UInt8} (h : run? state s = some rest) :
    rest.length ≤ s.length ∧ (state ≠ done → rest.length < s.length) := by
  fun_induction run? state s with
  | case1 => simp only [Option.some.injEq] at h; simp [h]
  | case2 => cases h
  | case3 s _ _ _ _ _ _ _ ih => have := ih h; omega

end Skipping

/-- A value that nobody looks at. -/
def skip : Reader Unit := fun s =>
  match h : Skipping.run? .start s with
  | some rest => .ok ⟨(), rest, (Skipping.length_run? h).2 (by decide)⟩
  | none => .error .malformed

end ProductSegments.Json

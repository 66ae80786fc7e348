import ProductSegments.Json.Skip
import ProductSegments.Proofs.Json.Containers

/-!
# Skipped values are the JSON values

A value that nobody looks at is skipped by a machine with a stack of open containers.  Here the
machine is shown to be compositional: what lies below on the stack does not matter until the value
has been skipped.  So the containers are skipped part by part, and the texts that are skipped are
those of the grammar.

## Main results

* `Json.Skipping.exists_run` — what is skipped is skipped alike wherever it may end.
* `Json.Skipping.run?_within` — open containers below wait until those above have been closed.
* `Json.document_skip_iff` — **what is skipped as a document is a JSON value**.
-/

namespace ProductSegments.Json

variable {s rest : List UInt8}

/-! ### Scalars and names -/

/-- What is skipped as a scalar is one. -/
theorem exists_isScalar (h : skipScalar? s = some rest) : ∃ t, IsScalar t ∧ s = t ++ rest := by
  match s, h with
  | b :: s, h =>
    simp only [skipScalar?] at h
    split at h
    · next kind =>
      obtain ⟨-, rfl⟩ := (Kind.cases_ofByte? kind).resolve_right (by simp)
      obtain rfl := exactly?_eq_some_iff.mp h
      exact ⟨_, .null, rfl⟩
    · next kind =>
      have isFlag : b = byte 't' ∨ b = byte 'f' := by
        simpa using Kind.cases_ofByte? kind
      split at h
      · next isTrue =>
        subst isTrue
        obtain rfl := exactly?_eq_some_iff.mp h
        exact ⟨_, .flag true, rfl⟩
      · next notTrue =>
        obtain rfl := isFlag.resolve_left notTrue
        obtain rfl := exactly?_eq_some_iff.mp h
        exact ⟨_, .flag false, rfl⟩
    · obtain ⟨⟨m, rest'⟩, numeral, rfl⟩ := Option.map_eq_some_iff.mp h
      obtain ⟨n, plain, -, chars⟩ := exists_of_numeral? numeral
      exact ⟨_, .number ⟨n, plain, rfl⟩, chars⟩
    · next kind =>
      have quote : b = byte '"' := by
        simpa using Kind.cases_ofByte? kind
      subst quote
      obtain ⟨raw, passes, rfl⟩ := skipStringTail_eq_some_iff.mp h
      exact ⟨_, .string passes, by simp⟩
    · cases h

/-- A scalar is skipped, wherever a value may end behind it. -/
theorem IsScalar.exists_cons {t : List UInt8} (h : IsScalar t) :
    ∃ b behind kind, t = b :: behind ∧ Kind.ofByte? b = some kind ∧ kind ≠ .array ∧
      kind ≠ .object ∧ ∀ rest, Ended rest → skipScalar? (b :: (behind ++ rest)) = some rest := by
  cases h with
  | null =>
    exact ⟨_, _, .null, rfl, rfl, (by decide), (by decide), fun rest _ => exactly?_eq_some_iff.mpr rfl⟩
  | flag b =>
    cases b with
    | true =>
      refine ⟨byte 't', ascii "rue", .flag, rfl, rfl, (by decide), (by decide), fun rest _ => ?_⟩
      show exactly? (ascii "rue") (ascii "rue" ++ rest) = some rest
      exact exactly?_eq_some_iff.mpr rfl
    | false =>
      refine ⟨byte 'f', ascii "alse", .flag, rfl, rfl, (by decide), (by decide), fun rest _ => ?_⟩
      show exactly? (ascii "alse") (ascii "alse" ++ rest) = some rest
      exact exactly?_eq_some_iff.mpr rfl
  | number h =>
    obtain ⟨n, plain, rfl⟩ := h
    obtain ⟨b, behind, written, announces⟩ := exists_byte_of_isPlain plain
    refine ⟨b, behind, .number, written, announces, (by decide), (by decide), fun rest ended => ?_⟩
    have numeral := numeral?_of_isPlain plain ended
    rw [written, List.cons_append] at numeral
    simp only [skipScalar?, announces, numeral, Option.map_some]
  | @string raw passes =>
    refine ⟨_, _, .string, rfl, rfl, (by decide), (by decide), fun rest _ => ?_⟩
    exact skipStringTail_eq_some_iff.mpr ⟨raw, passes, by simp⟩

/-- A name that is skipped stands in quotes in front of a colon. -/
theorem skipName?_eq_some_iff : skipName? s = some rest ↔ ∃ name gap, Passes name ∧ IsGap gap ∧
    s = byte '"' :: (name ++ byte '"' :: (gap ++ byte ':' :: rest)) := by
  constructor
  · intro h
    match s, h with
    | b :: s, h =>
      simp only [skipName?] at h
      split at h
      · next quote =>
        subst quote
        split at h
        · next afterName skipped =>
          obtain ⟨name, passes, rfl⟩ := skipStringTail_eq_some_iff.mp skipped
          split at h
          · next c behind lt first =>
            split at h
            · next colon =>
              subst colon
              obtain rfl := Option.some.inj h
              obtain ⟨gap, blanks, -, rfl⟩ := reads_token_iff.mp ⟨lt, first⟩
              exact ⟨name, gap, passes, blanks, rfl⟩
            · cases h
          · cases h
        · cases h
      · cases h
  · rintro ⟨name, gap, passes, blanks, rfl⟩
    have skipped : skipStringTail (name ++ byte '"' :: (gap ++ byte ':' :: rest)) =
        some (gap ++ byte ':' :: rest) := skipStringTail_eq_some_iff.mpr ⟨name, passes, rfl⟩
    obtain ⟨lt, first⟩ : Reads token (gap ++ byte ':' :: rest) (byte ':') rest :=
      reads_token_iff.mpr ⟨gap, blanks, rfl, rfl⟩
    simp only [skipName?, if_true, skipped, first]

namespace Skipping

/-! ### The machine looks at no more than what it skips -/

section Cut

variable {state next : Skipping} {containers : List Bracket}

theorem exists_value (h : value? containers s = some (next, rest)) : ∃ b p kind,
    Kind.ofByte? b = some kind ∧ s = b :: (p ++ rest) ∧ ∀ rest',
      (next.awaiting = .separator → Ended rest') →
        value? containers (b :: (p ++ rest')) = some (next, rest') := by
  match s, h with
  | b :: s, h =>
    simp only [value?] at h
    split at h
    · next bracket =>
      obtain ⟨rfl, rfl⟩ := Prod.mk.inj (Option.some.inj h)
      exact ⟨b, [], .array, by rw [bracket]; rfl, rfl, fun rest' _ => by
        simp only [value?, if_pos bracket, List.nil_append]⟩
    split at h
    · next notSquare bracket =>
      obtain ⟨rfl, rfl⟩ := Prod.mk.inj (Option.some.inj h)
      exact ⟨b, [], .object, by rw [bracket]; rfl, rfl, fun rest' _ => by
        simp only [value?, if_neg notSquare, if_pos bracket, List.nil_append]⟩
    · next notSquare notCurly =>
      obtain ⟨rest', skipped, eq⟩ := Option.map_eq_some_iff.mp h
      obtain ⟨rfl, rfl⟩ := Prod.mk.inj eq
      obtain ⟨t, scalar, split⟩ := exists_isScalar skipped
      obtain ⟨b', p, kind, rfl, announces, -, -, skips⟩ := scalar.exists_cons
      obtain ⟨rfl, rfl⟩ := List.cons.inj split
      refine ⟨b, p, kind, announces, rfl, fun rest'' ended => ?_⟩
      simp only [value?, if_neg notSquare, if_neg notCurly, skips rest'' (ended rfl),
        Option.map_some]

theorem exists_name (h : name? containers s = some (next, rest)) : ∃ p,
    s = byte '"' :: (p ++ rest) ∧ ∀ rest', name? containers (byte '"' :: (p ++ rest')) =
      some (next, rest') := by
  obtain ⟨rest', skipped, eq⟩ := Option.map_eq_some_iff.mp h
  obtain ⟨rfl, rfl⟩ := Prod.mk.inj eq
  obtain ⟨name, gap, passes, blanks, rfl⟩ := skipName?_eq_some_iff.mp skipped
  refine ⟨name ++ byte '"' :: (gap ++ [byte ':']), by simp, fun rest'' => ?_⟩
  refine Option.map_eq_some_iff.mpr ⟨rest'', ?_, rfl⟩
  exact skipName?_eq_some_iff.mpr ⟨name, gap, passes, blanks, by simp⟩

/-- A part is skipped alike whatever stands behind it; only behind a scalar it has to end there.
Behind a value there stands a byte that parts or closes. -/
theorem exists_part (h : part? state s = some (next, rest)) : ∃ b p, s = b :: (p ++ rest) ∧
    (state.awaiting = .separator → b = byte ',' ∨ b = byte ']' ∨ b = byte '}') ∧
    ∀ rest', (next.awaiting = .separator → Ended rest') →
      part? state (b :: (p ++ rest')) = some (next, rest') := by
  obtain ⟨awaiting, containers⟩ := state
  match s, awaiting, containers with
  | [], .value, _ | [], .name, _ | [], .first, _ | [], .separator, _ => cases h
  | _ :: _, .first, [] | _ :: _, .separator, [] => cases h
  | c :: s, .value, containers =>
    have h : value? containers (c :: s) = some (next, rest) := h
    obtain ⟨b, p, -, -, split, skips⟩ := exists_value h
    exact ⟨b, p, split, (fun other => by cases other), skips⟩
  | _ :: _, .name, containers =>
    obtain ⟨p, split, skips⟩ := exists_name h
    exact ⟨byte '"', p, split, (fun other => by cases other), fun rest' _ => skips rest'⟩
  | b :: s, .first, container :: others =>
    simp only [part?] at h
    split at h
    · next close =>
      obtain ⟨rfl, rfl⟩ := Prod.mk.inj (Option.some.inj h)
      exact ⟨b, [], rfl, (fun other => by cases other), fun rest' _ => by simp only [part?, if_pos close, List.nil_append]⟩
    · next notClose =>
      cases container with
      | square =>
        obtain ⟨b, p, -, -, split, skips⟩ := exists_value h
        obtain ⟨rfl, rfl⟩ := List.cons.inj split
        exact ⟨b, p, rfl, (fun other => by cases other), fun rest' ended => by
          simp only [part?, if_neg notClose, skips rest' ended]⟩
      | curly =>
        obtain ⟨p, split, skips⟩ := exists_name h
        obtain ⟨rfl, rfl⟩ := List.cons.inj split
        exact ⟨_, p, rfl, (fun other => by cases other), fun rest' _ => by simp only [part?, if_neg notClose, skips rest']⟩
  | b :: s, .separator, container :: others =>
    simp only [part?] at h
    split at h
    · next close =>
      obtain ⟨rfl, rfl⟩ := Prod.mk.inj (Option.some.inj h)
      refine ⟨b, [], rfl, fun _ => ?_, fun rest' _ => by
        simp only [part?, if_pos close, List.nil_append]⟩
      rw [close]
      cases container with
      | square => exact .inr (.inl rfl)
      | curly => exact .inr (.inr rfl)
    · next notClose =>
      split at h
      · next comma =>
        refine ⟨b, [], ?_⟩
        cases container with
        | square =>
          obtain ⟨rfl, rfl⟩ := Prod.mk.inj (Option.some.inj h)
          exact ⟨rfl, fun _ => .inl comma, fun rest' _ => by
            simp only [part?, if_neg notClose, if_pos comma, List.nil_append]⟩
        | curly =>
          obtain ⟨rfl, rfl⟩ := Prod.mk.inj (Option.some.inj h)
          exact ⟨rfl, fun _ => .inl comma, fun rest' _ => by
            simp only [part?, if_neg notClose, if_pos comma, List.nil_append]⟩
      · cases h

theorem run?_done (s : List UInt8) : run? done s = some s := by
  rw [run?, if_pos rfl]

/-- A value that has not been skipped whole is skipped by one more part. -/
theorem run?_eq_some_iff (notDone : state ≠ done) : run? state s = some rest ↔
    ∃ next behind, part? state (skipBlanks s) = some (next, behind) ∧
      run? next behind = some rest := by
  rw [run?, if_neg notDone]
  split
  · next none => simp [none]
  · next some => simp [some]

/-- **What is skipped is skipped alike wherever it may end.** -/
theorem exists_run (h : run? state s = some rest) : ∃ t, s = t ++ rest ∧
    (state.awaiting = .separator → ∀ rest', Ended rest' → Ended (t ++ rest')) ∧
    ∀ rest', Ended rest' → run? state (t ++ rest') = some rest' := by
  fun_induction run? state s with
  | case1 s =>
    obtain rfl := Option.some.inj h
    exact ⟨[], rfl, fun _ _ ended => ended, fun rest' _ => run?_done rest'⟩
  | case2 => cases h
  | case3 state s notDone next behind part _ _ ih =>
    obtain ⟨t, rfl, ends, runs⟩ := ih h
    obtain ⟨b, p, split, marks, parts⟩ := exists_part part
    obtain ⟨gap, blanks, notBlank, rfl⟩ := skipBlanks_eq_cons_iff.mp split
    refine ⟨gap ++ b :: (p ++ t), by simp, fun separator rest' ended => ?_, fun rest' ended => ?_⟩
    · rw [List.append_assoc, List.cons_append]
      exact (ended_cons (marks separator) _).append blanks
    · refine (run?_eq_some_iff notDone).mpr ⟨next, t ++ rest', ?_, runs rest' ended⟩
      have skipped : skipBlanks (gap ++ b :: (p ++ t) ++ rest') = b :: (p ++ (t ++ rest')) :=
        skipBlanks_eq_cons_iff.mpr ⟨gap, blanks, notBlank, by simp⟩
      rw [skipped]
      exact parts _ fun separator => ends separator rest' ended

end Cut

/-! ### What lies below on the stack -/

section Below

variable {state next : Skipping}

/-- The value stands in open containers. -/
def within (state : Skipping) (below : List Bracket) : Skipping :=
  ⟨state.awaiting, state.containers ++ below⟩

/-- A container that was just opened is open. -/
def IsSound (state : Skipping) : Prop := state.awaiting = .first → state.containers ≠ []

theorem value?_append (containers below : List Bracket) (s : List UInt8) :
    value? (containers ++ below) s =
      (value? containers s).map fun (next, rest) => (next.within below, rest) := by
  cases s with
  | nil => rfl
  | cons b s =>
    simp only [value?]
    split
    · rfl
    · split
      · rfl
      · rw [Option.map_map]
        rfl

theorem name?_append (containers below : List Bracket) (s : List UInt8) :
    name? (containers ++ below) s =
      (name? containers s).map fun (next, rest) => (next.within below, rest) := by
  rw [name?, name?, Option.map_map]
  rfl

/-- A part is skipped alike whatever lies below. -/
theorem part?_within (sound : state.IsSound) (notDone : state ≠ done) (below : List Bracket)
    (s : List UInt8) : part? (state.within below) s =
      (part? state s).map fun (next, rest) => (next.within below, rest) := by
  obtain ⟨awaiting, containers⟩ := state
  unfold within
  match s, awaiting, containers with
  | [], .value, _ | [], .name, _ | [], .first, _ | [], .separator, _ => rfl
  | b :: s, .value, containers => exact value?_append containers below (b :: s)
  | b :: s, .name, containers => exact name?_append containers below (b :: s)
  | _ :: _, .first, [] => exact absurd rfl (sound rfl)
  | _ :: _, .separator, [] => exact absurd rfl notDone
  | b :: s, .first, container :: others =>
    simp only [List.cons_append, part?]
    split
    · rfl
    · cases container with
      | square => exact value?_append (.square :: others) below _
      | curly => exact name?_append (.curly :: others) below _
  | b :: s, .separator, container :: others =>
    simp only [List.cons_append, part?]
    split
    · rfl
    · split
      · cases container <;> rfl
      · rfl

theorem isSound_value {containers : List Bracket} (h : value? containers s = some (next, rest)) :
    next.IsSound := by
  match s, h with
  | b :: s, h =>
    simp only [value?] at h
    split at h
    · obtain ⟨rfl, rfl⟩ := Prod.mk.inj (Option.some.inj h)
      exact fun _ => List.cons_ne_nil _ _
    split at h
    · obtain ⟨rfl, rfl⟩ := Prod.mk.inj (Option.some.inj h)
      exact fun _ => List.cons_ne_nil _ _
    · obtain ⟨_, -, eq⟩ := Option.map_eq_some_iff.mp h
      obtain ⟨rfl, -⟩ := Prod.mk.inj eq
      exact fun first => by cases first

theorem isSound_name {containers : List Bracket} (h : name? containers s = some (next, rest)) :
    next.IsSound := by
  obtain ⟨_, -, eq⟩ := Option.map_eq_some_iff.mp h
  obtain ⟨rfl, -⟩ := Prod.mk.inj eq
  exact fun first => by cases first

/-- Only a container that was opened is just opened. -/
theorem isSound_part (h : part? state s = some (next, rest)) : next.IsSound := by
  obtain ⟨awaiting, containers⟩ := state
  match s, awaiting, containers with
  | [], .value, _ | [], .name, _ | [], .first, _ | [], .separator, _ => cases h
  | _ :: _, .first, [] | _ :: _, .separator, [] => cases h
  | b :: s, .value, containers =>
    have h : value? containers (b :: s) = some (next, rest) := h
    exact isSound_value h
  | _ :: _, .name, _ => exact isSound_name h
  | b :: s, .first, container :: others =>
    simp only [part?] at h
    split at h
    · obtain ⟨rfl, -⟩ := Prod.mk.inj (Option.some.inj h)
      exact fun first => by cases first
    · cases container with
      | square => exact isSound_value h
      | curly => exact isSound_name h
  | b :: s, .separator, container :: others =>
    simp only [part?] at h
    split at h
    · obtain ⟨rfl, -⟩ := Prod.mk.inj (Option.some.inj h)
      exact fun first => by cases first
    · split at h
      · cases container with
        | square =>
          obtain ⟨rfl, -⟩ := Prod.mk.inj (Option.some.inj h)
          exact fun first => by cases first
        | curly =>
          obtain ⟨rfl, -⟩ := Prod.mk.inj (Option.some.inj h)
          exact fun first => by cases first
      · cases h

theorem within_ne_done (notDone : state ≠ done) (below : List Bracket) :
    state.within below ≠ done := by
  intro isDone
  obtain ⟨awaiting, containers⟩ := mk.inj isDone
  exact notDone (congrArg₂ mk awaiting (List.append_eq_nil_iff.mp containers).1)

/-- **Open containers below wait** until those above have been closed. -/
theorem run?_within (sound : state.IsSound) (below : List Bracket) :
    run? (state.within below) s = (run? state s).bind (run? ⟨.separator, below⟩) := by
  fun_induction run? state s with
  | case1 s => rfl
  | case2 state s notDone none =>
    rw [run?, if_neg (within_ne_done notDone below)]
    have part := part?_within sound notDone below (skipBlanks s)
    rw [none] at part
    split
    · rfl
    · next some =>
      rw [some] at part
      cases part
  | case3 state s notDone next behind part _ _ ih =>
    rw [← ih (isSound_part part), run?, if_neg (within_ne_done notDone below)]
    have part' := part?_within sound notDone below (skipBlanks s)
    rw [part] at part'
    split
    · next none =>
      rw [none] at part'
      cases part'
    · next some =>
      rw [some] at part'
      obtain ⟨rfl, rfl⟩ := Prod.mk.inj (Option.some.inj part')
      rfl

end Below

/-! ### Containers part by part -/

section Containers

variable {d d' : Unit}

/-- What a part of a container begins with: its value, or the name of the value. -/
def partOf : Bracket → Skipping
  | .square => ⟨.value, []⟩
  | .curly => ⟨.name, []⟩

/-- A part of a container is skipped. -/
def skipsPart (container : Bracket) : PartReads Unit := fun _ s _ rest =>
  run? (partOf container) s = some rest

theorem comma_ne_close (container : Bracket) : byte ',' ≠ container.close := by
  cases container <;> decide

theorem part?_separator (container : Bracket) (b : UInt8) (s : List UInt8) :
    part? ⟨.separator, [container]⟩ (b :: s) =
      if b = container.close then some (done, s)
      else if b = byte ',' then some ((partOf container).within [container], s) else none := by
  cases container <;> rfl

theorem part?_first (container : Bracket) (b : UInt8) (s : List UInt8) :
    part? ⟨.first, [container]⟩ (b :: s) =
      if b = container.close then some (done, s)
      else part? ((partOf container).within [container]) (b :: s) := by
  cases container <;> rfl

/-- A part of a container is skipped, and then what stands behind it. -/
theorem run?_partOf {container : Bracket} :
    run? ((partOf container).within [container]) s = some rest ↔ ∃ behind,
      run? (partOf container) s = some behind ∧
        run? ⟨.separator, [container]⟩ behind = some rest := by
  rw [run?_within (by cases container <;> exact nofun), Option.bind_eq_some_iff]

/-- Once a part has been skipped there must come the closing byte, or a comma with another part. -/
theorem run?_separator_iff {container : Bracket} :
    run? ⟨.separator, [container]⟩ s = some rest ↔ Reads token s container.close rest ∨
      ∃ behind behind', Reads token s (byte ',') behind ∧
        run? (partOf container) behind = some behind' ∧
        run? ⟨.separator, [container]⟩ behind' = some rest := by
  rw [run?_eq_some_iff (by simp [done])]
  simp only [reads_token_iff_skipBlanks]
  cases skipBlanks s with
  | nil => simp [part?]
  | cons b behind =>
    rw [part?_separator]
    constructor
    · rintro ⟨next, behind', part, run⟩
      split at part
      · next close =>
        obtain ⟨rfl, rfl⟩ := Prod.mk.inj (Option.some.inj part)
        rw [run?_done] at run
        exact .inl (by rw [close, Option.some.inj run])
      split at part
      · next comma =>
        obtain ⟨rfl, rfl⟩ := Prod.mk.inj (Option.some.inj part)
        obtain ⟨behind', part, run⟩ := run?_partOf.mp run
        exact .inr ⟨behind, behind', by rw [comma], part, run⟩
      · cases part
    · rintro (close | ⟨_, behind', comma, part, run⟩)
      · obtain ⟨rfl, rfl⟩ := List.cons.inj close
        exact ⟨done, behind, if_pos rfl, run?_done behind⟩
      · obtain ⟨rfl, rfl⟩ := List.cons.inj comma
        refine ⟨_, behind, ?_, run?_partOf.mpr ⟨behind', part, run⟩⟩
        rw [if_neg (comma_ne_close container), if_pos rfl]

/-- In a container that was just opened there must come the closing byte, or a part. -/
theorem run?_first_iff {container : Bracket} :
    run? ⟨.first, [container]⟩ s = some rest ↔ Reads token s container.close rest ∨
      ∃ b behind behind', Reads token s b behind ∧ b ≠ container.close ∧
        run? (partOf container) s = some behind' ∧
        run? ⟨.separator, [container]⟩ behind' = some rest := by
  have notDone : (partOf container).within [container] ≠ done := by
    cases container <;> simp [partOf, within, done]
  rw [run?_eq_some_iff (by simp [done])]
  simp only [reads_token_iff_skipBlanks]
  cases skipped : skipBlanks s with
  | nil => simp [part?]
  | cons b behind =>
    rw [part?_first]
    constructor
    · rintro ⟨next, behind', part, run⟩
      split at part
      · next close =>
        obtain ⟨rfl, rfl⟩ := Prod.mk.inj (Option.some.inj part)
        rw [run?_done] at run
        exact .inl (by rw [close, Option.some.inj run])
      · next notClose =>
        rw [← skipped] at part
        have run := (run?_eq_some_iff notDone).mpr ⟨next, behind', part, run⟩
        obtain ⟨behind', part, run⟩ := run?_partOf.mp run
        exact .inr ⟨b, behind, behind', rfl, notClose, part, run⟩
    · rintro (close | ⟨_, _, behind', first, notClose, part, run⟩)
      · obtain ⟨rfl, rfl⟩ := List.cons.inj close
        exact ⟨done, behind, if_pos rfl, run?_done behind⟩
      · obtain ⟨rfl, rfl⟩ := List.cons.inj first
        rw [if_neg notClose, ← skipped]
        exact (run?_eq_some_iff notDone).mp (run?_partOf.mpr ⟨behind', part, run⟩)

/-- A part of a container begins with a byte that announces a value. -/
theorem exists_kind_of_partOf {container : Bracket} (h : run? (partOf container) s = some rest) :
    ∃ b behind kind, Reads token s b behind ∧ Kind.ofByte? b = some kind := by
  obtain ⟨next, behind, part, -⟩ :=
    (run?_eq_some_iff (by cases container <;> simp [partOf, done])).mp h
  simp only [reads_token_iff_skipBlanks]
  cases skipped : skipBlanks s with
  | nil =>
    rw [skipped] at part
    cases container <;> cases part
  | cons c s' =>
    rw [skipped] at part
    cases container with
    | square =>
      have part : value? [] (c :: s') = some (next, behind) := part
      obtain ⟨b, p, kind, announces, split, -⟩ := exists_value part
      exact ⟨b, _, kind, split, announces⟩
    | curly =>
      have part : name? [] (c :: s') = some (next, behind) := part
      obtain ⟨p, split, -⟩ := exists_name part
      exact ⟨_, _, .string, split, rfl⟩

theorem local_skipsPart (container : Bracket) (d : Unit) : Local (skipsPart container d) where
  opens read := exists_kind_of_partOf read
  cut read := by
    obtain ⟨t, rfl, -, runs⟩ := exists_run read
    exact ⟨t, rfl, runs⟩

/-- **A container is skipped part by part.** -/
theorem run?_iff_inside {container : Bracket} :
    run? ⟨.separator, [container]⟩ s = some rest ↔
      Inside (skipsPart container) container.close false d s d' rest := by
  constructor
  · induction h : s.length using Nat.strongRecOn generalizing s with
    | ind n ih =>
      intro run
      rcases run?_separator_iff.mp run with close | ⟨behind, behind', comma, part, run⟩
      · exact .close close
      · have shorter := comma.choose
        have shorter' := (length_run? part).1
        have part : skipsPart container d behind d behind' := part
        exact .next comma part (ih behind'.length (by omega) rfl run)
  · intro inside
    generalize hf : false = first at inside
    induction inside with
    | close closed => exact run?_separator_iff.mpr (.inl closed)
    | first => cases hf
    | next comma part others ih =>
      exact run?_separator_iff.mpr (.inr ⟨_, _, comma, part, ih rfl⟩)

theorem run?_first_iff_inside {container : Bracket} :
    run? ⟨.first, [container]⟩ s = some rest ↔
      Inside (skipsPart container) container.close true d s d' rest := by
  rw [run?_first_iff]
  constructor
  · rintro (close | ⟨_, behind, _, -, -, part, run⟩)
    · exact .close close
    · have part : skipsPart container d s d _ := part
      exact .first part (run?_iff_inside.mp run)
  · rintro (close | ⟨part, others⟩)
    · exact .inl close
    · obtain ⟨b, behind, kind, first, announces⟩ := exists_kind_of_partOf part
      obtain ⟨-, -, notSquare, notCurly⟩ := Kind.of_ofByte? announces
      refine .inr ⟨b, behind, _, first, ?_, part, run?_iff_inside.mpr others⟩
      cases container
      · exact notSquare
      · exact notCurly

/-- A value that is skipped is a scalar, a list or an object. -/
theorem run?_start_iff : run? start s = some rest ↔
    (∃ b behind, Reads token s b behind ∧ b ≠ byte '[' ∧ b ≠ byte '{' ∧
      skipScalar? (b :: behind) = some rest) ∨
    Bracketed (skipsPart .square) (byte '[') (byte ']') () s () rest ∨
    Bracketed (skipsPart .curly) (byte '{') (byte '}') () s () rest := by
  have square {s : List UInt8} : run? ⟨.first, [.square]⟩ s = some rest ↔
      Inside (skipsPart .square) (byte ']') true () s () rest := run?_first_iff_inside
  have curly {s : List UInt8} : run? ⟨.first, [.curly]⟩ s = some rest ↔
      Inside (skipsPart .curly) (byte '}') true () s () rest := run?_first_iff_inside
  unfold Bracketed
  simp only [← square, ← curly, reads_token_iff_skipBlanks]
  rw [run?_eq_some_iff (by simp [start, done])]
  cases skipBlanks s with
  | nil => simp [part?]
  | cons b behind =>
    have part : part? start (b :: behind) = value? [] (b :: behind) := rfl
    rw [part, value?]
    constructor
    · rintro ⟨next, behind', part, run⟩
      split at part
      · next isSquare =>
        obtain ⟨rfl, rfl⟩ := Prod.mk.inj (Option.some.inj part)
        exact .inr (.inl ⟨behind, by rw [isSquare], run⟩)
      split at part
      · next isCurly =>
        obtain ⟨rfl, rfl⟩ := Prod.mk.inj (Option.some.inj part)
        exact .inr (.inr ⟨behind, by rw [isCurly], run⟩)
      · next notSquare notCurly =>
        obtain ⟨rest', skipped, eq⟩ := Option.map_eq_some_iff.mp part
        obtain ⟨rfl, rfl⟩ := Prod.mk.inj eq
        obtain rfl := Option.some.inj ((run?_done rest').symm.trans run)
        exact .inl ⟨b, behind, rfl, notSquare, notCurly, skipped⟩
    · rintro (⟨_, _, first, notSquare, notCurly, skipped⟩ | ⟨_, first, run⟩ | ⟨_, first, run⟩)
      · obtain ⟨rfl, rfl⟩ := List.cons.inj first
        rw [if_neg notSquare, if_neg notCurly, skipped]
        exact ⟨done, rest, rfl, run?_done rest⟩
      · obtain ⟨rfl, rfl⟩ := List.cons.inj first
        exact ⟨_, behind, rfl, run⟩
      · obtain ⟨rfl, rfl⟩ := List.cons.inj first
        exact ⟨_, behind, rfl, run⟩

/-- Skipping goes along the parts without a state. -/
theorem along_skipsPart_iff {container : Bracket} {parts : List (List UInt8)} :
    Along (fun d => Whole (skipsPart container d)) d parts d' ↔
      ∀ part ∈ parts, Whole (skipsPart container ()) part () := by
  constructor
  · intro along
    induction along with
    | nil => simp
    | cons first others ih => exact List.forall_mem_cons.mpr ⟨first, ih⟩
  · intro whole
    induction parts generalizing d with
    | nil => exact .nil
    | cons part parts ih =>
      obtain ⟨first, others⟩ := List.forall_mem_cons.mp whole
      exact .cons first (ih others (d := d'))

end Containers

end Skipping

/-! ### The reader that skips -/

open Skipping

theorem reads_skip_iff {v : Unit} : Reads skip s v rest ↔ run? .start s = some rest := by
  unfold Reads skip
  split
  · next rest' found =>
    constructor
    · rintro ⟨_, read⟩
      obtain rfl : rest' = rest := by
        simpa using read
      exact found
    · intro h
      obtain rfl := Option.some.inj (found.symm.trans h)
      exact ⟨(length_run? found).2 (by decide), rfl⟩
  · next none => simp [none]

theorem local_skip : Local (Reads skip) where
  opens {s rest _} read := by
    have read : run? (partOf .square) s = some rest := reads_skip_iff.mp read
    exact exists_kind_of_partOf read
  cut read := by
    obtain ⟨t, rfl, -, runs⟩ := exists_run (reads_skip_iff.mp read)
    exact ⟨t, rfl, fun rest' ended => reads_skip_iff.mpr (runs rest' ended)⟩

/-- A part of a list that is skipped is a value. -/
theorem whole_skipsPart_square {part : List UInt8} :
    Whole (skipsPart .square ()) part () ↔ Json.document skip part = .ok () := by
  rw [document_eq_ok_iff]
  simp only [Whole, reads_skip_iff]
  rfl

/-- A part of an object that is skipped gives a value to a name. -/
theorem whole_skipsPart_curly {part : List UInt8} : Whole (skipsPart .curly ()) part () ↔
    ∃ m : List UInt8 × List UInt8, (Passes m.1 ∧ Named m.1 m.2 part) ∧
      Json.document skip m.2 = .ok () := by
  have step {s rest : List UInt8} : run? (partOf .curly) s = some rest ↔
      ∃ behind, skipName? (skipBlanks s) = some behind ∧ run? start behind = some rest := by
    rw [run?_eq_some_iff (by simp [partOf, done])]
    cases skipBlanks s with
    | nil => simp [part?, skipName?]
    | cons b tail =>
      have part : part? (partOf .curly) (b :: tail) = name? [] (b :: tail) := rfl
      rw [part, name?]
      constructor
      · rintro ⟨next, behind, named, run⟩
        obtain ⟨_, skipped, eq⟩ := Option.map_eq_some_iff.mp named
        obtain ⟨rfl, rfl⟩ := Prod.mk.inj eq
        exact ⟨_, skipped, run⟩
      · rintro ⟨behind, skipped, run⟩
        exact ⟨_, behind, by rw [skipped]; rfl, run⟩
  simp only [document_eq_ok_iff, Whole, reads_skip_iff, skipsPart, step]
  constructor
  · rintro ⟨gap, blanks, behind, skipped, run⟩
    obtain ⟨name, back, passes, blanks', split⟩ := skipName?_eq_some_iff.mp skipped
    obtain ⟨front, blanks'', -, rfl⟩ := skipBlanks_eq_cons_iff.mp split
    exact ⟨(name, behind), ⟨passes, front, back, blanks'', blanks', rfl⟩, gap, blanks, run⟩
  · rintro ⟨⟨name, value⟩, ⟨passes, front, back, blanks, blanks', rfl⟩, gap, blanks'', run⟩
    refine ⟨gap, blanks'', value, ?_, run⟩
    rw [skipBlanks_eq_cons_iff.mpr ⟨front, blanks, rfl, rfl⟩]
    exact skipName?_eq_some_iff.mpr ⟨name, back, passes, blanks', rfl⟩

/-- A scalar is skipped as a document. -/
theorem whole_skipScalar {t : List UInt8} : (∃ gap, IsGap gap ∧ ∃ b behind, Reads token t b behind ∧
    b ≠ byte '[' ∧ b ≠ byte '{' ∧ skipScalar? (b :: behind) = some gap) ↔ Padded IsScalar t := by
  constructor
  · rintro ⟨back, blanks, b, behind, first, -, -, skipped⟩
    obtain ⟨front, blanks', -, rfl⟩ := reads_token_iff.mp first
    obtain ⟨core, scalar, split⟩ := exists_isScalar skipped
    exact ⟨front, core, back, blanks', blanks, scalar, by rw [split]⟩
  · rintro ⟨front, core, back, blanks, blanks', scalar, rfl⟩
    obtain ⟨b, behind, kind, rfl, announces, notArray, notObject, skips⟩ := scalar.exists_cons
    refine ⟨back, blanks', b, behind ++ back, ?_, ?_, ?_, skips back blanks'.ended⟩
    · exact reads_token_iff.mpr ⟨front, blanks, (Kind.of_ofByte? announces).1, rfl⟩
    · rintro rfl
      exact notArray (Option.some.inj announces).symm
    · rintro rfl
      exact notObject (Option.some.inj announces).symm

/-- Choices for the elements of a list are one choice of a list. -/
theorem forall_exists_iff_forall₂ {β γ : Type} {P : γ → β → Prop} {Q : γ → Prop} {xs : List β} :
    (∀ x ∈ xs, ∃ y, P y x ∧ Q y) ↔ ∃ ys, List.Forall₂ P ys xs ∧ ∀ y ∈ ys, Q y := by
  induction xs with
  | nil => simp
  | cons x xs ih =>
    rw [List.forall_mem_cons, ih]
    constructor
    · rintro ⟨⟨y, hP, hQ⟩, ys, all, others⟩
      exact ⟨y :: ys, .cons hP all, List.forall_mem_cons.mpr ⟨hQ, others⟩⟩
    · rintro ⟨_, _ | ⟨hP, all⟩, others⟩
      obtain ⟨hQ, others⟩ := List.forall_mem_cons.mp others
      exact ⟨⟨_, hP, hQ⟩, _, all, others⟩

/-- What is skipped as a document: a scalar, a list of such documents, or an object of them. -/
theorem document_skip_cases {t : List UInt8} : Json.document skip t = .ok () ↔ Padded IsScalar t ∨
    (∃ parts, IsArray parts t ∧ ∀ part ∈ parts, Json.document skip part = .ok ()) ∨
    ∃ parts, Encloses (byte '{') (byte '}') parts t ∧
      ∃ members : List (List UInt8 × List UInt8),
        List.Forall₂ (fun m part => Passes m.1 ∧ Named m.1 m.2 part) members parts ∧
          ∀ m ∈ members, Json.document skip m.2 = .ok () := by
  have square : Whole (Bracketed (skipsPart .square) (byte '[') (byte ']') ()) t () ↔ _ :=
    whole_bracketed_iff (local_skipsPart .square) (.inl rfl) rfl
  have curly : Whole (Bracketed (skipsPart .curly) (byte '{') (byte '}') ()) t () ↔ _ :=
    whole_bracketed_iff (local_skipsPart .curly) (.inr rfl) rfl
  simp only [along_skipsPart_iff, whole_skipsPart_square] at square
  simp only [along_skipsPart_iff, whole_skipsPart_curly, forall_exists_iff_forall₂] at curly
  rw [document_eq_ok_iff, ← whole_skipScalar, IsArray, ← square, ← curly]
  simp only [Whole, reads_skip_iff, run?_start_iff, and_or_left, exists_or]

/-- A part between an opening and a closing byte is shorter than the whole. -/
theorem length_lt_of_encloses {opening closing : UInt8} {parts : List (List UInt8)}
    {part t : List UInt8} (h : Encloses opening closing parts t) (mem : part ∈ parts) :
    part.length < t.length := by
  obtain ⟨front, _, back, -, -, ⟨inner, parted, rfl⟩, rfl⟩ := h
  have le : part.length ≤ inner.length := by
    cases parts with
    | nil => cases mem
    | cons first others =>
      obtain rfl : inner = first ++ others.flatMap (byte ',' :: ·) := parted
      rw [List.length_append]
      rcases List.mem_cons.mp mem with rfl | mem
      · omega
      · have sublist := (List.sublist_flatten_of_mem
          (List.mem_map_of_mem (f := (byte ',' :: ·)) mem)).length_le
        rw [← List.flatMap_def, List.length_cons] at sublist
        omega
  simp only [List.length_append, List.length_cons]
  omega

/-- The value of a member is shorter than its part. -/
theorem length_le_of_named {name value part : List UInt8} (h : Named name value part) :
    value.length ≤ part.length := by
  obtain ⟨front, back, -, -, rfl⟩ := h
  simp only [List.length_append, List.length_cons]
  omega

/-- **What is skipped as a document is a JSON value**, and every JSON value is skipped. -/
theorem document_skip_iff {t : List UInt8} : Json.document skip t = .ok () ↔ IsValue t := by
  constructor
  · induction h : t.length using Nat.strongRecOn generalizing t with
    | ind n ih =>
      subst h
      intro skipped
      rcases document_skip_cases.mp skipped with scalar | ⟨parts, array, values⟩ |
        ⟨parts, encloses, members, named, values⟩
      · exact .scalar scalar
      · refine .array array fun part mem => ?_
        exact ih part.length (length_lt_of_encloses array mem) rfl (values part mem)
      · refine .object encloses named fun m mem => ?_
        obtain ⟨part, memPart, -, isNamed⟩ : ∃ part ∈ parts, Passes m.1 ∧ Named m.1 m.2 part := by
          obtain ⟨i, hi, rfl⟩ := List.mem_iff_getElem.mp mem
          have hi' : i < parts.length := named.length_eq ▸ hi
          exact ⟨parts[i], List.getElem_mem hi', named.get hi hi'⟩
        have shorter := length_lt_of_encloses encloses memPart
        have shorter' := length_le_of_named isNamed
        exact ih m.2.length (by omega) rfl (values m mem)
  · intro value
    induction value with
    | scalar h => exact document_skip_cases.mpr (.inl h)
    | array h _ ih => exact document_skip_cases.mpr (.inr (.inl ⟨_, h, ih⟩))
    | object h names _ ih => exact document_skip_cases.mpr (.inr (.inr ⟨_, h, _, names, ih⟩))

end ProductSegments.Json

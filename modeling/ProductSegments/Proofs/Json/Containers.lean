import ProductSegments.Proofs.Json.Locality

/-!
# Lists and objects by their parts

Lists, objects, lists of members and skipped containers are all read in one way: part by part, each
behind a comma but the first, while a state goes along.  That way of reading is one relation here,
and it is shown once that the bytes between the brackets fall into parts, each of which changes the
state as it would do alone.

## Main definitions

* `Json.Along` — steps of a state along a list.
* `Json.Inside`, `Json.Bracketed` — a container is read part by part, up to its end or as a whole.

## Main results

* `Json.bracketed_iff` — **what is read in brackets is read part by part of the parts alone**.
* `Json.local_bracketed` — so a container is read alike wherever it stands.
* `Json.document_array_iff` — the items of a list are what its parts hold.
-/

namespace ProductSegments.Json

variable {α β σ : Type}

/-! ### Steps along a list -/

/-- The steps for the elements of a list lead from one state to another. -/
inductive Along (step : σ → β → σ → Prop) : σ → List β → σ → Prop where
  | nil {d : σ} : Along step d [] d
  | cons {d d' d'' : σ} {x : β} {xs : List β} (first : step d x d') (others : Along step d' xs d'') :
      Along step d (x :: xs) d''

theorem along_nil_iff {step : σ → β → σ → Prop} {d d' : σ} : Along step d [] d' ↔ d = d' := by
  constructor
  · rintro ⟨⟩
    rfl
  · rintro rfl
    exact .nil

theorem along_cons_iff {step : σ → β → σ → Prop} {d d'' : σ} {x : β} {xs : List β} :
    Along step d (x :: xs) d'' ↔ ∃ d', step d x d' ∧ Along step d' xs d'' := by
  constructor
  · rintro (_ | ⟨first, others⟩)
    exact ⟨_, first, others⟩
  · rintro ⟨d', first, others⟩
    exact .cons first others

/-! ### Reading part by part -/

section Inside

/-- A relation that reads a part from the front of some bytes and changes a state. -/
abbrev PartReads (σ : Type) := σ → List UInt8 → σ → List UInt8 → Prop

/-- A container is read up to its closing byte; `first` says that no part has been read. -/
inductive Inside (R : PartReads σ) (close : UInt8) :
    (first : Bool) → σ → List UInt8 → σ → List UInt8 → Prop where
  | close {first : Bool} {d : σ} {s rest : List UInt8} (h : Reads token s close rest) :
      Inside R close first d s d rest
  | first {d d' d'' : σ} {s rest rest' : List UInt8} (part : R d s d' rest)
      (others : Inside R close false d' rest d'' rest') : Inside R close true d s d'' rest'
  | next {d d' d'' : σ} {s behind rest rest' : List UInt8} (comma : Reads token s (byte ',') behind)
      (part : R d behind d' rest) (others : Inside R close false d' rest d'' rest') :
      Inside R close false d s d'' rest'

/-- A container is read from its opening byte on. -/
def Bracketed (R : PartReads σ) (opening close : UInt8) : PartReads σ := fun d s d' rest =>
  ∃ behind, Reads token s opening behind ∧ Inside R close true d behind d' rest

variable {R : PartReads σ} {opening close : UInt8} {d d' : σ} {s rest : List UInt8}

/-- Behind a part there is the closing byte, or a comma with the next part. -/
theorem ended_flatMap {close : UInt8} (h : close = byte ']' ∨ close = byte '}')
    (parts : List (List UInt8)) (rest : List UInt8) :
    Ended (parts.flatMap (byte ',' :: ·) ++ close :: rest) := by
  cases parts with
  | nil => exact ended_cons (.inr h) rest
  | cons part parts => exact ended_cons (.inl rfl) _

theorem isBlank_close (h : close = byte ']' ∨ close = byte '}') : isBlank close = false := by
  rcases h with rfl | rfl <;> rfl

/-- A container that has begun goes on with its other parts, of which each stands behind a comma.
The blanks in front are those behind the part before. -/
theorem inside_false_iff (isLocal : ∀ d, Local (R d)) (h : close = byte ']' ∨ close = byte '}') :
    Inside R close false d s d' rest ↔ ∃ gap parts, IsGap gap ∧
      s = gap ++ (parts.flatMap (byte ',' :: ·) ++ close :: rest) ∧
      Along (fun d => Whole (R d)) d parts d' := by
  constructor
  · intro inside
    generalize hf : false = first at inside
    induction inside with
    | close closed =>
      obtain ⟨gap, blanks, -, rfl⟩ := reads_token_iff.mp closed
      exact ⟨gap, [], blanks, rfl, .nil⟩
    | first => cases hf
    | next comma part others ih =>
      obtain ⟨gap, blanks, -, rfl⟩ := reads_token_iff.mp comma
      obtain ⟨gap', parts, blanks', rfl, along⟩ := ih rfl
      obtain ⟨t, rfl, whole⟩ := (isLocal _).exists_whole part
      exact ⟨gap, (t ++ gap') :: parts, blanks, by simp, .cons (whole gap' blanks') along⟩
  · rintro ⟨gap, parts, blanks, rfl, along⟩
    induction along generalizing gap with
    | nil => exact .close (reads_token_iff.mpr ⟨gap, blanks, isBlank_close h, rfl⟩)
    | @cons d d' d'' part parts first others ih =>
      obtain ⟨gap', blanks', reads⟩ := (isLocal d).exists_append first
      refine .next ?_ (reads _ (ended_flatMap h parts rest)) (ih gap' blanks')
      exact reads_token_iff.mpr ⟨gap, blanks, rfl, by simp⟩

/-- A container falls into its parts. -/
theorem inside_true_iff (isLocal : ∀ d, Local (R d)) (h : close = byte ']' ∨ close = byte '}') :
    Inside R close true d s d' rest ↔ ∃ parts inner, Parted parts inner ∧
      s = inner ++ close :: rest ∧ Along (fun d => Whole (R d)) d parts d' := by
  constructor
  · rintro (closed | ⟨part, others⟩)
    · obtain ⟨gap, blanks, -, rfl⟩ := reads_token_iff.mp closed
      exact ⟨[], gap, blanks, rfl, .nil⟩
    · obtain ⟨gap, parts, blanks, rfl, along⟩ := (inside_false_iff isLocal h).mp others
      obtain ⟨t, rfl, whole⟩ := (isLocal _).exists_whole part
      exact ⟨(t ++ gap) :: parts, _, rfl, by simp, .cons (whole gap blanks) along⟩
  · rintro ⟨parts, inner, parted, rfl, along⟩
    cases along with
    | nil => exact .close (reads_token_iff.mpr ⟨inner, parted, isBlank_close h, rfl⟩)
    | @cons _ _ _ part parts first others =>
      obtain rfl : inner = part ++ parts.flatMap (byte ',' :: ·) := parted
      obtain ⟨gap, blanks, reads⟩ := (isLocal d).exists_append first
      rw [List.append_assoc]
      exact .first (reads _ (ended_flatMap h parts rest))
        ((inside_false_iff isLocal h).mpr ⟨gap, parts, blanks, rfl, others⟩)

/-- **What is read in brackets is read part by part**, of each part alone. -/
theorem bracketed_iff (isLocal : ∀ d, Local (R d)) (h : close = byte ']' ∨ close = byte '}')
    (notBlank : isBlank opening = false) : Bracketed R opening close d s d' rest ↔
      ∃ gap parts inner, IsGap gap ∧ Parted parts inner ∧
        s = gap ++ opening :: (inner ++ close :: rest) ∧ Along (fun d => Whole (R d)) d parts d' := by
  unfold Bracketed
  simp only [inside_true_iff isLocal h]
  constructor
  · rintro ⟨behind, opened, parts, inner, parted, rfl, along⟩
    obtain ⟨gap, blanks, -, rfl⟩ := reads_token_iff.mp opened
    exact ⟨gap, parts, inner, blanks, parted, rfl, along⟩
  · rintro ⟨gap, parts, inner, blanks, parted, rfl, along⟩
    exact ⟨_, reads_token_iff.mpr ⟨gap, blanks, notBlank, rfl⟩, parts, inner, parted, rfl, along⟩

/-- **A container is read alike wherever it stands.** -/
theorem local_bracketed (isLocal : ∀ d, Local (R d)) (h : close = byte ']' ∨ close = byte '}')
    {kind : Kind} (announces : Kind.ofByte? opening = some kind) (d : σ) :
    Local (Bracketed R opening close d) where
  opens read := by
    obtain ⟨behind, opened, -⟩ := read
    exact ⟨opening, behind, kind, opened, announces⟩
  cut read := by
    have notBlank := (Kind.of_ofByte? announces).1
    obtain ⟨gap, parts, inner, blanks, parted, rfl, along⟩ :=
      (bracketed_iff isLocal h notBlank).mp read
    refine ⟨gap ++ opening :: (inner ++ [close]), by simp, fun rest' _ => ?_⟩
    exact (bracketed_iff isLocal h notBlank).mpr ⟨gap, parts, inner, blanks, parted, by simp, along⟩

/-- A text alone that is read in brackets encloses its parts. -/
theorem whole_bracketed_iff (isLocal : ∀ d, Local (R d)) (h : close = byte ']' ∨ close = byte '}')
    (notBlank : isBlank opening = false) {t : List UInt8} : Whole (Bracketed R opening close d) t d' ↔
      ∃ parts, Encloses opening close parts t ∧ Along (fun d => Whole (R d)) d parts d' := by
  unfold Whole
  simp only [bracketed_iff isLocal h notBlank]
  constructor
  · rintro ⟨back, blanks, front, parts, inner, blanks', parted, rfl, along⟩
    exact ⟨parts, ⟨front, _, back, blanks', blanks, ⟨inner, parted, rfl⟩, by simp⟩, along⟩
  · rintro ⟨parts, ⟨front, _, back, blanks, blanks', ⟨inner, parted, rfl⟩, rfl⟩, along⟩
    exact ⟨back, blanks', front, parts, inner, blanks, parted, by simp, along⟩

end Inside

/-! ### Lists -/

section Array

variable {item : Reader α}

/-- The items read so far, the last one first, with one more. -/
def collects (item : Reader α) : PartReads (List α) := fun read s read' rest =>
  ∃ v, Reads item s v rest ∧ read' = v :: read

theorem local_collects (h : Local (Reads item)) (read : List α) : Local (collects item read) where
  opens collected := by
    obtain ⟨v, found, -⟩ := collected
    exact h.opens found
  cut collected := by
    obtain ⟨v, found, rfl⟩ := collected
    obtain ⟨t, rfl, reads⟩ := h.cut found
    exact ⟨t, rfl, fun rest' ended => ⟨v, reads rest' ended, rfl⟩⟩

/-- The loop that reads items reads them part by part. -/
theorem inside_of_itemsTail {close : UInt8} {origin s : List UInt8} {read : List α} {lt}
    {step : Step (List α) origin} (h : itemsTail item close origin read s lt = .ok step) :
    Inside (collects item) close read.isEmpty read s step.value.reverse step.rest := by
  fun_induction itemsTail item close origin read s lt with
  | case1 => cases h
  | case2 read s lt behind shorter first =>
    obtain rfl := Except.ok.inj h
    rw [List.reverse_reverse]
    exact .close ⟨shorter, first⟩
  | case3 => cases h
  | case4 read s lt b behind _ _ _ empty value rest shorter found ih =>
    obtain rfl := List.isEmpty_iff.mp empty
    exact .first ⟨value, ⟨shorter, found⟩, rfl⟩ (ih h)
  | case5 => cases h
  | case6 read s lt behind shorter notEmpty value rest shorter' found _ first _ ih =>
    rw [Bool.not_eq_true] at notEmpty
    rw [notEmpty]
    exact .next ⟨shorter, first⟩ ⟨value, ⟨shorter', found⟩, rfl⟩ (ih h)
  | case7 => cases h

theorem exists_itemsTail_of_inside {close : UInt8} {first : Bool} {origin s rest : List UInt8}
    {read read' : List α} (isLocal : Local (Reads item)) (h : close = byte ']' ∨ close = byte '}')
    (inside : Inside (collects item) close first read s read' rest) : read.isEmpty = first → ∀ lt,
      ∃ shorter, itemsTail item close origin read s lt = .ok ⟨read'.reverse, rest, shorter⟩ := by
  induction inside with
  | close closed =>
    intro _ lt
    obtain ⟨shorter, closed⟩ := closed
    rw [itemsTail]
    simp only [closed, if_true]
    exact ⟨shorter_trans lt shorter, trivial⟩
  | @first read read' read'' s rest rest' part others ih =>
    intro empty lt
    obtain ⟨value, found, rfl⟩ := part
    obtain ⟨b, behind, kind, ⟨shorter, token⟩, announces⟩ := isLocal.opens found
    obtain ⟨-, -, notSquare, notCurly⟩ := Kind.of_ofByte? announces
    have notClose : b ≠ close := by
      rcases h with rfl | rfl
      · exact notSquare
      · exact notCurly
    obtain ⟨shorter', found⟩ := found
    obtain rfl := List.isEmpty_iff.mp empty
    obtain ⟨shorter'', tail⟩ := ih rfl (shorter_trans lt shorter')
    rw [itemsTail]
    simp only [token, if_neg notClose, List.isEmpty_nil, if_true, found]
    exact ⟨shorter'', tail⟩
  | @next read read' read'' s behind rest rest' comma part others ih =>
    intro notEmpty lt
    obtain ⟨value, ⟨shorter', found⟩, rfl⟩ := part
    obtain ⟨shorter, comma⟩ := comma
    have notClose : byte ',' ≠ close := by
      rcases h with rfl | rfl <;> decide
    obtain ⟨shorter'', tail⟩ := ih rfl (shorter_trans lt (shorter_trans shorter shorter'))
    rw [itemsTail]
    simp only [comma, if_neg notClose, notEmpty, Bool.false_eq_true, if_false, if_true, found]
    exact ⟨shorter'', tail⟩

theorem reads_array_iff (isLocal : Local (Reads item)) {s rest : List UInt8} {vs : List α} :
    Reads (array item) s vs rest ↔
      Bracketed (collects item) (byte '[') (byte ']') [] s vs.reverse rest := by
  constructor
  · rintro ⟨shorter, read⟩
    unfold array at read
    split at read
    · cases read
    · next b behind lt first =>
      split at read
      · next bracket =>
        subst bracket
        exact ⟨behind, ⟨lt, first⟩, inside_of_itemsTail read⟩
      · split at read
        · cases read
        · cases read
  · rintro ⟨behind, ⟨lt, first⟩, inside⟩
    obtain ⟨shorter, tail⟩ := exists_itemsTail_of_inside isLocal (.inl rfl) inside rfl lt
    rw [List.reverse_reverse] at tail
    unfold Reads array
    simp only [first, if_true]
    exact ⟨shorter, tail⟩

/-- **The reader of a list is local if that of its items is.** -/
theorem local_array (isLocal : Local (Reads item)) : Local (Reads (array item)) where
  opens read := (local_bracketed (local_collects isLocal) (.inl rfl) rfl []).opens
    ((reads_array_iff isLocal).mp read)
  cut read := by
    obtain ⟨t, rfl, reads⟩ := (local_bracketed (local_collects isLocal) (.inl rfl) rfl []).cut
      ((reads_array_iff isLocal).mp read)
    exact ⟨t, rfl, fun rest' ended => (reads_array_iff isLocal).mpr (reads rest' ended)⟩

/-- What is collected along the parts is what they hold, in their order. -/
theorem along_collects_iff {parts : List (List UInt8)} {read read' : List α} :
    Along (fun read => Whole (collects item read)) read parts read' ↔ ∃ vs,
      List.Forall₂ (fun part v => Json.document item part = .ok v) parts vs ∧
        read' = vs.reverse ++ read := by
  have step {part : List UInt8} {read read' : List α} : Whole (collects item read) part read' ↔
      ∃ v, Json.document item part = .ok v ∧ read' = v :: read := by
    simp only [document_eq_ok_iff, Whole, collects]
    constructor
    · rintro ⟨gap, blanks, v, found, rfl⟩
      exact ⟨v, ⟨gap, blanks, found⟩, rfl⟩
    · rintro ⟨v, ⟨gap, blanks, found⟩, rfl⟩
      exact ⟨gap, blanks, v, found, rfl⟩
  induction parts generalizing read with
  | nil => simp [along_nil_iff, eq_comm]
  | cons part parts ih =>
    simp only [along_cons_iff, step, ih]
    constructor
    · rintro ⟨_, ⟨v, found, rfl⟩, vs, holds, rfl⟩
      exact ⟨v :: vs, .cons found holds, by simp⟩
    · rintro ⟨vs, holds, rfl⟩
      cases holds with
      | @cons _ v _ vs found holds => exact ⟨_, ⟨v, found, rfl⟩, vs, holds, by simp⟩

/-- **The items of a list are what its parts hold.** -/
theorem document_array_iff (isLocal : Local (Reads item)) {t : List UInt8} {vs : List α} :
    Json.document (array item) t = .ok vs ↔ ∃ parts, IsArray parts t ∧
      List.Forall₂ (fun part v => Json.document item part = .ok v) parts vs := by
  have whole : Json.document (array item) t = .ok vs ↔
      Whole (Bracketed (collects item) (byte '[') (byte ']') []) t vs.reverse := by
    rw [document_eq_ok_iff]
    simp only [Whole, reads_array_iff isLocal]
  rw [whole, whole_bracketed_iff (local_collects isLocal) (.inl rfl) rfl]
  simp only [along_collects_iff, List.append_nil, List.reverse_inj]
  constructor
  · rintro ⟨parts, encloses, _, holds, rfl⟩
    exact ⟨parts, encloses, holds⟩
  · rintro ⟨parts, encloses, holds⟩
    exact ⟨parts, encloses, vs, holds, rfl⟩

end Array

/-! ### How containers begin -/

/-- A text that begins with no blank encloses parts only if it begins with the opening byte. -/
theorem opening_of_encloses {opening closing b : UInt8} {parts : List (List UInt8)}
    {t : List UInt8} (h : Encloses opening closing parts (b :: t)) (notBlank : isBlank b = false) :
    b = opening := by
  obtain ⟨front, _, back, blanks, -, ⟨inner, -, rfl⟩, eq⟩ := h
  cases front with
  | nil => exact (List.cons.inj eq).1
  | cons b' front =>
    obtain rfl := (List.cons.inj eq).1
    rw [blanks b List.mem_cons_self] at notBlank
    cases notBlank

end ProductSegments.Json

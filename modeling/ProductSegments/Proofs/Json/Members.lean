import Mathlib.Data.List.Pairwise
import ProductSegments.Json.Record
import ProductSegments.Proofs.Json.Reading
import ProductSegments.Proofs.Json.Skipping
import ProductSegments.Proofs.Json.Yield

/-!
# Records by their members

A record is read from an object with named members, or from a list with the members in their places.
Either way its text tells members, and what the record holds follows from the texts of the members
alone: each is given at most once, and whatever has another name is a value that nobody looks at.

## Main definitions

* `Json.Tells` — the members that the text of a record tells, with the texts of their values.
* `Json.Takes` — a member is put into a draft.
* `Json.Given` — what is told of one member.
* `Json.Lawful` — the members of a record do not get into each other's way.
* `Json.Field`, `Json.AreFields` — members that fill fields of a draft, one each.
* `Json.HasMember` — the text is an object with one member of a given name.

## Main results

* `Json.document_record_iff` — **a record holds what its members put into the draft**.
* `Json.AreFields.given` — a field of the draft holds what is told of its member.
* `Json.exists_along` — the draft can be filled if every member is told at most once, and readably.
* `Json.local_record` — the reader of a record is local.
* `Json.AreFields.along_iff` — what is told fills a draft field by field.
* `Json.document_single_iff` — what a record with one member holds.
-/

namespace ProductSegments.Json

variable {α σ : Type}

/-- A name and the text of its value. -/
abbrev NamedText : Type := List Char × List UInt8

/-! ### Objects -/

section Object

variable {members : List (Member σ)} {d d' : σ} {s rest : List UInt8} {name : List Char}

theorem reads_afterColon_iff {reader : Reader α} {v : α} : Reads (afterColon reader) s v rest ↔
    ∃ gap behind, IsGap gap ∧ s = gap ++ byte ':' :: behind ∧ Reads reader behind v rest := by
  constructor
  · rintro ⟨shorter, read⟩
    obtain ⟨⟨c, behind, lt⟩, first, read⟩ := exists_of_bind read
    dsimp only at read
    split at read
    · next colon =>
      subst colon
      obtain ⟨⟨v', rest', lt'⟩, found, read⟩ := exists_of_bind read
      obtain ⟨rfl, rfl⟩ : v' = v ∧ rest' = rest := by
        simpa using Except.ok.inj read
      obtain ⟨gap, blanks, -, rfl⟩ := reads_token_iff.mp ⟨lt, first⟩
      exact ⟨gap, behind, blanks, rfl, lt', found⟩
    · cases read
  · rintro ⟨gap, behind, blanks, rfl, lt', found⟩
    obtain ⟨lt, first⟩ : Reads token (gap ++ byte ':' :: behind) (byte ':') behind :=
      reads_token_iff.mpr ⟨gap, blanks, rfl, rfl⟩
    refine ⟨shorter_trans lt lt', ?_⟩
    unfold afterColon
    simp only [first, found, bind, Except.bind, if_true]
    rfl

/-- The value of the member with the given name is put into the draft. -/
def readsValue (members : List (Member σ)) (name : List Char) : PartReads σ := fun d s d' rest =>
  match members.find? (·.name = name) with
  | none => d' = d ∧ Reads skip s () rest
  | some member => member.isSet d = false ∧ ∃ put, Reads member.reader s put rest ∧ d' = put d

theorem local_readsValue (isLocal : ∀ member ∈ members, Local (Reads member.reader))
    (name : List Char) (d : σ) : Local (readsValue members name d) := by
  unfold readsValue
  cases found : members.find? (·.name = name) with
  | none =>
    refine ⟨fun ⟨_, read⟩ => local_skip.opens read, ?_⟩
    rintro s rest _ ⟨rfl, read⟩
    obtain ⟨t, rfl, skips⟩ := local_skip.cut read
    exact ⟨t, rfl, fun rest' ended => ⟨rfl, skips rest' ended⟩⟩
  | some member =>
    have isLocal := isLocal member (List.mem_of_find?_eq_some found)
    refine ⟨fun ⟨_, put, read, _⟩ => isLocal.opens read, ?_⟩
    rintro s rest _ ⟨notSet, put, read, rfl⟩
    obtain ⟨t, rfl, reads⟩ := isLocal.cut read
    exact ⟨t, rfl, fun rest' ended => ⟨notSet, put, reads rest' ended, rfl⟩⟩

theorem reads_memberValue_iff : Reads (memberValue members d name) s d' rest ↔ ∃ gap behind,
    IsGap gap ∧ s = gap ++ byte ':' :: behind ∧ readsValue members name d behind d' rest := by
  unfold Reads memberValue readsValue
  cases members.find? (·.name = name) with
  | none =>
    dsimp only
    constructor
    · rintro ⟨shorter, read⟩
      obtain ⟨⟨_, rest', lt⟩, found, read⟩ := exists_of_bind read
      obtain ⟨rfl, rfl⟩ : d = d' ∧ rest' = rest := by
        simpa using Except.ok.inj read
      obtain ⟨gap, behind, blanks, rfl, value⟩ := reads_afterColon_iff.mp ⟨lt, found⟩
      exact ⟨gap, behind, blanks, rfl, rfl, value⟩
    · rintro ⟨gap, behind, blanks, rfl, rfl, found⟩
      obtain ⟨lt, found⟩ := reads_afterColon_iff.mpr ⟨gap, behind, blanks, rfl, found⟩
      refine ⟨lt, ?_⟩
      simp only [found, bind, Except.bind]
      rfl
  | some member =>
    dsimp only
    cases isSet : member.isSet d with
    | true => simp
    | false =>
      rw [if_neg Bool.false_ne_true]
      constructor
      · rintro ⟨shorter, read⟩
        obtain ⟨⟨put, rest', lt⟩, found, read⟩ := exists_of_bind read
        obtain ⟨rfl, rfl⟩ : put d = d' ∧ rest' = rest := by
          simpa using Except.ok.inj read
        obtain ⟨gap, behind, blanks, rfl, value⟩ := reads_afterColon_iff.mp ⟨lt, found⟩
        exact ⟨gap, behind, blanks, rfl, rfl, put, value, rfl⟩
      · rintro ⟨gap, behind, blanks, rfl, -, put, found, rfl⟩
        obtain ⟨lt, found⟩ := reads_afterColon_iff.mpr ⟨gap, behind, blanks, rfl, found⟩
        refine ⟨lt, ?_⟩
        simp only [found, bind, Except.bind]
        rfl

/-- A name in quotes, a colon, and the value that is put into the draft under the name. -/
def readsMember (members : List (Member σ)) : PartReads σ := fun d s d' rest =>
  ∃ name value : List UInt8, ∃ cs, Spells cs name ∧ Named name value s ∧
    readsValue members cs d value d' rest

theorem local_readsMember (isLocal : ∀ member ∈ members, Local (Reads member.reader)) (d : σ) :
    Local (readsMember members d) where
  opens read := by
    obtain ⟨name, value, cs, -, ⟨front, back, blanks, -, rfl⟩, -⟩ := read
    exact ⟨_, _, .string, reads_token_iff.mpr ⟨front, blanks, rfl, rfl⟩, rfl⟩
  cut read := by
    obtain ⟨name, value, cs, spells, ⟨front, back, blanks, blanks', rfl⟩, read⟩ := read
    obtain ⟨t, rfl, reads⟩ := (local_readsValue isLocal cs d).cut read
    refine ⟨front ++ byte '"' :: (name ++ byte '"' :: (back ++ byte ':' :: t)), by simp,
      fun rest' ended => ⟨name, t ++ rest', cs, spells, ?_, reads rest' ended⟩⟩
    exact ⟨front, back, blanks, blanks', by simp⟩

/-- A member is read by its quote, its name, and its value. -/
theorem readsMember_iff : readsMember members d s d' rest ↔ ∃ afterQuote cs afterName,
    Reads token s (byte '"') afterQuote ∧ Reads stringRest afterQuote cs afterName ∧
      Reads (memberValue members d cs) afterName d' rest := by
  simp only [reads_token_iff, reads_stringRest_iff, reads_memberValue_iff]
  constructor
  · rintro ⟨name, value, cs, spells, ⟨front, back, blanks, blanks', rfl⟩, read⟩
    exact ⟨_, cs, _, ⟨front, blanks, rfl, rfl⟩, ⟨name, spells, rfl⟩, back, value, blanks', rfl, read⟩
  · rintro ⟨_, cs, _, ⟨front, blanks, -, rfl⟩, ⟨name, spells, rfl⟩, back, value, blanks', rfl, read⟩
    exact ⟨name, value, cs, spells, ⟨front, back, blanks, blanks', rfl⟩, read⟩

/-- The loop that reads members reads them part by part. -/
theorem inside_of_objectTail {origin : List UInt8} {first : Bool} {lt} {step : Step σ origin}
    (h : objectTail members origin first d s lt = .ok step) :
    Inside (readsMember members) (byte '}') first d s step.value step.rest := by
  fun_induction objectTail members origin first d s lt with
  | case1 => cases h
  | case2 _ _ _ _ _ shorter close =>
    obtain rfl := Except.ok.inj h
    exact .close ⟨shorter, close⟩
  | case3 => cases h
  | case4 => cases h
  | case5 => cases h
  | case6 first d s lt b behind h₀ token notClose afterQuote h₁ name afterName h₂ string d' rest h₃
      value _ _ start ih =>
    have member {s : List UInt8} (quote : Reads Json.token s (byte '"') afterQuote) :
        readsMember members d s d' rest :=
      readsMember_iff.mpr ⟨afterQuote, name, afterName, quote, ⟨h₂, string⟩, h₃, value⟩
    cases first with
    | true =>
      obtain ⟨rfl, rfl⟩ : b = byte '"' ∧ behind = afterQuote := by
        simpa [memberStart] using start
      exact .first (member ⟨h₀, token⟩) (ih h)
    | false =>
      simp only [memberStart, Bool.false_eq_true, if_false] at start
      split at start
      · next comma =>
        subst comma
        split at start
        · next quote =>
          obtain ⟨rfl, rfl⟩ : _ = byte '"' ∧ _ = afterQuote := by
            simpa using start
          exact .next ⟨h₀, token⟩ (member ⟨_, quote⟩) (ih h)
        · cases start
      · cases start
  | case7 => cases h

theorem exists_objectTail_of_inside {first : Bool} {origin : List UInt8}
    (inside : Inside (readsMember members) (byte '}') first d s d' rest) : ∀ lt, ∃ shorter,
      objectTail members origin first d s lt = .ok ⟨d', rest, shorter⟩ := by
  induction inside with
  | close closed =>
    intro lt
    obtain ⟨shorter, closed⟩ := closed
    rw [objectTail]
    simp only [closed, if_true]
    exact ⟨shorter_trans lt shorter, trivial⟩
  | first part others ih =>
    intro lt
    obtain ⟨afterQuote, name, afterName, quote, string, value⟩ := readsMember_iff.mp part
    obtain ⟨lt', step⟩ := exists_objectTail_step true lt quote (by decide) (fun h => ⟨h, rfl⟩) string
      value
    rw [step]
    exact ih lt'
  | next comma part others ih =>
    intro lt
    obtain ⟨afterQuote, name, afterName, quote, string, value⟩ := readsMember_iff.mp part
    obtain ⟨lt', step⟩ := exists_objectTail_step false lt comma (by decide)
      (fun h => ⟨shorter_trans h quote.choose, by
        simp only [memberStart, quote.choose_spec, if_true, Bool.false_eq_true, if_false]⟩)
      string value
    rw [step]
    exact ih lt'

end Object

/-! ### Lists of members -/

section InPlace

variable {members : List (Member σ)} {x y : Nat × σ} {s rest : List UInt8}

/-- The value of the member in the next place is put into the draft. -/
def readsInPlace (members : List (Member σ)) : PartReads (Nat × σ) := fun x s y rest =>
  ∃ member put, members[x.1]? = some member ∧ Reads member.reader s put rest ∧ y = (x.1 + 1, put x.2)

theorem local_readsInPlace (isLocal : ∀ member ∈ members, Local (Reads member.reader))
    (x : Nat × σ) : Local (readsInPlace members x) where
  opens read := by
    obtain ⟨member, put, found, read, -⟩ := read
    exact (isLocal member (List.mem_of_getElem? found)).opens read
  cut read := by
    obtain ⟨member, put, found, read, rfl⟩ := read
    obtain ⟨t, rfl, reads⟩ := (isLocal member (List.mem_of_getElem? found)).cut read
    exact ⟨t, rfl, fun rest' ended => ⟨member, put, found, reads rest' ended, rfl⟩⟩

theorem drop_eq_cons {member : Member σ} {place : Nat} (found : members[place]? = some member) :
    members.drop place = member :: members.drop (place + 1) := by
  obtain ⟨bound, rfl⟩ := List.getElem?_eq_some_iff.mp found
  exact List.drop_eq_getElem_cons bound

/-- The loop that reads members in their places reads them part by part. -/
theorem inside_of_listTail {origin : List UInt8} {first : Bool} {d : σ} {left : List (Member σ)}
    {place : Nat} {lt} {step : Step σ origin} (hleft : members.drop place = left)
    (h : listTail origin first d left s lt = .ok step) : ∃ place', place ≤ place' ∧
      (members.drop place').all (·.isTrailing) = true ∧
      Inside (readsInPlace members) (byte ']') first (place, d) s (place', step.value) step.rest := by
  induction left generalizing first d s place with
  | nil =>
    unfold listTail at h
    split at h
    · cases h
    · next shorter token =>
      split at h
      · next close =>
        subst close
        obtain rfl := Except.ok.inj h
        exact ⟨place, Nat.le_refl _, by rw [hleft]; rfl, .close ⟨shorter, token⟩⟩
      · cases h
  | cons member left ih =>
    have found : members[place]? = some member := by
      rw [← List.head?_drop, hleft]
      rfl
    have hleft' : members.drop (place + 1) = left := by
      rw [← List.tail_drop, hleft]
      rfl
    unfold listTail at h
    split at h
    · cases h
    · next b behind shorter token =>
      split at h
      · next close =>
        subst close
        split at h
        · next trailing =>
          obtain rfl := Except.ok.inj h
          exact ⟨place, Nat.le_refl _, by rw [hleft]; exact trailing, .close ⟨shorter, token⟩⟩
        · cases h
      · split at h
        · cases h
        · next put rest shorter' value =>
          obtain ⟨place', le, trailing, inside⟩ := ih hleft' h
          refine ⟨place', by omega, trailing, ?_⟩
          unfold memberInPlace at value
          cases first with
          | true => exact .first ⟨member, put, found, ⟨shorter', value⟩, rfl⟩ inside
          | false =>
            simp only [Bool.false_eq_true, if_false] at value
            split at value
            · next comma =>
              subst comma
              split at value
              · next read =>
                obtain ⟨rfl, rfl⟩ : _ = put ∧ _ = rest := by
                  simpa using value
                exact .next ⟨shorter, token⟩ ⟨member, _, found, ⟨_, read⟩, rfl⟩ inside
              · cases value
            · cases value

theorem exists_listTail_of_inside {origin : List UInt8} {first : Bool}
    (isLocal : ∀ member ∈ members, Local (Reads member.reader))
    (inside : Inside (readsInPlace members) (byte ']') first x s y rest)
    (trailing : (members.drop y.1).all (·.isTrailing) = true) : ∀ lt, ∃ shorter,
      listTail origin first x.2 (members.drop x.1) s lt = .ok ⟨y.2, rest, shorter⟩ := by
  induction inside with
  | @close first x s rest closed =>
    intro lt
    obtain ⟨shorter, closed⟩ := closed
    refine ⟨shorter_trans lt shorter, ?_⟩
    cases left : members.drop x.1 with
    | nil =>
      unfold listTail
      simp only [closed, if_true]
    | cons member others =>
      rw [left] at trailing
      unfold listTail
      simp only [closed, if_true, trailing]
  | @first x y z s rest rest' part others ih =>
    intro lt
    obtain ⟨member, put, found, read, rfl⟩ := part
    obtain ⟨b, behind, kind, ⟨shorter, token⟩, announces⟩ :=
      (isLocal member (List.mem_of_getElem? found)).opens read
    have notClose := (Kind.of_ofByte? announces).2.2.1
    obtain ⟨shorter', read⟩ := read
    obtain ⟨shorter'', tail⟩ := ih trailing (shorter_trans lt shorter')
    rw [drop_eq_cons found]
    unfold listTail
    simp only [token, if_neg notClose, memberInPlace, if_true, read]
    exact ⟨shorter'', tail⟩
  | @next x y z s behind rest rest' comma part others ih =>
    intro lt
    obtain ⟨member, put, found, ⟨shorter', read⟩, rfl⟩ := part
    obtain ⟨shorter, comma⟩ := comma
    obtain ⟨shorter'', tail⟩ := ih trailing (shorter_trans lt (shorter_trans shorter shorter'))
    rw [drop_eq_cons found]
    unfold listTail
    simp only [comma, if_neg (show byte ',' ≠ byte ']' by decide), memberInPlace,
      Bool.false_eq_true, if_false, if_true, read]
    exact ⟨shorter'', tail⟩

end InPlace

/-! ### Members that do not get into each other's way -/

/-- The members of a record have names of their own, and putting one into a draft says of that one
only that it is set. -/
structure Lawful (members : List (Member σ)) (empty : σ) : Prop where
  distinct : members.Pairwise (·.name ≠ ·.name)
  isLocal : ∀ member ∈ members, Local (Reads member.reader)
  unset : ∀ member ∈ members, member.isSet empty = false
  sets : ∀ member ∈ members, Yields member.reader fun put => ∀ d, member.isSet (put d) = true
  keeps : ∀ member ∈ members, ∀ other ∈ members, other.name ≠ member.name →
    Yields other.reader fun put => ∀ d, member.isSet (put d) = member.isSet d

section Lawful

variable {members : List (Member σ)} {empty : σ}

/-- A member is found by its name. -/
theorem find?_name (distinct : members.Pairwise (·.name ≠ ·.name)) {member : Member σ}
    (mem : member ∈ members) : members.find? (·.name = member.name) = some member := by
  induction members with
  | nil => cases mem
  | cons first others ih =>
    obtain ⟨apart, distinct⟩ := List.pairwise_cons.mp distinct
    rcases List.mem_cons.mp mem with rfl | mem
    · exact List.find?_cons_of_pos (by simp)
    · rw [List.find?_cons_of_neg (by simpa using apart member mem)]
      exact ih distinct mem

theorem find?_name_eq_none {name : List Char} (h : ∀ member ∈ members, member.name ≠ name) :
    members.find? (·.name = name) = none :=
  List.find?_eq_none.mpr fun member mem => by simpa using h member mem

end Lawful

/-! ### What the text of a record tells -/

/-- The text of a record tells members with the texts of their values: those of an object, or those
of a list in their places, of which the last ones may be missing if they may trail. -/
def Tells (members : List (Member σ)) (told : List NamedText) (t : List UInt8) : Prop :=
  IsObject told t ∨ ∃ parts, IsArray parts t ∧ parts.length ≤ members.length ∧
    (members.drop parts.length).all (·.isTrailing) = true ∧
    told = (members.map (·.name)).zip parts

/-- A member that is told is put into the draft, unless it has been before.  What has a name of no
interest only has to be a value. -/
def Takes (members : List (Member σ)) (d : σ) (m : NamedText) (d' : σ) : Prop :=
  match members.find? (·.name = m.1) with
  | none => d' = d ∧ IsValue m.2
  | some member => member.isSet d = false ∧
      ∃ put, Json.document member.reader m.2 = .ok put ∧ d' = put d

section Record

variable {members : List (Member σ)} {empty d d' : σ} {finish : σ → Option α} {a : α}
  {s t rest : List UInt8}

/-- A member with its own name is put into the draft once. -/
theorem takes_name_iff (distinct : members.Pairwise (·.name ≠ ·.name)) {member : Member σ}
    (mem : member ∈ members) : Takes members d (member.name, t) d' ↔ member.isSet d = false ∧
      ∃ put, Json.document member.reader t = .ok put ∧ d' = put d := by
  unfold Takes
  simp only [find?_name distinct mem]

/-- The value of a member alone is what the member puts into the draft. -/
theorem whole_readsValue_iff {m : NamedText} :
    Whole (readsValue members m.1 d) m.2 d' ↔ Takes members d m d' := by
  unfold Whole readsValue Takes
  cases members.find? (·.name = m.1) with
  | none =>
    dsimp only
    rw [← document_skip_iff, document_eq_ok_iff, Whole]
    constructor
    · rintro ⟨gap, blanks, rfl, read⟩
      exact ⟨rfl, gap, blanks, read⟩
    · rintro ⟨rfl, gap, blanks, read⟩
      exact ⟨gap, blanks, rfl, read⟩
  | some member =>
    simp only [document_eq_ok_iff, Whole]
    constructor
    · rintro ⟨gap, blanks, notSet, put, read, rfl⟩
      exact ⟨notSet, put, ⟨gap, blanks, read⟩, rfl⟩
    · rintro ⟨notSet, put, ⟨gap, blanks, read⟩, rfl⟩
      exact ⟨gap, blanks, notSet, put, read, rfl⟩

/-- The parts of an object put their members into the draft. -/
theorem along_readsMember_iff {parts : List (List UInt8)} :
    Along (fun d => Whole (readsMember members d)) d parts d' ↔ ∃ told,
      List.Forall₂ (fun m part => ∃ name, Spells m.1 name ∧ Named name m.2 part) told parts ∧
        Along (Takes members) d told d' := by
  have step {d d' : σ} {part : List UInt8} : Whole (readsMember members d) part d' ↔
      ∃ m : NamedText, (∃ name, Spells m.1 name ∧ Named name m.2 part) ∧ Takes members d m d' := by
    simp only [← whole_readsValue_iff, Whole]
    constructor
    · rintro ⟨gap, blanks, name, value, cs, spells, named, read⟩
      exact ⟨(cs, value), ⟨name, spells, named⟩, gap, blanks, read⟩
    · rintro ⟨⟨cs, value⟩, ⟨name, spells, named⟩, gap, blanks, read⟩
      exact ⟨gap, blanks, name, value, cs, spells, named, read⟩
  induction parts generalizing d with
  | nil => simp [along_nil_iff]
  | cons part parts ih =>
    simp only [along_cons_iff, step, ih]
    constructor
    · rintro ⟨_, ⟨m, written, takes⟩, told, all, along⟩
      exact ⟨m :: told, .cons written all, .cons takes along⟩
    · rintro ⟨_, _ | ⟨written, all⟩, along⟩
      obtain ⟨_, takes, along⟩ := along_cons_iff.mp along
      exact ⟨_, ⟨_, written, takes⟩, _, all, along⟩

/-- A part of a list is the value of the member in its place. -/
theorem whole_readsInPlace_iff {part : List UInt8} {x y : Nat × σ} :
    Whole (readsInPlace members x) part y ↔ ∃ member put, members[x.1]? = some member ∧
      Json.document member.reader part = .ok put ∧ y = (x.1 + 1, put x.2) := by
  simp only [Whole, readsInPlace, document_eq_ok_iff]
  constructor
  · rintro ⟨gap, blanks, member, put, found, read, rfl⟩
    exact ⟨member, put, found, ⟨gap, blanks, read⟩, rfl⟩
  · rintro ⟨member, put, found, ⟨gap, blanks, read⟩, rfl⟩
    exact ⟨gap, blanks, member, put, found, read, rfl⟩

/-- The parts of a list put the members in their places into the draft. -/
theorem along_readsInPlace_iff (lawful : Lawful members empty) {parts : List (List UInt8)}
    {place place' : Nat} (bound : place ≤ members.length)
    (unset : ∀ member ∈ members.drop place, member.isSet d = false) :
    Along (fun x => Whole (readsInPlace members x)) (place, d) parts (place', d') ↔
      place' = place + parts.length ∧ place' ≤ members.length ∧
        Along (Takes members) d (((members.drop place).map (·.name)).zip parts) d' := by
  induction parts generalizing place d with
  | nil =>
    rw [along_nil_iff, List.zip_nil_right, along_nil_iff]
    constructor
    · rintro ⟨⟩
      exact ⟨rfl, bound, rfl⟩
    · rintro ⟨rfl, -, rfl⟩
      rfl
  | cons part parts ih =>
    rw [along_cons_iff]
    simp only [whole_readsInPlace_iff]
    -- the member in place, if there is one
    rcases hfound : members[place]? with _ | member
    · have none : members.length ≤ place := List.getElem?_eq_none_iff.mp hfound
      constructor
      · rintro ⟨_, ⟨_, _, ⟨⟩, -⟩, -⟩
      · rintro ⟨rfl, le, -⟩
        rw [List.length_cons] at le
        omega
    · have split := drop_eq_cons hfound
      have mem : member ∈ members := List.mem_of_getElem? hfound
      have bound' : place + 1 ≤ members.length := (List.getElem?_eq_some_iff.mp hfound).1
      have apart : ∀ other ∈ members.drop (place + 1), member.name ≠ other.name := by
        have distinct := lawful.distinct.sublist (List.drop_sublist place members)
        rw [split] at distinct
        exact (List.pairwise_cons.mp distinct).1
      -- the members behind it are unset still
      have unset' {put : σ → σ} (read : Json.document member.reader part = .ok put) :
          ∀ other ∈ members.drop (place + 1), other.isSet (put d) = false := by
        intro other memOther
        have keeps := lawful.keeps other (List.mem_of_mem_drop memOther) member mem
          (apart other memOther)
        rw [Yields.document keeps read d]
        exact unset other (by rw [split]; exact List.mem_cons_of_mem _ memOther)
      rw [split, List.map_cons, List.zip_cons_cons, along_cons_iff]
      simp only [takes_name_iff lawful.distinct mem, List.length_cons]
      constructor
      · rintro ⟨_, ⟨_, put, ⟨⟩, read, rfl⟩, along⟩
        obtain ⟨rfl, le, along⟩ := (ih bound' (unset' read)).mp along
        exact ⟨by omega, le, _, ⟨unset member (by rw [split]; exact List.mem_cons_self), put, read,
          rfl⟩, along⟩
      · rintro ⟨rfl, le, _, ⟨-, put, read, rfl⟩, along⟩
        exact ⟨_, ⟨member, put, rfl, read, rfl⟩,
          (ih bound' (unset' read)).mpr ⟨by omega, le, along⟩⟩

/-- What is read of a record before it is finished: an object, or a list of its members. -/
theorem reads_record_iff (isLocal : ∀ member ∈ members, Local (Reads member.reader)) :
    Reads (record members empty finish) s a rest ↔ ∃ d, finish d = some a ∧
      (Bracketed (readsMember members) (byte '{') (byte '}') empty s d rest ∨
        ∃ place, (members.drop place).all (·.isTrailing) = true ∧
          Bracketed (readsInPlace members) (byte '[') (byte ']') (0, empty) s (place, d) rest) := by
  rw [record, reads_refine_iff]
  refine exists_congr fun d => ?_
  rw [and_comm]
  refine and_congr_right fun _ => ?_
  constructor
  · rintro ⟨shorter, read⟩
    dsimp only at read
    split at read
    · cases read
    · next b behind lt first =>
      split at read
      · next isObject =>
        subst isObject
        exact .inl ⟨behind, ⟨lt, first⟩, inside_of_objectTail read⟩
      split at read
      · next isList =>
        subst isList
        obtain ⟨place, -, trailing, inside⟩ := inside_of_listTail (List.drop_zero) read
        exact .inr ⟨place, trailing, behind, ⟨lt, first⟩, inside⟩
      · split at read
        · cases read
        · cases read
  · rintro (⟨behind, ⟨lt, first⟩, inside⟩ | ⟨place, trailing, behind, ⟨lt, first⟩, inside⟩)
    · obtain ⟨shorter, tail⟩ := exists_objectTail_of_inside inside lt
      refine ⟨shorter, ?_⟩
      simp only [first, if_true]
      exact tail
    · obtain ⟨shorter, tail⟩ := exists_listTail_of_inside isLocal inside trailing lt
      refine ⟨shorter, ?_⟩
      simp only [first, if_neg (show byte '[' ≠ byte '{' by decide), if_true]
      exact tail

/-- **The reader of a record is local** if those of its members are. -/
theorem local_record (isLocal : ∀ member ∈ members, Local (Reads member.reader)) :
    Local (Reads (record members empty finish)) where
  opens read := by
    obtain ⟨d, -, ⟨behind, opened, -⟩ | ⟨_, -, behind, opened, -⟩⟩ :=
      (reads_record_iff isLocal).mp read
    · exact ⟨_, behind, .object, opened, rfl⟩
    · exact ⟨_, behind, .array, opened, rfl⟩
  cut read := by
    obtain ⟨d, finished, object | ⟨place, trailing, list⟩⟩ := (reads_record_iff isLocal).mp read
    · obtain ⟨t, rfl, reads⟩ := (local_bracketed (local_readsMember isLocal) (.inr rfl)
        (rfl : Kind.ofByte? (byte '{') = some .object) empty).cut object
      exact ⟨t, rfl, fun rest' ended =>
        (reads_record_iff isLocal).mpr ⟨d, finished, .inl (reads rest' ended)⟩⟩
    · obtain ⟨t, rfl, reads⟩ := (local_bracketed (local_readsInPlace isLocal) (.inl rfl)
        (rfl : Kind.ofByte? (byte '[') = some .array) (0, empty)).cut list
      exact ⟨t, rfl, fun rest' ended =>
        (reads_record_iff isLocal).mpr ⟨d, finished, .inr ⟨place, trailing, reads rest' ended⟩⟩⟩

/-- **A record holds what its members put into the draft**, as its text tells them. -/
theorem document_record_iff (lawful : Lawful members empty) :
    Json.document (record members empty finish) t = .ok a ↔ ∃ told, Tells members told t ∧
      ∃ d, Along (Takes members) empty told d ∧ finish d = some a := by
  have isLocal := lawful.isLocal
  have object (d : σ) :
      Whole (Bracketed (readsMember members) (byte '{') (byte '}') empty) t d ↔ _ :=
    whole_bracketed_iff (local_readsMember isLocal) (.inr rfl) rfl
  have list (x : Nat × σ) :
      Whole (Bracketed (readsInPlace members) (byte '[') (byte ']') (0, empty)) t x ↔ _ :=
    whole_bracketed_iff (local_readsInPlace isLocal) (.inl rfl) rfl
  have inPlace {parts : List (List UInt8)} {place : Nat} {d : σ} :
      Along (fun x => Whole (readsInPlace members x)) (0, empty) parts (place, d) ↔ _ :=
    along_readsInPlace_iff lawful (Nat.zero_le _)
      fun member mem => lawful.unset member (List.mem_of_mem_drop mem)
  simp only [along_readsMember_iff] at object
  simp only [inPlace, Nat.zero_add, List.drop_zero] at list
  have whole : Json.document (record members empty finish) t = .ok a ↔ ∃ d, finish d = some a ∧
      (Whole (Bracketed (readsMember members) (byte '{') (byte '}') empty) t d ∨
        ∃ place, (members.drop place).all (·.isTrailing) = true ∧
          Whole (Bracketed (readsInPlace members) (byte '[') (byte ']') (0, empty)) t (place, d)) := by
    rw [document_eq_ok_iff]
    simp only [Whole, reads_record_iff isLocal]
    constructor
    · rintro ⟨gap, blanks, d, finished, read | ⟨place, trailing, read⟩⟩
      · exact ⟨d, finished, .inl ⟨gap, blanks, read⟩⟩
      · exact ⟨d, finished, .inr ⟨place, trailing, gap, blanks, read⟩⟩
    · rintro ⟨d, finished, ⟨gap, blanks, read⟩ | ⟨place, trailing, gap, blanks, read⟩⟩
      · exact ⟨gap, blanks, d, finished, .inl read⟩
      · exact ⟨gap, blanks, d, finished, .inr ⟨place, trailing, read⟩⟩
  rw [whole]
  simp only [object, list]
  constructor
  · rintro ⟨d, finished, ⟨parts, encloses, told, written, along⟩ |
      ⟨_, trailing, parts, encloses, rfl, le, along⟩⟩
    · exact ⟨told, .inl ⟨parts, encloses, written⟩, d, along, finished⟩
    · exact ⟨_, .inr ⟨parts, encloses, le, trailing, rfl⟩, d, along, finished⟩
  · rintro ⟨told, ⟨parts, encloses, written⟩ | ⟨parts, encloses, le, trailing, rfl⟩, d, along, finished⟩
    · exact ⟨d, finished, .inl ⟨parts, encloses, told, written, along⟩⟩
    · exact ⟨d, finished, .inr ⟨_, trailing, parts, encloses, rfl, le, along⟩⟩

end Record

/-! ### What is told of each member -/

/-- What is told of a member: nothing, or once the text of its value. -/
def Given {β : Type} (reader : Reader β) (name : List Char) (told : List NamedText) :
    Option β → Prop
  | none => told.filter (·.1 = name) = []
  | some v => ∃ t, told.filter (·.1 = name) = [(name, t)] ∧ Json.document reader t = .ok v

/-- What has a name of no interest is a value. -/
def Ignores (members : List (Member σ)) (told : List NamedText) : Prop :=
  ∀ m ∈ told, (∀ member ∈ members, member.name ≠ m.1) → IsValue m.2

/-- At most one thing is told of a member. -/
theorem Given.unique {reader : Reader α} {name : List Char} {told : List NamedText}
    {o o' : Option α} (h : Given reader name told o) (h' : Given reader name told o') : o = o' := by
  cases o with
  | none =>
    cases o' with
    | none => rfl
    | some v' =>
      obtain ⟨t, one, -⟩ := h'
      rw [show told.filter (·.1 = name) = [] from h] at one
      cases one
  | some v =>
    obtain ⟨t, one, read⟩ := h
    cases o' with
    | none =>
      rw [show told.filter (·.1 = name) = [] from h'] at one
      cases one
    | some v' =>
      obtain ⟨t', one', read'⟩ := h'
      rw [one] at one'
      obtain ⟨rfl⟩ : t = t' := by simpa using one'
      exact congrArg some (Except.ok.inj (read.symm.trans read'))

/-! ### Fields -/

/-- A field of a draft: how the member of a record that fills it is read, and where it is kept. -/
structure Field (σ : Type) where
  {β : Type}
  name : String
  reader : Reader β
  get : σ → Option β
  put : β → σ → σ
  isTrailing : Bool

/-- The member that fills a field. -/
def Field.member (f : Field σ) : Member σ := .of f.name f.reader f.get f.put f.isTrailing

/-- Two fields have names of their own, and filling one leaves the other as it is. -/
def Field.Apart (f g : Field σ) : Prop :=
  f.name ≠ g.name ∧ (∀ v d, f.get (g.put v d) = f.get d) ∧ ∀ v d, g.get (f.put v d) = g.get d

/-- The members of a record fill fields, one each, which are empty at first. -/
structure AreFields (fields : List (Field σ)) (members : List (Member σ)) (empty : σ) : Prop where
  members_eq : members = fields.map Field.member
  isLocal : ∀ f ∈ fields, Local (Reads f.reader)
  unset : ∀ f ∈ fields, f.get empty = none
  get_put : ∀ f ∈ fields, ∀ v d, f.get (f.put v d) = some v
  apart : fields.Pairwise Field.Apart

section Fields

variable {f g : Field σ} {s t rest : List UInt8}

theorem Field.Apart.symm (h : f.Apart g) : g.Apart f := ⟨h.1.symm, h.2.2, h.2.1⟩

theorem Field.reads_member_iff {step : σ → σ} : Reads f.member.reader s step rest ↔
    ∃ v, Reads f.reader s v rest ∧ step = f.put v := by
  constructor
  · rintro ⟨shorter, read⟩
    obtain ⟨⟨v, rest', lt⟩, found, read⟩ := exists_of_bind read
    obtain ⟨rfl, rfl⟩ : f.put v = step ∧ rest' = rest := by
      simpa using Except.ok.inj read
    exact ⟨v, ⟨lt, found⟩, rfl⟩
  · rintro ⟨v, ⟨lt, found⟩, rfl⟩
    refine ⟨lt, ?_⟩
    simp only [Field.member, Member.of, found, bind, Except.bind]
    rfl

theorem Field.document_member_iff {step : σ → σ} : Json.document f.member.reader t = .ok step ↔
    ∃ v, Json.document f.reader t = .ok v ∧ step = f.put v := by
  simp only [document_eq_ok_iff, Whole, Field.reads_member_iff]
  constructor
  · rintro ⟨gap, blanks, v, read, rfl⟩
    exact ⟨v, ⟨gap, blanks, read⟩, rfl⟩
  · rintro ⟨v, ⟨gap, blanks, read⟩, rfl⟩
    exact ⟨gap, blanks, v, read, rfl⟩

theorem Field.local_member (h : Local (Reads f.reader)) : Local (Reads f.member.reader) where
  opens read := by
    obtain ⟨v, read, -⟩ := reads_member_iff.mp read
    exact h.opens read
  cut read := by
    obtain ⟨v, found, rfl⟩ := reads_member_iff.mp read
    obtain ⟨t, rfl, reads⟩ := h.cut found
    exact ⟨t, rfl, fun rest' ended => reads_member_iff.mpr ⟨v, reads rest' ended, rfl⟩⟩

theorem Field.yields_member {P : (σ → σ) → Prop} (h : ∀ v, P (f.put v)) :
    Yields f.member.reader P := by
  rintro s ⟨step, rest, shorter⟩ read
  obtain ⟨v, -, rfl⟩ := reads_member_iff.mp ⟨shorter, read⟩
  exact h v

namespace AreFields

variable {fields : List (Field σ)} {members : List (Member σ)} {empty d d' : σ}
  {told : List NamedText}

theorem member_mem (h : AreFields fields members empty) (mem : f ∈ fields) : f.member ∈ members := by
  rw [h.members_eq]
  exact List.mem_map_of_mem mem

/-- Fields with different names keep apart. -/
theorem apart_of_name_ne (h : AreFields fields members empty) (mem : f ∈ fields) (mem' : g ∈ fields)
    (ne : f.name ≠ g.name) : f.Apart g :=
  have : Std.Symm (Field.Apart (σ := σ)) := ⟨fun _ _ => Field.Apart.symm⟩
  h.apart.forall mem mem' fun eq => ne (congrArg Field.name eq)

theorem distinct (h : AreFields fields members empty) : members.Pairwise (·.name ≠ ·.name) := by
  rw [h.members_eq, List.pairwise_map]
  exact h.apart.imp fun apart eq => apart.1 (String.toList_inj.mp eq)

/-- Members that fill fields do not get into each other's way. -/
theorem lawful (h : AreFields fields members empty) : Lawful members empty := by
  have isField : ∀ member ∈ members, ∃ f ∈ fields, f.member = member := by
    rw [h.members_eq]
    exact fun _ => List.mem_map.mp
  refine ⟨h.distinct, fun member mem => ?_, fun member mem => ?_, fun member mem => ?_,
    fun member mem other memOther apart => ?_⟩
  all_goals obtain ⟨f, memField, rfl⟩ := isField member mem
  · exact Field.local_member (h.isLocal f memField)
  · show (f.get empty).isSome = false
    rw [h.unset f memField]
    rfl
  · refine Field.yields_member fun v d => ?_
    show (f.get (f.put v d)).isSome = true
    rw [h.get_put f memField]
    rfl
  · obtain ⟨g, memField', rfl⟩ := isField other memOther
    have apart := h.apart_of_name_ne memField' memField fun eq => apart (congrArg String.toList eq)
    exact Field.yields_member fun v d => congrArg Option.isSome (apart.2.2 v d)

/-- What has another name leaves a field as it is. -/
theorem get_of_takes (h : AreFields fields members empty) (mem : f ∈ fields) {m : NamedText}
    (other : m.1 ≠ f.name.toList) (takes : Takes members d m d') : f.get d' = f.get d := by
  unfold Takes at takes
  split at takes
  · rw [takes.1]
  · next member found =>
    obtain ⟨-, step, read, rfl⟩ := takes
    have memOther := List.mem_of_find?_eq_some found
    rw [h.members_eq] at memOther
    obtain ⟨g, memField, rfl⟩ := List.mem_map.mp memOther
    have named : g.name.toList = m.1 := by
      simpa [Field.member, Member.of] using List.find?_some found
    obtain ⟨v, -, rfl⟩ := Field.document_member_iff.mp read
    exact (h.apart_of_name_ne mem memField fun eq =>
      other (named.symm.trans (congrArg String.toList eq).symm)).2.1 v d

/-- Along what is told a field is filled by what is told of it, and stays as it is once it is
filled. -/
theorem of_along (h : AreFields fields members empty) (mem : f ∈ fields)
    (along : Along (Takes members) d told d') :
    (f.get d = none → Given f.reader f.name.toList told (f.get d')) ∧
      ∀ v, f.get d = some v → told.filter (·.1 = f.name.toList) = [] ∧ f.get d' = some v := by
  induction along with
  | @nil d =>
    refine ⟨fun none => ?_, fun v some => ⟨rfl, some⟩⟩
    rw [none]
    exact rfl
  | @cons d d₁ d' m told takes others ih =>
    obtain ⟨ihNone, ihSome⟩ := ih
    by_cases own : m.1 = f.name.toList
    · -- the member of the field itself
      obtain ⟨name, t⟩ := m
      obtain rfl : name = f.member.name := own
      obtain ⟨notSet, step, found, rfl⟩ := (takes_name_iff h.distinct (h.member_mem mem)).mp takes
      obtain ⟨v, read, rfl⟩ := Field.document_member_iff.mp found
      obtain ⟨nothing, value⟩ := ihSome v (h.get_put f mem v d)
      have unset : f.get d = none :=
        Option.isNone_iff_eq_none.mp (Option.isSome_eq_false_iff.mp notSet)
      refine ⟨fun _ => ?_, fun v' some => absurd (unset.symm.trans some) (by simp)⟩
      rw [value]
      have front : ((f.member.name, t) :: told).filter (·.1 = f.name.toList) =
          (f.member.name, t) :: told.filter (·.1 = f.name.toList) :=
        List.filter_cons_of_pos (decide_eq_true rfl)
      exact ⟨t, front.trans (by rw [nothing]; rfl), read⟩
    · have skip : (m :: told).filter (·.1 = f.name.toList) = told.filter (·.1 = f.name.toList) :=
        List.filter_cons_of_neg (by simpa using own)
      rw [← h.get_of_takes mem own takes]
      refine ⟨fun none => ?_, fun v some => by rw [skip]; exact ihSome v some⟩
      have given := ihNone none
      unfold Given at given ⊢
      rwa [skip]

/-- **A field holds what is told of its member.** -/
theorem given (h : AreFields fields members empty) (along : Along (Takes members) empty told d) :
    ∀ f ∈ fields, Given f.reader f.name.toList told (f.get d) :=
  fun f mem => (h.of_along mem along).1 (h.unset f mem)

end AreFields

end Fields

/-! ### Drafts that can be filled -/

section Filled

variable {members : List (Member σ)} {empty d d' : σ} {told : List NamedText}

/-- Along what is told nothing of no interest is anything but a value. -/
theorem Along.ignores (along : Along (Takes members) d told d') : Ignores members told := by
  induction along with
  | nil => exact List.forall_mem_nil _
  | @cons d d₁ d' m told takes others ih =>
    refine List.forall_mem_cons.mpr ⟨fun unknown => ?_, ih⟩
    unfold Takes at takes
    rw [find?_name_eq_none unknown] at takes
    exact takes.2

/-- What is told of a member can be read. -/
def Readable (told : List NamedText) (member : Member σ) : Prop :=
  told.filter (·.1 = member.name) = [] ∨ ∃ t put,
    told.filter (·.1 = member.name) = [(member.name, t)] ∧ Json.document member.reader t = .ok put

theorem Given.readable {f : Field σ} {o : Option f.β} (h : Given f.reader f.name.toList told o) :
    Readable told f.member := by
  cases o with
  | none => exact .inl h
  | some v =>
    obtain ⟨t, one, read⟩ := h
    exact .inr ⟨t, f.put v, one, Field.document_member_iff.mpr ⟨v, read, rfl⟩⟩

/-- **The draft can be filled** if at most one thing is told of each member, and that can be read. -/
theorem exists_along (lawful : Lawful members empty) (ignores : Ignores members told)
    (readable : ∀ member ∈ members, Readable told member) :
    ∃ d, Along (Takes members) empty told d := by
  -- what is still to be told of a member can be read, and then the member is not set yet
  have go : ∀ d, (∀ member ∈ members, told.filter (·.1 = member.name) = [] ∨
      member.isSet d = false ∧ Readable told member) → ∃ d', Along (Takes members) d told d' := by
    clear readable
    induction told with
    | nil => exact fun d _ => ⟨d, .nil⟩
    | cons m told ih =>
      intro d readable
      obtain ⟨value, ignores'⟩ : _ ∧ Ignores members told := List.forall_mem_cons.mp ignores
      have skip {member : Member σ} (apart : ¬m.1 = member.name) :
          (m :: told).filter (·.1 = member.name) = told.filter (·.1 = member.name) :=
        List.filter_cons_of_neg (by simpa using apart)
      by_cases known : ∃ member ∈ members, member.name = m.1
      · obtain ⟨member, mem, named⟩ := known
        have front : (m :: told).filter (·.1 = member.name) =
            m :: told.filter (·.1 = member.name) :=
          List.filter_cons_of_pos (by simp [named])
        obtain ⟨notSet, t, put, rfl, nothing, read⟩ : member.isSet d = false ∧ ∃ t put,
            m = (member.name, t) ∧ told.filter (·.1 = member.name) = [] ∧
              Json.document member.reader t = .ok put := by
          rcases readable member mem with none | ⟨notSet, none | ⟨t, put, one, read⟩⟩
          · rw [front] at none
            cases none
          · rw [front] at none
            cases none
          · rw [front] at one
            obtain ⟨rfl, nothing⟩ := List.cons.inj one
            exact ⟨notSet, t, put, rfl, nothing, read⟩
        obtain ⟨d', along⟩ := ih ignores' (put d) fun other memOther => by
          by_cases same : other.name = member.name
          · exact .inl (by rw [same]; exact nothing)
          · have keeps := Yields.document (lawful.keeps other memOther member mem (Ne.symm same)) read d
            have readable := readable other memOther
            rwa [Readable, skip (Ne.symm same), ← keeps] at readable
        exact ⟨d', .cons ((takes_name_iff lawful.distinct mem).mpr ⟨notSet, put, read, rfl⟩) along⟩
      · have unknown : ∀ member ∈ members, member.name ≠ m.1 :=
          fun member mem named => known ⟨member, mem, named⟩
        obtain ⟨d', along⟩ := ih ignores' d fun member mem => by
          have readable := readable member mem
          rwa [Readable, skip fun eq => unknown member mem eq.symm] at readable
        refine ⟨d', .cons ?_ along⟩
        unfold Takes
        rw [find?_name_eq_none unknown]
        exact ⟨rfl, value unknown⟩
  exact go empty fun member mem => .inr ⟨lawful.unset member mem, readable member mem⟩

/-- **What is told fills a draft** exactly if each field holds what is told of its member, and nothing
of no interest is anything but a value.  There is no more to a draft than its fields. -/
theorem AreFields.along_iff {fields : List (Field σ)} (h : AreFields fields members empty)
    (ext : ∀ d d', (∀ f ∈ fields, f.get d = f.get d') → d = d') :
    Along (Takes members) empty told d ↔
      Ignores members told ∧ ∀ f ∈ fields, Given f.reader f.name.toList told (f.get d) := by
  constructor
  · exact fun along => ⟨along.ignores, h.given along⟩
  · rintro ⟨ignores, given⟩
    have readable : ∀ member ∈ members, Readable told member := by
      rw [h.members_eq]
      exact List.forall_mem_map.mpr fun f mem => (given f mem).readable
    obtain ⟨d', along⟩ := exists_along h.lawful ignores readable
    obtain rfl : d = d' := ext d d' fun f mem => (given f mem).unique (h.given along f mem)
    exact along

end Filled

/-! ### Records with one member -/

/-- The text is an object in which one member has the given name, and that has the given value.  Other
members are values that nobody looks at. -/
def HasMember (name : List Char) (value t : List UInt8) : Prop :=
  ∃ told, IsObject told t ∧ told.filter (·.1 = name) = [(name, value)] ∧
    ∀ m ∈ told, m.1 ≠ name → IsValue m.2

section Single

variable {name : String} {reader : Reader α} {t : List UInt8} {v : α}

/-- The only field of a draft. -/
def single (name : String) (reader : Reader α) : Field (Option α) :=
  ⟨name, reader, id, fun v _ => some v, false⟩

theorem areFields_single (isLocal : Local (Reads reader)) :
    AreFields [single name reader] [(single name reader).member] none where
  members_eq := rfl
  isLocal := List.forall_mem_singleton.mpr isLocal
  unset := List.forall_mem_singleton.mpr rfl
  get_put := List.forall_mem_singleton.mpr fun _ _ => rfl
  apart := List.pairwise_singleton _ _

/-- What is told of the only member is what the draft holds. -/
theorem along_single_iff (isLocal : Local (Reads reader)) {told : List NamedText} {d : Option α} :
    Along (Takes [(single name reader).member]) none told d ↔
      (∀ m ∈ told, m.1 ≠ name.toList → IsValue m.2) ∧ Given reader name.toList told d := by
  have fields : AreFields [single name reader] _ none := areFields_single isLocal
  rw [fields.along_iff fun d d' same => same _ (List.mem_singleton_self _), Ignores]
  simp only [List.forall_mem_singleton]
  exact and_congr_left fun _ => forall₂_congr fun m _ => imp_congr_left ne_comm

/-- **What a record with one member holds** is told by an object, or by a list of that one alone. -/
theorem document_single_iff (isLocal : Local (Reads reader)) :
    Json.document (record [(single name reader).member] none id) t = .ok v ↔ ∃ value,
      (HasMember name.toList value t ∨ IsArray [value] t) ∧ Json.document reader value = .ok v := by
  rw [document_record_iff (areFields_single isLocal).lawful]
  simp only [id_eq, exists_eq_right, along_single_iff isLocal]
  constructor
  · rintro ⟨told, object | ⟨parts, array, le, trailing, rfl⟩, others, value, one, read⟩
    · exact ⟨value, .inl ⟨told, object, one, others⟩, read⟩
    · cases parts with
      | nil => cases one
      | cons part parts =>
        obtain rfl : parts = [] :=
          List.eq_nil_of_length_eq_zero (Nat.le_zero.mp (Nat.le_of_succ_le_succ le))
        obtain rfl : part = value := by simpa [single, Field.member, Member.of] using one
        exact ⟨part, .inr array, read⟩
  · rintro ⟨value, ⟨told, object, one, others⟩ | array, read⟩
    · exact ⟨told, .inl object, others, value, one, read⟩
    · refine ⟨_, .inr ⟨[value], array, Nat.le_refl _, rfl, rfl⟩, ?_, value, ?_, read⟩
      · simp [single, Field.member, Member.of]
      · simp [single, Field.member, Member.of]

end Single

end ProductSegments.Json

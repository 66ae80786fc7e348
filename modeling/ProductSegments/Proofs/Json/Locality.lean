import Mathlib.Data.List.TakeWhile
import ProductSegments.Proofs.Json.Number
import ProductSegments.Proofs.Json.Yield

/-!
# Readers look at their own text

A reader takes a text from the front of some bytes, and it takes the same text wherever a value may
end behind it.  So what a reader reads in the middle of a document is what it reads of that text
alone, and the parts of a document can be described one by one.

## Main definitions

* `Json.Local` — a reader looks at no more than the text that it takes, and at how it ends.
* `Json.Whole` — a text alone, up to blanks behind it.
* `Json.Scalar.Written` — how a scalar is written.

## Main results

* `Json.document_eq_ok_iff` — a document holds what is read of it as a whole.
* `Json.Local.exists_whole`, `Json.Local.exists_append` — what is read in front of something else is
  read of its text alone, and the other way round.
* `Json.document_scalar_iff` — a document holds a scalar if it is one, among blanks.
* `Json.local_scalar`, `Json.local_expect`, `Json.local_refine`, `Json.local_optional` — the readers of
  single values are local.
-/

namespace ProductSegments.Json

variable {α β : Type}

/-! ### What is read first -/

section Token

variable {s rest : List UInt8} {b : UInt8}

theorem skipBlanks_append {gap : List UInt8} (h : IsGap gap) (s : List UInt8) :
    skipBlanks (gap ++ s) = skipBlanks s :=
  List.dropWhile_append_of_pos h

theorem skipBlanks_eq_nil_iff : skipBlanks s = [] ↔ IsGap s := List.dropWhile_eq_nil_iff

/-- **The first byte that is no blank** stands behind blanks. -/
theorem skipBlanks_eq_cons_iff :
    skipBlanks s = b :: rest ↔ ∃ gap, IsGap gap ∧ isBlank b = false ∧ s = gap ++ b :: rest := by
  constructor
  · intro h
    have head := List.head_dropWhile_not isBlank (l := s) (w := by
      rw [show s.dropWhile isBlank = b :: rest from h]; simp)
    refine ⟨s.takeWhile isBlank, fun c hc => List.all_eq_true.mp List.all_takeWhile c hc, ?_, ?_⟩
    · simpa [show s.dropWhile isBlank = b :: rest from h] using head
    · rw [← h, skipBlanks, List.takeWhile_append_dropWhile]
  · rintro ⟨gap, blanks, notBlank, rfl⟩
    rw [skipBlanks_append blanks, skipBlanks, List.dropWhile_cons_of_neg (by simp [notBlank])]

theorem reads_token_iff_skipBlanks : Reads token s b rest ↔ skipBlanks s = b :: rest := by
  unfold Reads token
  split
  · next none => simp [none]
  · next first others some =>
    constructor
    · rintro ⟨_, read⟩
      obtain ⟨rfl, rfl⟩ : first = b ∧ others = rest := by
        simpa using read
      exact some
    · intro h
      obtain ⟨rfl, rfl⟩ := List.cons.inj (some.symm.trans h)
      exact ⟨length_of_skipBlanks some, rfl⟩

theorem reads_token_iff :
    Reads token s b rest ↔ ∃ gap, IsGap gap ∧ isBlank b = false ∧ s = gap ++ b :: rest :=
  reads_token_iff_skipBlanks.trans skipBlanks_eq_cons_iff

/-- A reader gives one value and leaves one rest. -/
theorem reads_unique {reader : Reader α} {v w : α} {rest' : List UInt8} (h : Reads reader s v rest)
    (h' : Reads reader s w rest') : v = w ∧ rest = rest' := by
  obtain ⟨_, h⟩ := h
  obtain ⟨_, h'⟩ := h'
  simpa using h.symm.trans h'

end Token

/-! ### What may stand behind a value -/

section Ended

variable {gap rest : List UInt8}

theorem ended_nil : Ended [] := by simp [Ended]

theorem ended_cons {b : UInt8} (h : b = byte ',' ∨ b = byte ']' ∨ b = byte '}')
    (s : List UInt8) : Ended (b :: s) := by
  intro c hc
  obtain rfl : b = c := by simpa using hc
  exact .inr h

theorem Ended.append (h : Ended rest) (blanks : IsGap gap) : Ended (gap ++ rest) := by
  cases gap with
  | nil => exact h
  | cons b gap =>
    intro c hc
    obtain rfl : b = c := by simpa using hc
    exact .inl (blanks b List.mem_cons_self)

theorem IsGap.ended (h : IsGap gap) : Ended gap := by
  have ended := ended_nil.append h
  rwa [List.append_nil] at ended

end Ended

/-! ### A text alone -/

/-- The relation reads the text as a whole: nothing but blanks are left. -/
def Whole (R : List UInt8 → α → List UInt8 → Prop) (t : List UInt8) (v : α) : Prop :=
  ∃ gap, IsGap gap ∧ R t v gap

/-- **A document holds what is read of it as a whole.** -/
theorem document_eq_ok_iff {reader : Reader α} {t : List UInt8} {v : α} :
    Json.document reader t = .ok v ↔ Whole (Reads reader) t v := by
  constructor
  · intro h
    obtain ⟨⟨value, rest, shorter⟩, read, h⟩ := exists_of_bind h
    dsimp only at h
    split at h
    · next done =>
      obtain rfl := Except.ok.inj h
      exact ⟨rest, skipBlanks_eq_nil_iff.mp (List.isEmpty_iff.mp done), shorter, read⟩
    · cases h
  · rintro ⟨gap, blanks, shorter, read⟩
    unfold Json.document
    rw [read]
    simp only [bind, Except.bind, skipBlanks_eq_nil_iff.mpr blanks]
    rfl

/-- A value begins with a byte that announces one, and it is the same wherever it may end. -/
structure Local (R : List UInt8 → α → List UInt8 → Prop) : Prop where
  opens {s rest : List UInt8} {v : α} (read : R s v rest) :
    ∃ b behind kind, Reads token s b behind ∧ Kind.ofByte? b = some kind
  cut {s rest : List UInt8} {v : α} (read : R s v rest) :
    ∃ t, s = t ++ rest ∧ ∀ rest', Ended rest' → R (t ++ rest') v rest'

namespace Local

variable {R : List UInt8 → α → List UInt8 → Prop} {s t rest : List UInt8} {v : α}

/-- **What is read in front of something else is read of its text alone**, with blanks behind it or
without. -/
theorem exists_whole (h : Local R) (read : R s v rest) :
    ∃ t, s = t ++ rest ∧ ∀ gap, IsGap gap → Whole R (t ++ gap) v := by
  obtain ⟨t, rfl, reads⟩ := h.cut read
  exact ⟨t, rfl, fun gap blanks => ⟨gap, blanks, reads gap blanks.ended⟩⟩

/-- **What is read of a text alone is read in front of whatever may follow.** -/
theorem exists_append (h : Local R) (whole : Whole R t v) :
    ∃ gap, IsGap gap ∧ ∀ rest, Ended rest → R (t ++ rest) v (gap ++ rest) := by
  obtain ⟨gap, blanks, read⟩ := whole
  obtain ⟨core, rfl, reads⟩ := h.cut read
  refine ⟨gap, blanks, fun rest ended => ?_⟩
  rw [List.append_assoc]
  exact reads _ (ended.append blanks)

/-- The byte that announces a value belongs to its text. -/
theorem exists_cons (h : Local R) (read : R s v rest) : ∃ gap b t kind, IsGap gap ∧
    Kind.ofByte? b = some kind ∧ s = gap ++ b :: (t ++ rest) ∧
    ∀ rest', Ended rest' → R (gap ++ b :: (t ++ rest')) v rest' := by
  obtain ⟨t, rfl, reads⟩ := h.cut read
  have alone := reads [] ended_nil
  rw [List.append_nil] at alone
  obtain ⟨b, behind, kind, first, announces⟩ := h.opens alone
  obtain ⟨gap, blanks, -, rfl⟩ := reads_token_iff.mp first
  simp only [List.append_assoc, List.cons_append] at reads ⊢
  exact ⟨gap, b, behind, kind, blanks, announces, rfl, reads⟩

end Local

/-! ### Readers made of others -/

section Made

variable {reader : Reader α} {s rest : List UInt8}

theorem reads_refine_iff {f : α → Option β} {b : β} : Reads (refine f reader) s b rest ↔
    ∃ a, Reads reader s a rest ∧ f a = some b := by
  constructor
  · rintro ⟨shorter, read⟩
    obtain ⟨⟨a, rest', shorter'⟩, found, read⟩ := exists_of_bind read
    dsimp only at read
    split at read
    · next some =>
      obtain ⟨rfl, rfl⟩ : _ = b ∧ rest' = rest := by
        simpa using Except.ok.inj read
      exact ⟨a, ⟨shorter', found⟩, some⟩
    · cases read
  · rintro ⟨a, read, some⟩
    exact reads_refine read some

theorem reads_expect_iff {select : Scalar → Except Fault α} {a : α} :
    Reads (expect select) s a rest ↔ ∃ found, Reads scalar s found rest ∧ select found = .ok a := by
  constructor
  · rintro ⟨shorter, read⟩
    obtain ⟨⟨found, rest', shorter'⟩, scalar, read⟩ := exists_of_bind read
    obtain ⟨a', selected, read⟩ := exists_of_bind read
    obtain ⟨rfl, rfl⟩ : a' = a ∧ rest' = rest := by
      simpa using Except.ok.inj read
    exact ⟨found, ⟨shorter', scalar⟩, selected⟩
  · rintro ⟨found, read, selected⟩
    exact reads_expect read selected

theorem reads_word_iff {expected origin s : List UInt8} {value v : α} {lt} :
    (∃ shorter, word expected value s origin lt = .ok ⟨v, rest, shorter⟩) ↔
      v = value ∧ s = expected ++ rest := by
  constructor
  · rintro ⟨shorter, read⟩
    unfold word at read
    split at read
    · next found =>
      obtain ⟨rfl, rfl⟩ : value = v ∧ _ = rest := by
        simpa using Except.ok.inj read
      exact ⟨rfl, exactly?_eq_some_iff.mp found⟩
    · cases read
  · rintro ⟨rfl, rfl⟩
    exact exists_word expected v origin lt

theorem reads_optional_iff {o : Option α} : Reads (optional reader) s o rest ↔
    ∃ b behind, Reads token s b behind ∧
      if b = byte 'n' then o = none ∧ behind = ascii "ull" ++ rest
      else ∃ a, o = some a ∧ Reads reader s a rest := by
  constructor
  · rintro ⟨shorter, read⟩
    unfold optional at read
    split at read
    · cases read
    · next b behind lt first =>
      refine ⟨b, behind, ⟨lt, first⟩, ?_⟩
      split at read
      · next null =>
        rw [if_pos null]
        exact reads_word_iff.mp ⟨shorter, read⟩
      · next notNull =>
        rw [if_neg notNull]
        obtain ⟨⟨a, rest', shorter'⟩, found, read⟩ := exists_of_bind read
        obtain ⟨rfl, rfl⟩ : some a = o ∧ rest' = rest := by
          simpa using Except.ok.inj read
        exact ⟨a, rfl, shorter', found⟩
  · rintro ⟨b, behind, ⟨lt, first⟩, h⟩
    unfold Reads optional
    simp only [first]
    split at h
    · next null =>
      rw [if_pos null]
      exact reads_word_iff.mpr h
    · next notNull =>
      obtain ⟨a, rfl, shorter, found⟩ := h
      rw [if_neg notNull, found]
      exact ⟨shorter, rfl⟩

theorem local_refine (h : Local (Reads reader)) (f : α → Option β) :
    Local (Reads (refine f reader)) where
  opens read := by
    obtain ⟨a, read, -⟩ := reads_refine_iff.mp read
    exact h.opens read
  cut read := by
    obtain ⟨a, read, some⟩ := reads_refine_iff.mp read
    obtain ⟨t, rfl, reads⟩ := h.cut read
    exact ⟨t, rfl, fun rest' ended => reads_refine_iff.mpr ⟨a, reads rest' ended, some⟩⟩

theorem local_optional (h : Local (Reads reader)) : Local (Reads (optional reader)) where
  opens {s rest o} read := by
    obtain ⟨b, behind, first, cases⟩ := reads_optional_iff.mp read
    split at cases
    · next null => exact ⟨b, behind, .null, first, by rw [null]; rfl⟩
    · obtain ⟨a, -, read⟩ := cases
      exact h.opens read
  cut {s rest o} read := by
    obtain ⟨b, behind, first, cases⟩ := reads_optional_iff.mp read
    split at cases
    · next null =>
      obtain ⟨rfl, rfl⟩ := cases
      obtain ⟨gap, blanks, notBlank, rfl⟩ := reads_token_iff.mp first
      refine ⟨gap ++ b :: ascii "ull", by simp, fun rest' _ => ?_⟩
      refine reads_optional_iff.mpr ⟨b, ascii "ull" ++ rest', ?_, ?_⟩
      · exact reads_token_iff.mpr ⟨gap, blanks, notBlank, by simp⟩
      · rw [if_pos null]
        exact ⟨rfl, rfl⟩
    · next notNull =>
      obtain ⟨a, rfl, found⟩ := cases
      obtain ⟨gap, b', t, kind, blanks, announces, rfl, reads⟩ := h.exists_cons found
      have notBlank := (Kind.of_ofByte? announces).1
      have token (rest' : List UInt8) : Reads token (gap ++ b' :: (t ++ rest')) b' (t ++ rest') :=
        reads_token_iff.mpr ⟨gap, blanks, notBlank, rfl⟩
      obtain rfl := (reads_unique first (token rest)).1
      refine ⟨gap ++ b :: t, by simp, fun rest' ended => ?_⟩
      rw [List.append_assoc, List.cons_append]
      refine reads_optional_iff.mpr ⟨b, _, token rest', ?_⟩
      rw [if_neg notNull]
      exact ⟨a, rfl, reads rest' ended⟩

end Made

/-! ### Scalars -/

/-- How a scalar is written. -/
inductive Scalar.Written : Scalar → List UInt8 → Prop where
  | null : Written .null (ascii "null")
  | flag (b : Bool) : Written (.flag b) (ascii (if b then "true" else "false"))
  | number {n : Decimal.Numeral} (plain : n.IsPlain)
      (finite : (Numeral.of n).value.isFinite = true) : Written (.number (.of n)) (n.chars.map byte)
  | string {cs : List Char} {t : List UInt8} (h : Quotes cs t) : Written (.string cs) t

section Scalars

variable {s rest : List UInt8} {b : UInt8} {found : Scalar}

/-- What announces which kind of value. -/
theorem Kind.cases_ofByte? {kind : Kind} (h : Kind.ofByte? b = some kind) :
    (kind = .null ∧ b = byte 'n') ∨ (kind = .flag ∧ (b = byte 't' ∨ b = byte 'f')) ∨
      (kind = .number ∧ (b = byte '-' ∨ isDigit b)) ∨ (kind = .string ∧ b = byte '"') ∨
      (kind = .array ∧ b = byte '[') ∨ (kind = .object ∧ b = byte '{') := by
  unfold Kind.ofByte? at h
  split at h
  · next hb => exact .inl ⟨(Option.some.inj h).symm, hb⟩
  split at h
  · next hb => exact .inr (.inl ⟨(Option.some.inj h).symm, hb⟩)
  split at h
  · next hb => exact .inr (.inr (.inl ⟨(Option.some.inj h).symm, hb⟩))
  split at h
  · next hb => exact .inr (.inr (.inr (.inl ⟨(Option.some.inj h).symm, hb⟩)))
  split at h
  · next hb => exact .inr (.inr (.inr (.inr (.inl ⟨(Option.some.inj h).symm, hb⟩))))
  split at h
  · next hb => exact .inr (.inr (.inr (.inr (.inr ⟨(Option.some.inj h).symm, hb⟩))))
  · cases h

theorem number?_eq_some_iff {n : Numeral} : number? s = some (n, rest) ↔
    numeral? s = some (n, rest) ∧ n.value.isFinite = true := by
  unfold number?
  constructor
  · intro h
    split at h
    · next found =>
      split at h
      · next finite =>
        obtain ⟨rfl, rfl⟩ := Prod.mk.inj (Option.some.inj h)
        exact ⟨found, finite⟩
      · cases h
    · cases h
  · rintro ⟨found, finite⟩
    simp only [found, if_pos finite]

/-- What follows the byte that announces a scalar of the given kind. -/
def Scalar.Follows (b : UInt8) (behind : List UInt8) (found : Scalar) (rest : List UInt8) :
    Kind → Prop
  | .null => found = .null ∧ behind = ascii "ull" ++ rest
  | .flag => ∃ value : Bool, found = .flag value ∧
      b :: behind = ascii (if value then "true" else "false") ++ rest
  | .number => ∃ n, number? (b :: behind) = some (n, rest) ∧ found = .number n
  | .string => ∃ cs, Reads stringRest behind cs rest ∧ found = .string cs
  | .array | .object => False

theorem exists_follows (h : Reads scalar s found rest) : ∃ b behind kind,
    Reads token s b behind ∧ Kind.ofByte? b = some kind ∧ found.Follows b behind rest kind := by
  obtain ⟨shorter, read⟩ := h
  unfold scalar at read
  split at read
  · cases read
  next b behind lt token =>
  refine ⟨b, behind, ?_⟩
  have first : Reads Json.token s b behind := ⟨lt, token⟩
  split at read
  · next kind => exact ⟨.null, first, kind, reads_word_iff.mp ⟨shorter, read⟩⟩
  · next kind =>
    have isFlag : b = byte 't' ∨ b = byte 'f' := by
      simpa using Kind.cases_ofByte? kind
    refine ⟨.flag, first, kind, ?_⟩
    split at read
    · next isTrue =>
      obtain ⟨rfl, rfl⟩ := reads_word_iff.mp ⟨shorter, read⟩
      exact ⟨true, rfl, by rw [isTrue]; rfl⟩
    · next notTrue =>
      obtain ⟨rfl, rfl⟩ := reads_word_iff.mp ⟨shorter, read⟩
      exact ⟨false, rfl, by rw [isFlag.resolve_left notTrue]; rfl⟩
  · next kind =>
    split at read
    · next n rest' number =>
      obtain ⟨rfl, rfl⟩ : .number n = found ∧ rest' = rest := by
        simpa using Except.ok.inj read
      rw [reads_token_iff_skipBlanks.mp first] at number
      exact ⟨.number, first, kind, n, number, rfl⟩
    · cases read
  · next kind =>
    split at read
    · next cs rest' lt' string =>
      obtain ⟨rfl, rfl⟩ : .string cs = found ∧ rest' = rest := by
        simpa using Except.ok.inj read
      exact ⟨.string, first, kind, cs, ⟨lt', string⟩, rfl⟩
    · cases read
  · cases read
  · cases read
  · cases read

theorem reads_scalar_of_follows {behind : List UInt8} {kind : Kind} (first : Reads token s b behind)
    (announces : Kind.ofByte? b = some kind) (follows : found.Follows b behind rest kind) :
    Reads scalar s found rest := by
  have skipped := reads_token_iff_skipBlanks.mp first
  obtain ⟨lt, first⟩ := first
  unfold Reads scalar
  simp only [first, announces]
  cases kind with
  | null => exact reads_word_iff.mpr follows
  | flag =>
    obtain ⟨value, rfl, word⟩ := follows
    dsimp only
    cases value with
    | true =>
      have word : b :: behind = byte 't' :: (ascii "rue" ++ rest) := word
      obtain ⟨isTrue, word⟩ := List.cons.inj word
      rw [if_pos isTrue]
      exact reads_word_iff.mpr ⟨rfl, word⟩
    | false =>
      have word : b :: behind = byte 'f' :: (ascii "alse" ++ rest) := word
      obtain ⟨isFalse, word⟩ := List.cons.inj word
      rw [if_neg (by rw [isFalse]; decide)]
      exact reads_word_iff.mpr ⟨rfl, word⟩
  | number =>
    obtain ⟨n, number, rfl⟩ := follows
    dsimp only
    split
    · next m rest' read =>
      have same := read
      rw [skipped, number] at same
      obtain ⟨rfl, rfl⟩ := Prod.mk.inj (Option.some.inj same)
      exact ⟨length_number?_lt read, rfl⟩
    · next none =>
      rw [skipped, number] at none
      cases none
  | string =>
    obtain ⟨cs, ⟨lt', string⟩, rfl⟩ := follows
    simp only [string]
    exact ⟨shorter_trans lt lt', trivial⟩
  | array => exact follows.elim
  | object => exact follows.elim

/-- A scalar is read by the kind that its first byte announces. -/
theorem reads_scalar_iff : Reads scalar s found rest ↔ ∃ b behind kind,
    Reads token s b behind ∧ Kind.ofByte? b = some kind ∧ found.Follows b behind rest kind := by
  constructor
  · exact exists_follows
  · rintro ⟨b, behind, kind, first, announces, follows⟩
    exact reads_scalar_of_follows first announces follows

/-- What is read as a scalar is written there. -/
theorem exists_written (h : Reads scalar s found rest) :
    ∃ gap t, IsGap gap ∧ found.Written t ∧ s = gap ++ (t ++ rest) := by
  obtain ⟨b, behind, kind, first, announces, follows⟩ := reads_scalar_iff.mp h
  obtain ⟨gap, blanks, -, rfl⟩ := reads_token_iff.mp first
  have split {t : List UInt8} (written : found.Written t) (h : b :: behind = t ++ rest) :
      ∃ gap' t, IsGap gap' ∧ found.Written t ∧ gap ++ b :: behind = gap' ++ (t ++ rest) :=
    ⟨gap, t, blanks, written, by rw [h]⟩
  rcases Kind.cases_ofByte? announces with ⟨rfl, rfl⟩ | ⟨rfl, -⟩ | ⟨rfl, -⟩ | ⟨rfl, rfl⟩ |
    ⟨rfl, -⟩ | ⟨rfl, -⟩
  · obtain ⟨rfl, rfl⟩ := follows
    exact split .null rfl
  · obtain ⟨value, rfl, word⟩ := follows
    exact split (.flag value) word
  · obtain ⟨n, number, rfl⟩ := follows
    obtain ⟨numeral, finite⟩ := number?_eq_some_iff.mp number
    obtain ⟨m, plain, rfl, chars⟩ := exists_of_numeral? numeral
    exact split (.number plain finite) chars
  · obtain ⟨cs, string, rfl⟩ := follows
    obtain ⟨raw, spells, rfl⟩ := reads_stringRest_iff.mp string
    exact split (.string ⟨raw, spells, rfl⟩) (by simp)
  · exact follows.elim
  · exact follows.elim

/-- What is written as a scalar begins with a byte that announces it. -/
theorem Scalar.Written.exists_cons {t : List UInt8} (h : found.Written t) :
    ∃ b behind kind, t = b :: behind ∧ Kind.ofByte? b = some kind ∧
      ∀ rest, Ended rest → found.Follows b (behind ++ rest) rest kind := by
  cases h with
  | null => exact ⟨_, _, .null, rfl, rfl, fun rest _ => ⟨rfl, rfl⟩⟩
  | flag b =>
    cases b with
    | true => exact ⟨_, _, .flag, rfl, rfl, fun rest _ => ⟨true, rfl, rfl⟩⟩
    | false => exact ⟨_, _, .flag, rfl, rfl, fun rest _ => ⟨false, rfl, rfl⟩⟩
  | @number n plain finite =>
    obtain ⟨b, behind, written, announces⟩ := exists_byte_of_isPlain plain
    refine ⟨b, behind, .number, written, announces, fun rest ended => ⟨.of n, ?_, rfl⟩⟩
    rw [← List.cons_append, ← written, number?_eq_some_iff]
    exact ⟨numeral?_of_isPlain plain ended, finite⟩
  | @string cs t quotes =>
    obtain ⟨raw, spells, rfl⟩ := quotes
    refine ⟨_, _, .string, rfl, rfl, fun rest _ => ⟨cs, ?_, rfl⟩⟩
    exact reads_stringRest_iff.mpr ⟨raw, spells, by simp⟩

/-- What is written as a scalar is read, wherever a value may end behind it. -/
theorem Scalar.Written.reads {gap t : List UInt8} (h : found.Written t) (blanks : IsGap gap)
    (ended : Ended rest) : Reads scalar (gap ++ (t ++ rest)) found rest := by
  obtain ⟨b, behind, kind, rfl, announces, follows⟩ := h.exists_cons
  refine reads_scalar_iff.mpr ⟨b, behind ++ rest, kind, ?_, announces, follows rest ended⟩
  exact reads_token_iff.mpr ⟨gap, blanks, (Kind.of_ofByte? announces).1, rfl⟩

/-- The scalars are read by a local reader. -/
theorem local_scalar : Local (Reads scalar) where
  opens read := by
    obtain ⟨b, behind, kind, first, announces, -⟩ := reads_scalar_iff.mp read
    exact ⟨b, behind, kind, first, announces⟩
  cut read := by
    obtain ⟨gap, t, blanks, written, rfl⟩ := exists_written read
    refine ⟨gap ++ t, by simp, fun rest' ended => ?_⟩
    rw [List.append_assoc]
    exact written.reads blanks ended

/-- **A document holds a scalar if it is one**, among blanks. -/
theorem document_scalar_iff {t : List UInt8} :
    Json.document scalar t = .ok found ↔ Padded found.Written t := by
  rw [document_eq_ok_iff]
  constructor
  · rintro ⟨back, blanks, read⟩
    obtain ⟨front, core, blanks', written, rfl⟩ := exists_written read
    exact ⟨front, core, back, blanks', blanks, written, rfl⟩
  · rintro ⟨front, core, back, blanks, blanks', written, rfl⟩
    exact ⟨back, blanks', written.reads blanks blanks'.ended⟩

theorem local_expect (select : Scalar → Except Fault α) : Local (Reads (expect select)) where
  opens read := by
    obtain ⟨found, read, -⟩ := reads_expect_iff.mp read
    exact local_scalar.opens read
  cut read := by
    obtain ⟨found, read, selected⟩ := reads_expect_iff.mp read
    obtain ⟨t, rfl, reads⟩ := local_scalar.cut read
    exact ⟨t, rfl, fun rest' ended => reads_expect_iff.mpr ⟨found, reads rest' ended, selected⟩⟩

theorem local_string : Local (Reads string) := local_expect _

theorem local_integer : Local (Reads integer) := by
  unfold integer
  exact local_expect _

theorem local_natural : Local (Reads natural) := by
  unfold natural
  exact local_expect _

theorem local_number : Local (Reads number) := by
  unfold number
  exact local_expect _

theorem local_flag : Local (Reads flag) := by
  unfold flag
  exact local_expect _

theorem document_expect_iff {select : Scalar → Except Fault α} {t : List UInt8} {a : α} :
    Json.document (expect select) t = .ok a ↔
      ∃ found, Padded found.Written t ∧ select found = .ok a := by
  simp only [document_eq_ok_iff, ← document_scalar_iff, Whole, reads_expect_iff]
  constructor
  · rintro ⟨gap, blanks, found, read, selected⟩
    exact ⟨found, ⟨gap, blanks, read⟩, selected⟩
  · rintro ⟨found, ⟨gap, blanks, read⟩, selected⟩
    exact ⟨gap, blanks, found, read, selected⟩

theorem document_refine_iff {reader : Reader α} {f : α → Option β} {t : List UInt8} {b : β} :
    Json.document (refine f reader) t = .ok b ↔
      ∃ a, Json.document reader t = .ok a ∧ f a = some b := by
  simp only [document_eq_ok_iff, Whole, reads_refine_iff]
  constructor
  · rintro ⟨gap, blanks, a, read, some⟩
    exact ⟨a, ⟨gap, blanks, read⟩, some⟩
  · rintro ⟨a, ⟨gap, blanks, read⟩, some⟩
    exact ⟨gap, blanks, a, read, some⟩

/-- **A document holds a string if it quotes its characters**, among blanks. -/
theorem document_string_iff {t : List UInt8} {cs : List Char} :
    Json.document string t = .ok cs ↔ Padded (Quotes cs) t := by
  rw [string, document_expect_iff]
  constructor
  · rintro ⟨found, ⟨front, core, back, blanks, blanks', written, rfl⟩, selected⟩
    refine ⟨front, core, back, blanks, blanks', ?_, rfl⟩
    cases written with
    | string quotes =>
      obtain rfl := Except.ok.inj selected
      exact quotes
    | null => cases selected
    | flag => cases selected
    | number => cases selected
  · rintro ⟨front, core, back, blanks, blanks', quotes, rfl⟩
    exact ⟨.string cs, ⟨front, core, back, blanks, blanks', .string quotes, rfl⟩, rfl⟩

/-- **A document holds a truth value if that is its text**, among blanks. -/
theorem document_flag_iff {t : List UInt8} {b : Bool} :
    Json.document flag t = .ok b ↔ Padded (· = ascii (if b then "true" else "false")) t := by
  rw [flag, document_expect_iff]
  constructor
  · rintro ⟨found, ⟨front, core, back, blanks, blanks', written, rfl⟩, selected⟩
    refine ⟨front, core, back, blanks, blanks', ?_, rfl⟩
    cases written with
    | flag b' =>
      obtain rfl := Except.ok.inj selected
      rfl
    | null => cases selected
    | number => cases selected
    | string => cases selected
  · rintro ⟨front, core, back, blanks, blanks', rfl, rfl⟩
    exact ⟨.flag b, ⟨front, _, back, blanks, blanks', .flag b, rfl⟩, rfl⟩

end Scalars

end ProductSegments.Json

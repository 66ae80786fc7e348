import ProductSegments.Json.Record
import ProductSegments.Json.Writer
import ProductSegments.Proofs.Json.Strings

/-!
# Written documents are read back

What the writers write is read as the value that was written, wherever it stands in a document.  A
reader looks at most one byte beyond a value, so all that counts is the byte behind it.

## Main definitions

* `Json.Delimited` — what may stand behind a written value.
* `Json.ReadsBack` — a reader reads a text as a value, wherever the text stands.
* `Json.Fills` — written members lead a record from one draft to another.

## Main results

* `Json.readsBack_string` — every text is read back, whatever characters it has.
* `Json.readsBack_flag`, `Json.exists_readsBack_optional` — so are flags, and values that may be
  missing.
* `Json.readsBack_array`, `Json.readsBack_record` — so are lists and records, if their parts are.
* `Json.ReadsBack.document` — the value of a document is read.
-/

namespace ProductSegments.Json

/-! ### Steps of reading -/

section Steps

variable {α β : Type} {reader : Reader α} {s rest : List UInt8} {value : α}

/-- Blanks aside, what follows is a byte with the rest behind it. -/
theorem reads_token {b : UInt8} (h : isBlank b = false) (s : List UInt8) :
    Reads token (b :: s) b s := by
  have skipped : skipBlanks (b :: s) = b :: s := List.dropWhile_cons_of_neg (by simp [h])
  refine ⟨by simp, ?_⟩
  unfold token
  split
  · next none =>
    rw [skipped] at none
    cases none
  · next first others some =>
    obtain ⟨rfl, rfl⟩ := List.cons.inj (skipped.symm.trans some)
    rfl

theorem reads_expect {select : Scalar → Except Fault α} {found : Scalar}
    (h : Reads scalar s found rest) (hselect : select found = .ok value) :
    Reads (expect select) s value rest := by
  obtain ⟨lt, h⟩ := h
  refine ⟨lt, ?_⟩
  unfold expect
  rw [h]
  simp only [bind, Except.bind, hselect]
  rfl

theorem reads_refine {f : α → Option β} {result : β} (h : Reads reader s value rest)
    (hf : f value = some result) : Reads (refine f reader) s result rest := by
  obtain ⟨lt, h⟩ := h
  refine ⟨lt, ?_⟩
  unfold refine
  rw [h]
  simp only [bind, Except.bind, hf]
  rfl

/-- A word is read behind its first byte. -/
theorem exists_word (expected : List UInt8) (value : α) (origin : List UInt8)
    (lt : (expected ++ rest).length < origin.length) :
    ∃ shorter, word expected value (expected ++ rest) origin lt = .ok ⟨value, rest, shorter⟩ := by
  have found : exactly? expected (expected ++ rest) = some rest := exactly?_eq_some_iff.mpr rfl
  refine ⟨length_exactly?_lt found lt, ?_⟩
  unfold word
  split
  · next other h =>
    obtain rfl := Option.some.inj (found.symm.trans h)
    rfl
  · next h =>
    rw [found] at h
    cases h

end Steps

/-! ### Scalars -/

section Scalars

variable {s rest : List UInt8}

theorem reads_scalar_string {cs : List Char} (h : Reads stringRest s cs rest) :
    Reads scalar (byte '"' :: s) (.string cs) rest := by
  obtain ⟨lt, h⟩ := h
  obtain ⟨_, first⟩ := reads_token (b := byte '"') rfl s
  refine ⟨by simp only [List.length_cons]; omega, ?_⟩
  unfold scalar
  simp only [first, show Kind.ofByte? (byte '"') = some .string from rfl, h]

theorem reads_scalar_true (rest : List UInt8) :
    Reads scalar (byte 't' :: (ascii "rue" ++ rest)) (.flag true) rest := by
  obtain ⟨lt, first⟩ := reads_token (b := byte 't') rfl (ascii "rue" ++ rest)
  obtain ⟨shorter, word⟩ := exists_word (ascii "rue") (Scalar.flag true) _ lt
  refine ⟨shorter, ?_⟩
  unfold scalar
  simp only [first, show Kind.ofByte? (byte 't') = some .flag from rfl, if_pos]
  exact word

theorem reads_scalar_false (rest : List UInt8) :
    Reads scalar (byte 'f' :: (ascii "alse" ++ rest)) (.flag false) rest := by
  obtain ⟨lt, first⟩ := reads_token (b := byte 'f') rfl (ascii "alse" ++ rest)
  obtain ⟨shorter, word⟩ := exists_word (ascii "alse") (Scalar.flag false) _ lt
  refine ⟨shorter, ?_⟩
  unfold scalar
  simp only [first, show Kind.ofByte? (byte 'f') = some .flag from rfl,
    show ¬byte 'f' = byte 't' by decide, if_false]
  exact word

end Scalars

/-! ### Values in their places -/

/-- What may stand behind a written value: the end of the document, or a byte that closes a
container or parts its items. -/
def Delimited (rest : List UInt8) : Prop :=
  ∀ b ∈ rest.head?, b = byte ',' ∨ b = byte ']' ∨ b = byte '}'

theorem delimited_nil : Delimited [] := by simp [Delimited]

theorem delimited_cons {b : UInt8} (h : b = byte ',' ∨ b = byte ']' ∨ b = byte '}')
    (s : List UInt8) : Delimited (b :: s) := by
  simpa [Delimited] using h

/-- A text announces a value of a kind, and the reader reads it as the value wherever it stands. -/
structure ReadsBack {α : Type} (kind : Kind) (reader : Reader α) (cs : List Char) (value : α) :
    Prop where
  opens : ∃ b s, Utf8.encode cs = b :: s ∧ Kind.ofByte? b = some kind
  reads : ∀ rest, Delimited rest → Reads reader (Utf8.encode cs ++ rest) value rest

/-- A byte that announces a value is neither a blank nor one that closes or parts. -/
theorem Kind.of_ofByte? {b : UInt8} {kind : Kind} (h : Kind.ofByte? b = some kind) :
    isBlank b = false ∧ b ≠ byte ',' ∧ b ≠ byte ']' ∧ b ≠ byte '}' := by
  refine ⟨?_, ?_, ?_, ?_⟩
  · cases blank : isBlank b with
    | false => rfl
    | true =>
      simp only [isBlank, Bool.or_eq_true, decide_eq_true_eq] at blank
      rcases blank with ((rfl | rfl) | rfl) | rfl <;> cases h
  · rintro rfl
    cases h
  · rintro rfl
    cases h
  · rintro rfl
    cases h

/-- The value of a document is read. -/
theorem ReadsBack.document {α : Type} {kind : Kind} {reader : Reader α} {cs : List Char} {value : α}
    (h : ReadsBack kind reader cs value) : Json.document reader (Utf8.encode cs) = .ok value := by
  have read := h.reads [] delimited_nil
  rw [List.append_nil] at read
  obtain ⟨lt, read⟩ := read
  unfold Json.document
  rw [read]
  rfl

/-- A value that is read is read also if more is expected of it. -/
theorem ReadsBack.refine {α β : Type} {kind : Kind} {reader : Reader α} {cs : List Char} {value : α}
    (h : ReadsBack kind reader cs value) {f : α → Option β} {result : β}
    (hf : f value = some result) : ReadsBack kind (Json.refine f reader) cs result :=
  ⟨h.opens, fun rest delimited => reads_refine (h.reads rest delimited) hf⟩

/-! ### Strings -/

theorem encode_byte {c : Char} (h : c.toNat < 0x80) (cs : List Char) :
    Utf8.encode (c :: cs) = byte c :: Utf8.encode cs := by
  rw [Utf8.encode_cons, Utf8.encodeChar_of_ascii h, List.singleton_append]

theorem hexDigit?_digitChar {d : Nat} (h : d < 16) : hexDigit? (byte (Nat.digitChar d)) = some d := by
  revert d
  decide

theorem toNat_digitChar_lt {d : Nat} (h : d < 16) : (Nat.digitChar d).toNat < 0x80 := by
  revert d
  decide

/-- A control character is spelled by the digits of its number. -/
theorem hexQuad?_hexPair {n : Nat} (h : n < 0x20) :
    hexQuad? (Utf8.encode ('0' :: '0' :: Writer.hexPair n)) = some (n, []) := by
  have zero : hexDigit? (byte '0') = some 0 := rfl
  have sum : ((0 * 16 + 0) * 16 + n / 16) * 16 + n % 16 = n := by omega
  rw [encode_byte (by decide), encode_byte (by decide), Writer.hexPair,
    encode_byte (toNat_digitChar_lt (by omega)), encode_byte (toNat_digitChar_lt (by omega))]
  simp only [hexQuad?, zero, hexDigit?_digitChar (show n / 16 < 16 by omega),
    hexDigit?_digitChar (show n % 16 < 16 by omega), bind, Option.bind, sum, Utf8.encode_nil]

/-- A written character spells the character. -/
theorem spelled_escape (c : Char) : Spelled c (Utf8.encode (Writer.escape c)) := by
  unfold Writer.escape
  split
  · exact .letter (b := byte '"') rfl
  · exact .letter (b := byte '\\') rfl
  · exact .letter (b := byte 'b') rfl
  · exact .letter (b := byte 't') rfl
  · exact .letter (b := byte 'n') rfl
  · exact .letter (b := byte 'f') rfl
  · exact .letter (b := byte 'r') rfl
  · next quote backslash _ _ _ _ _ =>
    split
    · next control =>
      have digits := hexQuad?_hexPair control
      have spelled := Spelled.unit digits (.inl (by omega))
      rwa [Char.ofNat_toNat] at spelled
    · next control =>
      rw [Utf8.encode_cons, Utf8.encode_nil, List.append_nil]
      exact .plain quote backslash control

/-- A written text spells the text. -/
theorem spells_escape (text : List Char) :
    Spells text (Utf8.encode (text.flatMap Writer.escape)) := by
  induction text with
  | nil => exact .nil
  | cons c text ih =>
    rw [List.flatMap_cons, Utf8.encode_append]
    exact .cons (spelled_escape c) ih

theorem reads_stringRest (text : List Char) (rest : List UInt8) :
    Reads stringRest (Utf8.encode (text.flatMap Writer.escape) ++ byte '"' :: rest) text rest :=
  reads_stringRest_iff.mpr ⟨_, spells_escape text, rfl⟩

/-- **Every text is read back.** -/
theorem readsBack_string (text : String) :
    ReadsBack .string string (Writer.string text) text.toList := by
  have written : Utf8.encode (Writer.string text) =
      byte '"' :: (Utf8.encode (text.toList.flatMap Writer.escape) ++ [byte '"']) := by
    rw [Writer.string, encode_byte (by decide), Utf8.encode_append]
    rfl
  refine ⟨⟨_, _, written, rfl⟩, fun rest _ => ?_⟩
  rw [written, List.cons_append, List.append_assoc, List.singleton_append]
  exact reads_expect (reads_scalar_string (reads_stringRest text.toList rest)) rfl

/-! ### Flags, and values that may be missing -/

theorem readsBack_flag (b : Bool) : ReadsBack .flag flag (Writer.flag b) b := by
  cases b with
  | true => exact ⟨⟨_, _, rfl, rfl⟩, fun rest _ => reads_expect (reads_scalar_true rest) rfl⟩
  | false => exact ⟨⟨_, _, rfl, rfl⟩, fun rest _ => reads_expect (reads_scalar_false rest) rfl⟩

section Optional

variable {α : Type} {reader : Reader α}

theorem reads_optional_none (rest : List UInt8) :
    Reads (optional reader) (byte 'n' :: (ascii "ull" ++ rest)) none rest := by
  obtain ⟨lt, first⟩ := reads_token (b := byte 'n') rfl (ascii "ull" ++ rest)
  obtain ⟨shorter, word⟩ := exists_word (ascii "ull") (none : Option α) _ lt
  refine ⟨shorter, ?_⟩
  unfold optional
  simp only [first, if_pos]
  exact word

theorem reads_optional_some {b : UInt8} {s rest : List UInt8} {value : α}
    (blank : isBlank b = false) (notNull : b ≠ byte 'n') (h : Reads reader (b :: s) value rest) :
    Reads (optional reader) (b :: s) (some value) rest := by
  obtain ⟨_, first⟩ := reads_token blank s
  obtain ⟨shorter, h⟩ := h
  refine ⟨shorter, ?_⟩
  unfold optional
  simp only [first, if_neg notNull, h, bind, Except.bind]
  rfl

/-- A value that may be missing is read back if it is read back where it is not missing. -/
theorem exists_readsBack_optional {kind : Kind} {write : α → List Char} (notNull : kind ≠ .null)
    (value : Option α) (back : ∀ a ∈ value, ReadsBack kind reader (write a) a) :
    ∃ kind, ReadsBack kind (optional reader) (Writer.optional write value) value := by
  cases value with
  | none => exact ⟨.null, ⟨_, _, rfl, rfl⟩, fun rest _ => reads_optional_none rest⟩
  | some a =>
    obtain ⟨⟨b, s, written, announces⟩, reads⟩ := back a rfl
    refine ⟨kind, ⟨b, s, written, announces⟩, fun rest delimited => ?_⟩
    have reads := reads rest delimited
    rw [written, List.cons_append] at reads
    rw [Writer.optional, written, List.cons_append]
    refine reads_optional_some (Kind.of_ofByte? announces).1 ?_ reads
    rintro rfl
    exact notNull (Option.some.inj announces).symm

end Optional

/-! ### Lists -/

theorem separated_cons (value : List Char) (values : List (List Char)) :
    Writer.separated (value :: values) = value ++ values.flatMap (',' :: ·) := by
  induction values generalizing value with
  | nil => simp [Writer.separated]
  | cons next values ih =>
    have step : Writer.separated (value :: next :: values) =
        value ++ ',' :: Writer.separated (next :: values) := rfl
    rw [step, ih, List.flatMap_cons, List.cons_append]

/-- What is written behind an item, up to the mark that closes its container. -/
theorem delimited_flatMap (values : List (List Char)) {close : UInt8}
    (h : close = byte ']' ∨ close = byte '}') (rest : List UInt8) :
    Delimited (Utf8.encode (values.flatMap (',' :: ·)) ++ close :: rest) := by
  cases values with
  | nil => exact delimited_cons (.inr h) rest
  | cons value values =>
    rw [List.flatMap_cons, List.cons_append, encode_byte (by decide)]
    exact delimited_cons (.inl rfl) _

section Array

variable {α : Type} {item : Reader α} {write : α → List Char} {rest : List UInt8}

/-- Behind other items a list is read to its end. -/
theorem exists_itemsTail {items : List α} (back : ∀ a ∈ items, ∃ kind, ReadsBack kind item (write a) a)
    (origin : List UInt8) : ∀ read ≠ [], ∀ lt, ∃ shorter,
      itemsTail item (byte ']') origin read
        (Utf8.encode ((items.map write).flatMap (',' :: ·)) ++ byte ']' :: rest) lt =
          .ok ⟨read.reverse ++ items, rest, shorter⟩ := by
  induction items with
  | nil =>
    intro read _ lt
    obtain ⟨shorter, first⟩ := reads_token (b := byte ']') rfl rest
    refine ⟨shorter_trans lt shorter, ?_⟩
    have lt : (byte ']' :: rest).length < origin.length := lt
    show itemsTail item (byte ']') origin read (byte ']' :: rest) lt = _
    rw [itemsTail]
    simp only [first, if_pos, List.append_nil]
  | cons a items ih =>
    intro read ne_nil lt
    obtain ⟨kind, -, reads⟩ := back a List.mem_cons_self
    have split : Utf8.encode (((a :: items).map write).flatMap (',' :: ·)) ++ byte ']' :: rest =
        byte ',' :: (Utf8.encode (write a) ++
          (Utf8.encode ((items.map write).flatMap (',' :: ·)) ++ byte ']' :: rest)) := by
      rw [List.map_cons, List.flatMap_cons, List.cons_append, encode_byte (by decide),
        Utf8.encode_append, List.cons_append, List.append_assoc]
    generalize Utf8.encode (((a :: items).map write).flatMap (',' :: ·)) ++ byte ']' :: rest = all
      at split lt
    subst split
    obtain ⟨h, first⟩ := reads_token (b := byte ',') rfl (Utf8.encode (write a) ++
      (Utf8.encode ((items.map write).flatMap (',' :: ·)) ++ byte ']' :: rest))
    obtain ⟨h', next⟩ := reads _ (delimited_flatMap (items.map write) (.inl rfl) rest)
    obtain ⟨shorter, others⟩ := ih (fun b hb => back b (List.mem_cons_of_mem a hb)) (a :: read)
      (List.cons_ne_nil a read) (shorter_trans lt (shorter_trans h h'))
    refine ⟨shorter, ?_⟩
    rw [itemsTail]
    simp only [first, next, show ¬byte ',' = byte ']' by decide, if_false, if_true,
      List.isEmpty_eq_false_iff.mpr ne_nil, Bool.false_eq_true, others, List.reverse_cons,
      List.append_assoc, List.singleton_append]

/-- From its first item on a list is read to its end. -/
theorem exists_itemsTail_first {items : List α}
    (back : ∀ a ∈ items, ∃ kind, ReadsBack kind item (write a) a) (origin : List UInt8) :
    ∀ lt, ∃ shorter, itemsTail item (byte ']') origin []
      (Utf8.encode (Writer.separated (items.map write)) ++ byte ']' :: rest) lt =
        .ok ⟨items, rest, shorter⟩ := by
  cases items with
  | nil =>
    intro lt
    obtain ⟨shorter, first⟩ := reads_token (b := byte ']') rfl rest
    refine ⟨shorter_trans lt shorter, ?_⟩
    have lt : (byte ']' :: rest).length < origin.length := lt
    show itemsTail item (byte ']') origin [] (byte ']' :: rest) lt = _
    rw [itemsTail]
    simp only [first, if_pos, List.reverse_nil]
  | cons a items =>
    intro lt
    obtain ⟨kind, ⟨b, s, written, announces⟩, reads⟩ := back a List.mem_cons_self
    obtain ⟨blank, -, notClose, -⟩ := Kind.of_ofByte? announces
    have split : Utf8.encode (Writer.separated ((a :: items).map write)) ++ byte ']' :: rest =
        Utf8.encode (write a) ++
          (Utf8.encode ((items.map write).flatMap (',' :: ·)) ++ byte ']' :: rest) := by
      rw [List.map_cons, separated_cons, Utf8.encode_append, List.append_assoc]
    have next := reads _ (delimited_flatMap (items.map write) (.inl rfl) rest)
    rw [← split] at next
    have open' : Utf8.encode (Writer.separated ((a :: items).map write)) ++ byte ']' :: rest =
        b :: (s ++ (Utf8.encode ((items.map write).flatMap (',' :: ·)) ++ byte ']' :: rest)) := by
      rw [split, written, List.cons_append]
    generalize Utf8.encode (Writer.separated ((a :: items).map write)) ++ byte ']' :: rest = all
      at next open' lt
    subst open'
    obtain ⟨h, first⟩ := reads_token blank
      (s ++ (Utf8.encode ((items.map write).flatMap (',' :: ·)) ++ byte ']' :: rest))
    obtain ⟨h', next⟩ := next
    obtain ⟨shorter, others⟩ := exists_itemsTail (fun b hb => back b (List.mem_cons_of_mem a hb))
      origin [a] (List.cons_ne_nil a []) (shorter_trans lt h')
    refine ⟨shorter, ?_⟩
    rw [itemsTail]
    simp only [first, next, if_neg notClose, List.isEmpty_nil, if_true, others, List.reverse_singleton,
      List.singleton_append]

/-- **A list is read back if its items are.** -/
theorem readsBack_array {items : List α}
    (back : ∀ a ∈ items, ∃ kind, ReadsBack kind item (write a) a) :
    ReadsBack .array (array item) (Writer.array (items.map write)) items := by
  have written : Utf8.encode (Writer.array (items.map write)) =
      byte '[' :: (Utf8.encode (Writer.separated (items.map write)) ++ [byte ']']) := by
    rw [Writer.array, encode_byte (by decide), Utf8.encode_append]
    rfl
  refine ⟨⟨_, _, written, rfl⟩, fun rest _ => ?_⟩
  rw [written, List.cons_append, List.append_assoc, List.singleton_append]
  obtain ⟨lt, first⟩ := reads_token (b := byte '[') rfl
    (Utf8.encode (Writer.separated (items.map write)) ++ byte ']' :: rest)
  obtain ⟨shorter, list⟩ := exists_itemsTail_first back
    (byte '[' :: (Utf8.encode (Writer.separated (items.map write)) ++ byte ']' :: rest)) lt
  refine ⟨shorter, ?_⟩
  unfold array
  simp only [first, if_pos]
  exact list

end Array

/-! ### Records -/

section Record

variable {α β σ : Type} {members : List (Member σ)} {reader : Reader α} {s rest : List UInt8}

theorem reads_afterColon {value : α} (h : Reads reader s value rest) :
    Reads (afterColon reader) (byte ':' :: s) value rest := by
  obtain ⟨lt, first⟩ := reads_token (b := byte ':') rfl s
  obtain ⟨lt', h⟩ := h
  refine ⟨shorter_trans lt lt', ?_⟩
  unfold afterColon
  simp only [first, h, bind, Except.bind, if_true]
  rfl

/-- A member that is read back is put into the draft. -/
theorem ReadsBack.member {kind : Kind} {cs : List Char} {value : α} (h : ReadsBack kind reader cs value)
    (name : String) (get : σ → Option α) (put : α → σ → σ) (isTrailing : Bool) :
    ReadsBack kind (Member.of name reader get put isTrailing).reader cs (put value) := by
  refine ⟨h.opens, fun rest delimited => ?_⟩
  obtain ⟨lt, read⟩ := h.reads rest delimited
  refine ⟨lt, ?_⟩
  simp only [Member.of, read, bind, Except.bind]
  rfl

/-- Written members, of which none is written twice, lead a record from one draft to another. -/
inductive Fills (members : List (Member σ)) : σ → List (String × List Char) → σ → Prop where
  | none {draft : σ} : Fills members draft [] draft
  | one {draft filled : σ} {name : String} {cs : List Char} {others : List (String × List Char)}
      {member : Member σ} {put : σ → σ} {kind : Kind}
      (found : members.find? (·.name = name.toList) = some member)
      (unset : member.isSet draft = false) (back : ReadsBack kind member.reader cs put)
      (rest : Fills members (put draft) others filled) :
      Fills members draft ((name, cs) :: others) filled

/-- A name with its value, as it is written. -/
def namedChars : String × List Char → List Char :=
  fun (name, value) => Writer.string name ++ ':' :: value

/-- The bytes of a member, from its quote on. -/
theorem encode_namedChars (name : String) (cs : List Char) (rest : List UInt8) :
    Utf8.encode (namedChars (name, cs)) ++ rest = byte '"' ::
      (Utf8.encode (name.toList.flatMap Writer.escape) ++ byte '"' :: (byte ':' ::
        (Utf8.encode cs ++ rest))) := by
  rw [namedChars, Utf8.encode_append, Writer.string, encode_byte (by decide), Utf8.encode_append,
    encode_byte (c := ':') (by decide)]
  simp only [List.cons_append, List.append_assoc]
  rfl

theorem reads_memberValue {name : String} {member : Member σ} {draft : σ} {put : σ → σ}
    (found : members.find? (·.name = name.toList) = some member)
    (unset : member.isSet draft = false) (h : Reads member.reader s put rest) :
    Reads (memberValue members draft name.toList) (byte ':' :: s) (put draft) rest := by
  obtain ⟨lt, h⟩ := reads_afterColon h
  refine ⟨lt, ?_⟩
  unfold memberValue
  rw [found]
  simp only [unset, h, bind, Except.bind, Bool.false_eq_true, if_false]
  rfl

/-- Behind the quote of a member come its name and its value, and then the other members. -/
theorem exists_objectTail_step {origin behind afterQuote afterName : List UInt8} (first : Bool)
    {draft draft' : σ} {b : UInt8} {name : List Char} (lt : s.length < origin.length)
    (start : Reads token s b behind) (notClose : b ≠ byte '}')
    (quote : ∀ h, ∃ h', memberStart first s b behind h = .ok ⟨byte '"', afterQuote, h'⟩)
    (hname : Reads stringRest afterQuote name afterName)
    (hvalue : Reads (memberValue members draft name) afterName draft' rest) :
    ∃ lt', objectTail members origin first draft s lt =
      objectTail members origin false draft' rest lt' := by
  obtain ⟨h, start⟩ := start
  obtain ⟨h₁, quote⟩ := quote h
  obtain ⟨h₂, hname⟩ := hname
  obtain ⟨h₃, hvalue⟩ := hvalue
  refine ⟨shorter_trans lt (shorter_trans (shorter_trans h₁ h₂) h₃), ?_⟩
  rw [objectTail]
  simp only [start, quote, hname, hvalue, if_neg notClose, if_true]

/-- Behind other members a record is read to its end. -/
theorem Fills.exists_objectTail {draft filled : σ} {written : List (String × List Char)}
    (h : Fills members draft written filled) (origin rest : List UInt8) : ∀ lt, ∃ shorter,
      objectTail members origin false draft
        (Utf8.encode ((written.map namedChars).flatMap (',' :: ·)) ++ byte '}' :: rest) lt =
          .ok ⟨filled, rest, shorter⟩ := by
  induction h with
  | none =>
    intro lt
    obtain ⟨shorter, first⟩ := reads_token (b := byte '}') rfl rest
    refine ⟨shorter_trans lt shorter, ?_⟩
    have lt : (byte '}' :: rest).length < origin.length := lt
    show objectTail members origin false _ (byte '}' :: rest) lt = _
    rw [objectTail]
    simp only [first, if_pos]
  | @one draft filled name cs others member put kind found unset back _ ih =>
    intro lt
    have split : Utf8.encode ((((name, cs) :: others).map namedChars).flatMap (',' :: ·)) ++
        byte '}' :: rest = byte ',' :: byte '"' ::
          (Utf8.encode (name.toList.flatMap Writer.escape) ++ byte '"' :: (byte ':' ::
            (Utf8.encode cs ++
              (Utf8.encode ((others.map namedChars).flatMap (',' :: ·)) ++ byte '}' :: rest)))) := by
      rw [List.map_cons, List.flatMap_cons, List.cons_append, encode_byte (by decide),
        Utf8.encode_append, List.cons_append, List.append_assoc, encode_namedChars]
    generalize Utf8.encode ((((name, cs) :: others).map namedChars).flatMap (',' :: ·)) ++
      byte '}' :: rest = all at split lt
    subst split
    have value := back.reads _ (delimited_flatMap (others.map namedChars) (.inr rfl) rest)
    obtain ⟨lt', step⟩ := exists_objectTail_step false lt
      (reads_token (b := byte ',') rfl _) (by decide)
      (fun h => ⟨by simp only [List.length_cons]; omega, by
        obtain ⟨_, next⟩ := reads_token (b := byte '"') rfl
          (Utf8.encode (name.toList.flatMap Writer.escape) ++ byte '"' :: (byte ':' ::
            (Utf8.encode cs ++
              (Utf8.encode ((others.map namedChars).flatMap (',' :: ·)) ++ byte '}' :: rest))))
        simp only [memberStart, next, if_true, Bool.false_eq_true, if_false]⟩)
      (reads_stringRest name.toList _) (reads_memberValue found unset value)
    rw [step]
    exact ih lt'

/-- From its first member on a record is read to its end. -/
theorem Fills.exists_objectTail_first {draft filled : σ} {written : List (String × List Char)}
    (h : Fills members draft written filled) (origin rest : List UInt8) : ∀ lt, ∃ shorter,
      objectTail members origin true draft
        (Utf8.encode (Writer.separated (written.map namedChars)) ++ byte '}' :: rest) lt =
          .ok ⟨filled, rest, shorter⟩ := by
  intro lt
  cases h with
  | none =>
    obtain ⟨shorter, first⟩ := reads_token (b := byte '}') rfl rest
    refine ⟨shorter_trans lt shorter, ?_⟩
    have lt : (byte '}' :: rest).length < origin.length := lt
    show objectTail members origin true _ (byte '}' :: rest) lt = _
    rw [objectTail]
    simp only [first, if_pos]
  | @one _ _ name cs others member put kind found unset back others' =>
    have split : Utf8.encode (Writer.separated (((name, cs) :: others).map namedChars)) ++
        byte '}' :: rest = byte '"' ::
          (Utf8.encode (name.toList.flatMap Writer.escape) ++ byte '"' :: (byte ':' ::
            (Utf8.encode cs ++
              (Utf8.encode ((others.map namedChars).flatMap (',' :: ·)) ++ byte '}' :: rest)))) := by
      rw [List.map_cons, separated_cons, Utf8.encode_append, List.append_assoc, encode_namedChars]
    generalize Utf8.encode (Writer.separated (((name, cs) :: others).map namedChars)) ++
      byte '}' :: rest = all at split lt
    subst split
    have value := back.reads _ (delimited_flatMap (others.map namedChars) (.inr rfl) rest)
    obtain ⟨lt', step⟩ := exists_objectTail_step true lt
      (reads_token (b := byte '"') rfl _) (by decide) (fun h => ⟨h, rfl⟩)
      (reads_stringRest name.toList _) (reads_memberValue found unset value)
    rw [step]
    exact others'.exists_objectTail origin rest lt'

/-- **A record is read back if its members fill a draft of it.** -/
theorem readsBack_record {empty filled : σ} {finish : σ → Option α} {value : α}
    {written : List (String × List Char)} (h : Fills members empty written filled)
    (hfinish : finish filled = some value) :
    ReadsBack .object (record members empty finish) (Writer.object written) value := by
  have bytes : Utf8.encode (Writer.object written) =
      byte '{' :: (Utf8.encode (Writer.separated (written.map namedChars)) ++ [byte '}']) := by
    rw [Writer.object, encode_byte (by decide), Utf8.encode_append]
    rfl
  refine ⟨⟨_, _, bytes, rfl⟩, fun rest _ => ?_⟩
  rw [bytes, List.cons_append, List.append_assoc, List.singleton_append]
  obtain ⟨lt, first⟩ := reads_token (b := byte '{') rfl
    (Utf8.encode (Writer.separated (written.map namedChars)) ++ byte '}' :: rest)
  obtain ⟨shorter, tail⟩ := h.exists_objectTail_first
    (byte '{' :: (Utf8.encode (Writer.separated (written.map namedChars)) ++ byte '}' :: rest))
    rest lt
  refine reads_refine ⟨shorter, ?_⟩ hfinish
  simp only [first, if_true]
  exact tail

end Record

end ProductSegments.Json

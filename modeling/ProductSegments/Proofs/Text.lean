import ProductSegments.Text.Blank
import ProductSegments.Text.Utf8

/-!
# Texts

How texts fall apart into tokens, and into characters as bytes.

## Main results

* `Text.of_ascii` — a property of ASCII characters by cases.
* `Text.trim_eq_self` — trimming leaves a text without blanks alone.
* `Text.tokens_append_blank` — a blank ends a token.
* `Text.tokens_eq_singleton` — a text without blanks is one token.
* `Text.words_spaced` — words with spaces between them are the words of a line.
* `Utf8.encode_eq_cons_iff` — a byte below 0x80 at the front of a text is its first character, and
  the text goes on behind that byte.
-/

namespace ProductSegments.Text

/-- What holds of the first 128 characters can be checked one by one. -/
theorem of_ascii {P : Char → Prop} (h : ∀ n < 128, P (Char.ofNat n)) {c : Char}
    (hc : c.toNat < 128) : P c := by
  rw [← Char.ofNat_toNat c]
  exact h _ hc

theorem toNat_lt_of_isDigit {c : Char} (h : c.isDigit = true) : c.toNat < 128 := by
  simp only [Char.isDigit, Bool.and_eq_true, decide_eq_true_eq, UInt32.le_iff_toNat_le] at h
  exact Nat.lt_of_le_of_lt h.2 (by decide)

/-- So can what holds of the characters of one text. -/
theorem forall_mem {P : Char → Prop} [DecidablePred P] {cs : List Char}
    (h : (cs.all fun c => decide (P c)) = true) : ∀ c ∈ cs, P c := by
  intro c hc
  exact of_decide_eq_true (List.all_eq_true.mp h c hc)

/-- The text has no blank. -/
def Unbroken (cs : List Char) : Prop := ∀ c ∈ cs, isBlank c = false

instance (cs : List Char) : Decidable (Unbroken cs) :=
  decidable_of_iff ((cs.all fun c => !isBlank c) = true) (by simp [Unbroken])

/-- Nothing is dropped from the front of a text without blanks. -/
theorem dropWhile_isBlank {cs : List Char} (h : Unbroken cs) : cs.dropWhile isBlank = cs := by
  cases cs with
  | nil => rfl
  | cons c cs => exact List.dropWhile_cons_of_neg (by simp [h c List.mem_cons_self])

/-- **Trimming leaves a text without blanks alone.** -/
theorem trim_eq_self {cs : List Char} (h : Unbroken cs) : trim cs = cs := by
  have hr : Unbroken cs.reverse := fun c hc => h c (List.mem_reverse.mp hc)
  rw [trim, trimStart, trimEnd, dropWhile_isBlank h, dropWhile_isBlank hr, List.reverse_reverse]

/-! ### Tokens -/

theorem leadingToken_cons_blank {b : Char} (cs : List Char) (h : isBlank b = true) :
    leadingToken (b :: cs) = ([], tokens cs) := by
  have hstep : leadingToken (b :: cs) = ([], if (leadingToken cs).1.isEmpty then
      (leadingToken cs).2 else (leadingToken cs).1 :: (leadingToken cs).2) := if_pos h
  rw [hstep, tokens]
  rcases leadingToken cs with ⟨_ | ⟨c, token⟩, others⟩ <;> rfl

theorem leadingToken_append {word : List Char} (cs : List Char) (h : Unbroken word) :
    leadingToken (word ++ cs) = (word ++ (leadingToken cs).1, (leadingToken cs).2) := by
  induction word with
  | nil => rfl
  | cons c word ih =>
    have hc : isBlank c = false := h c List.mem_cons_self
    have ih := ih fun d hd => h d (List.mem_cons_of_mem c hd)
    have hstep : leadingToken (c :: (word ++ cs))
        = (c :: (leadingToken (word ++ cs)).1, (leadingToken (word ++ cs)).2) := if_neg (by simp [hc])
    rw [List.cons_append, hstep, ih, List.cons_append]

/-- **A blank ends a token.** -/
theorem tokens_append_blank {word : List Char} {b : Char} (cs : List Char) (hne : word ≠ [])
    (h : Unbroken word) (hb : isBlank b = true) : tokens (word ++ b :: cs) = word :: tokens cs := by
  obtain ⟨c, tail, rfl⟩ := List.exists_cons_of_ne_nil hne
  rw [tokens, leadingToken_append _ h, leadingToken_cons_blank _ hb, List.append_nil]

/-- **A text without blanks is one token.** -/
theorem tokens_eq_singleton {word : List Char} (hne : word ≠ []) (h : Unbroken word) :
    tokens word = [word] := by
  obtain ⟨c, tail, rfl⟩ := List.exists_cons_of_ne_nil hne
  have hlead := leadingToken_append [] h
  rw [List.append_nil] at hlead
  rw [tokens, hlead]
  exact congrArg (fun token => [token]) (List.append_nil _)

/-- The text is one word. -/
structure IsWord (word : String) : Prop where
  ne_nil : word.toList ≠ []
  unbroken : Unbroken word.toList

/-- A word is the only word of its text. -/
theorem words_of_isWord {word : String} (h : IsWord word) : words word = [word] := by
  rw [words, tokens_eq_singleton h.ne_nil h.unbroken, List.map_singleton, String.ofList_toList]

/-- A word with a space behind it is the first word of a line. -/
theorem words_space_append {word : String} (h : IsWord word) (rest : String) :
    words (word ++ " " ++ rest) = word :: words rest := by
  have hline : (word ++ " " ++ rest).toList = word.toList ++ ' ' :: rest.toList := by
    simp [String.toList_append]
  rw [words, hline, tokens_append_blank _ h.ne_nil h.unbroken (by decide), List.map_cons,
    String.ofList_toList, words]

/-- **Words with spaces between them are the words of a line.** -/
theorem words_spaced {first second third : String} (hfirst : IsWord first) (hsecond : IsWord second)
    (hthird : IsWord third) :
    words (first ++ " " ++ second ++ " " ++ third) = [first, second, third] := by
  have hline : first ++ " " ++ second ++ " " ++ third = first ++ " " ++ (second ++ " " ++ third) := by
    simp only [String.append_assoc]
  rw [hline, words_space_append hfirst, words_space_append hsecond, words_of_isWord hthird]

end ProductSegments.Text

namespace ProductSegments.Utf8

/-- A character below 0x80 is one byte, and every other one starts with a byte from 0xC0 on. -/
theorem utf8EncodeChar_cases (c : Char) :
    (c.toNat < 0x80 ∧ String.utf8EncodeChar c = [UInt8.ofNat c.toNat]) ∨
      0x80 ≤ c.toNat ∧ ∃ b s, String.utf8EncodeChar c = b :: s ∧ 0xC0 ≤ b.toNat := by
  have lead : ∀ n, 0xC0 ≤ n → n < 0x100 → 0xC0 ≤ (UInt8.ofNat n).toNat := fun n hle hlt => by
    rw [UInt8.toNat_ofNat_of_lt' hlt]
    exact hle
  fun_cases String.utf8EncodeChar c
  · next h => exact .inl ⟨Nat.lt_succ_of_le h, rfl⟩
  · next h _ => exact .inr ⟨Nat.lt_of_not_le h, _, _, rfl, lead _ (by omega) (by omega)⟩
  · next h _ _ => exact .inr ⟨Nat.lt_of_not_le h, _, _, rfl, lead _ (by omega) (by omega)⟩
  · next h _ _ => exact .inr ⟨Nat.lt_of_not_le h, _, _, rfl, lead _ (by omega) (by omega)⟩

/-- **A byte below 0x80 at the front of a text is its first character**, and the text goes on behind
that byte. -/
theorem encode_eq_cons_iff {c : Char} (hc : c.toNat < 0x80) {cs : List Char} {s : List UInt8} :
    encode cs = UInt8.ofNat c.toNat :: s ↔ ∃ tail, cs = c :: tail ∧ encode tail = s := by
  have hsmall : ∀ d : Char, d.toNat < 0x80 → (UInt8.ofNat d.toNat).toNat = d.toNat := fun d hd =>
    UInt8.toNat_ofNat_of_lt' (Nat.lt_trans hd (by decide))
  constructor
  · intro h
    cases cs with
    | nil => cases h
    | cons d tail =>
      rw [encode_cons] at h
      rcases utf8EncodeChar_cases d with ⟨hd, he⟩ | ⟨-, b, others, he, hb⟩
      · rw [he] at h
        obtain ⟨hbyte, htail⟩ := List.cons.inj h
        have hnat : d.toNat = c.toNat := by rw [← hsmall d hd, hbyte, hsmall c hc]
        exact ⟨tail, by rw [Char.toNat_inj.mp hnat], htail⟩
      · rw [he] at h
        obtain ⟨rfl, -⟩ := List.cons.inj h
        rw [hsmall c hc] at hb
        omega
  · rintro ⟨tail, rfl, rfl⟩
    rw [encode_cons]
    rcases utf8EncodeChar_cases c with ⟨-, he⟩ | ⟨hlarge, -⟩
    · rw [he]
      rfl
    · omega

end ProductSegments.Utf8

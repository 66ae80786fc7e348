import ProductSegments.Proofs.Text

/-!
# Spacing

A text is made of words with blanks between them, and perhaps around them.  There are many texts
with the same words, and each of them falls apart into these words.

## Main definitions

* `Text.IsGap` — a run of blanks.
* `Text.Spaced` — the text is made of the given words.
* `Text.IsTrimmed` — a text without the blanks at its two ends.

## Main results

* `Text.spaced_tokens`, `Text.Spaced.tokens_eq` — every text is made of its tokens, and of no other
  words.
* `Text.tokens_trim`, `Text.trim_trim` — a trimmed text has the same tokens and cannot be trimmed
  further.
* `Text.isTrimmed_iff` — what is left of a text without the blanks at its ends is unique.
-/

namespace ProductSegments.Text

/-- The text has blanks only. -/
def IsGap (cs : List Char) : Prop := ∀ c ∈ cs, isBlank c = true

/-- The text is made of the given words.  Any two of them have a blank between them. -/
inductive Spaced : List (List Char) → List Char → Prop where
  | gap {gap : List Char} (blank : IsGap gap) : Spaced [] gap
  | last {gap word : List Char} (blank : IsGap gap) (ne_nil : word ≠ []) (unbroken : Unbroken word) :
      Spaced [word] (gap ++ word)
  | word {gap word cs : List Char} {b : Char} {words : List (List Char)} (blank : IsGap gap)
      (ne_nil : word ≠ []) (unbroken : Unbroken word) (separated : isBlank b = true)
      (rest : Spaced words cs) : Spaced (word :: words) (gap ++ (word ++ b :: cs))

theorem isGap_nil : IsGap [] := by
  intro c hc
  cases hc

theorem IsGap.cons {b : Char} {cs : List Char} (hb : isBlank b = true) (h : IsGap cs) :
    IsGap (b :: cs) := by
  intro c hc
  rcases List.mem_cons.mp hc with rfl | hc
  · exact hb
  · exact h c hc

variable {words : List (List Char)} {cs : List Char}

/-- A blank in front makes no difference. -/
theorem Spaced.cons_blank {b : Char} (hb : isBlank b = true) (h : Spaced words cs) :
    Spaced words (b :: cs) := by
  cases h with
  | gap blank => exact .gap (blank.cons hb)
  | last blank ne_nil unbroken => exact .last (blank.cons hb) ne_nil unbroken
  | word blank ne_nil unbroken separated rest =>
    exact .word (blank.cons hb) ne_nil unbroken separated rest

/-- The words of a text are no empty texts and have no blanks. -/
theorem Spaced.forall_words (h : Spaced words cs) :
    ∀ word ∈ words, word ≠ [] ∧ Unbroken word := by
  induction h with
  | gap blank =>
    intro word hw
    cases hw
  | last blank ne_nil unbroken =>
    intro word hw
    obtain rfl := List.mem_singleton.mp hw
    exact ⟨ne_nil, unbroken⟩
  | word blank ne_nil unbroken separated rest ih =>
    intro word hw
    rcases List.mem_cons.mp hw with rfl | hw
    · exact ⟨ne_nil, unbroken⟩
    · exact ih word hw

/-! ### The tokens of a spaced text -/

theorem tokens_cons_blank {b : Char} (cs : List Char) (hb : isBlank b = true) :
    tokens (b :: cs) = tokens cs := by
  rw [tokens, leadingToken_cons_blank cs hb]

theorem tokens_gap_append {gap : List Char} (cs : List Char) (h : IsGap gap) :
    tokens (gap ++ cs) = tokens cs := by
  induction gap with
  | nil => rfl
  | cons b gap ih =>
    have hb : isBlank b = true := h b List.mem_cons_self
    rw [List.cons_append, tokens_cons_blank _ hb]
    exact ih fun c hc => h c (List.mem_cons_of_mem b hc)

/-- A text falls apart into the words that it is made of. -/
theorem Spaced.tokens_eq (h : Spaced words cs) : tokens cs = words := by
  induction h with
  | @gap gap blank =>
    have all := tokens_gap_append [] blank
    rw [List.append_nil] at all
    rw [all, tokens_nil]
  | last blank ne_nil unbroken =>
    rw [tokens_gap_append _ blank, tokens_eq_singleton ne_nil unbroken]
  | word blank ne_nil unbroken separated rest ih =>
    rw [tokens_gap_append _ blank, tokens_append_blank _ ne_nil unbroken separated, ih]

/-! ### Every text is spaced -/

/-- What stands in a text before the tokens behind its first run: the run, and a blank if there is
anything left. -/
def Leads (token : List Char) (others : List (List Char)) (cs : List Char) : Prop :=
  Unbroken token ∧
    ((cs = token ∧ others = []) ∨
      ∃ b rest, cs = token ++ b :: rest ∧ isBlank b = true ∧ Spaced others rest)

theorem Leads.spaced {token : List Char} {others : List (List Char)} (h : Leads token others cs) :
    Spaced (if token.isEmpty then others else token :: others) cs := by
  obtain ⟨unbroken, hcs⟩ := h
  cases token with
  | nil =>
    rcases hcs with ⟨rfl, rfl⟩ | ⟨b, rest, rfl, hb, spaced⟩
    · exact .gap isGap_nil
    · exact spaced.cons_blank hb
  | cons c token =>
    have hne : c :: token ≠ [] := List.cons_ne_nil c token
    rcases hcs with ⟨rfl, rfl⟩ | ⟨b, rest, rfl, hb, spaced⟩
    · exact Spaced.last isGap_nil hne unbroken
    · exact Spaced.word isGap_nil hne unbroken hb spaced

theorem tokens_eq_ite (cs : List Char) : tokens cs =
    if (leadingToken cs).1.isEmpty then (leadingToken cs).2
    else (leadingToken cs).1 :: (leadingToken cs).2 := by
  rw [tokens]
  rcases leadingToken cs with ⟨_ | ⟨c, token⟩, others⟩ <;> rfl

theorem leads_leadingToken (cs : List Char) : Leads (leadingToken cs).1 (leadingToken cs).2 cs := by
  induction cs with
  | nil => exact ⟨fun c hc => absurd hc List.not_mem_nil, .inl ⟨rfl, rfl⟩⟩
  | cons c cs ih =>
    cases hc : isBlank c with
    | true =>
      -- the run is empty, and what stands behind the blank is spaced by itself
      rw [leadingToken_cons_blank cs hc]
      refine ⟨fun d hd => absurd hd List.not_mem_nil, .inr ⟨c, cs, rfl, hc, ?_⟩⟩
      rw [tokens_eq_ite]
      exact ih.spaced
    | false =>
      have single : Unbroken [c] := by
        intro d hd
        rw [List.mem_singleton.mp hd]
        exact hc
      have step := leadingToken_append cs single
      rw [List.singleton_append] at step
      rw [step]
      obtain ⟨unbroken, hcs⟩ := ih
      refine ⟨fun d hd => ?_, ?_⟩
      · rcases List.mem_cons.mp hd with rfl | hd
        · exact hc
        · exact unbroken d hd
      · rcases hcs with ⟨whole, none⟩ | ⟨b, rest, split, hb, spaced⟩
        · exact .inl ⟨congrArg (c :: ·) whole, none⟩
        · exact .inr ⟨b, rest, congrArg (c :: ·) split, hb, spaced⟩

/-- **Every text is made of its tokens.** -/
theorem spaced_tokens (cs : List Char) : Spaced (tokens cs) cs := by
  rw [tokens_eq_ite]
  exact (leads_leadingToken cs).spaced

/-! ### Trimming -/

/-- Blanks behind make no difference. -/
theorem Spaced.append_gap {gap : List Char} (h : Spaced words cs) (blank : IsGap gap) :
    Spaced words (cs ++ gap) := by
  induction h with
  | gap before => exact .gap (List.forall_mem_append.mpr ⟨before, blank⟩)
  | last before ne_nil unbroken =>
    cases gap with
    | nil => simpa using Spaced.last before ne_nil unbroken
    | cons b gap =>
      have hb : isBlank b = true := blank b List.mem_cons_self
      have behind : IsGap gap := fun c hc => blank c (List.mem_cons_of_mem b hc)
      rw [List.append_assoc]
      exact .word before ne_nil unbroken hb (.gap behind)
  | word before ne_nil unbroken separated rest ih =>
    rw [List.append_assoc, List.append_assoc, List.cons_append]
    exact .word before ne_nil unbroken separated ih

theorem isGap_takeWhile (cs : List Char) : IsGap (cs.takeWhile isBlank) := fun _ hc =>
  List.all_eq_true.mp List.all_takeWhile _ hc

/-- A text is its trimmed form with blanks around it. -/
theorem exists_around_trim (cs : List Char) :
    ∃ before behind, IsGap before ∧ IsGap behind ∧ cs = before ++ (trim cs ++ behind) := by
  refine ⟨cs.takeWhile isBlank, ((trimStart cs).reverse.takeWhile isBlank).reverse,
    isGap_takeWhile cs, fun c hc => isGap_takeWhile _ c (List.mem_reverse.mp hc), ?_⟩
  rw [trim, trimEnd, ← List.reverse_append, List.takeWhile_append_dropWhile, List.reverse_reverse,
    trimStart, List.takeWhile_append_dropWhile]

/-- **Trimming keeps the tokens.** -/
theorem tokens_trim (cs : List Char) : tokens (trim cs) = tokens cs := by
  obtain ⟨before, behind, hbefore, hbehind, split⟩ := exists_around_trim cs
  have around : tokens (trim cs ++ behind) = tokens cs := by
    conv => rhs; rw [split]
    exact (tokens_gap_append _ hbefore).symm
  rw [← around]
  exact ((spaced_tokens (trim cs)).append_gap hbehind).tokens_eq.symm

theorem trimEnd_cons {c : Char} (hc : isBlank c = false) (cs : List Char) :
    trimEnd (c :: cs) = c :: trimEnd cs := by
  rw [trimEnd, trimEnd, List.reverse_cons, List.dropWhile_append]
  split
  · next empty =>
    rw [List.isEmpty_iff.mp empty, List.dropWhile_cons_of_neg (by simp [hc])]
    rfl
  · rw [List.reverse_append]
    rfl

/-- What is left behind blanks does not begin with one. -/
theorem isBlank_of_dropWhile {c : Char} {rest : List Char} (h : cs.dropWhile isBlank = c :: rest) :
    isBlank c = false := by
  have first := List.head?_dropWhile_not isBlank cs
  rw [h] at first
  simpa using first

theorem dropWhile_dropWhile_isBlank (cs : List Char) :
    (cs.dropWhile isBlank).dropWhile isBlank = cs.dropWhile isBlank := by
  cases hcs : cs.dropWhile isBlank with
  | nil => rfl
  | cons c rest => exact List.dropWhile_cons_of_neg (by simp [isBlank_of_dropWhile hcs])

theorem trimEnd_trim (cs : List Char) : trimEnd (trim cs) = trim cs := by
  rw [trim, trimEnd, trimEnd, List.reverse_reverse, dropWhile_dropWhile_isBlank]

theorem trimStart_trim (cs : List Char) : trimStart (trim cs) = trim cs := by
  rw [trim, trimStart, trimStart]
  cases hcs : cs.dropWhile isBlank with
  | nil => rfl
  | cons c rest =>
    have hc := isBlank_of_dropWhile hcs
    rw [trimEnd_cons hc, List.dropWhile_cons_of_neg (by simp [hc])]

/-- **A trimmed text has no blanks at its ends.** -/
theorem trim_trim (cs : List Char) : trim (trim cs) = trim cs := by
  rw [trim, trimStart_trim, trimEnd_trim]

/-- The text `inner` is `cs` without the blanks at its two ends. -/
structure IsTrimmed (cs inner : List Char) : Prop where
  around : ∃ before behind, IsGap before ∧ IsGap behind ∧ cs = before ++ (inner ++ behind)
  first : ∀ c ∈ inner.head?, isBlank c = false
  last : ∀ c ∈ inner.getLast?, isBlank c = false

theorem isTrimmed_trim (cs : List Char) : IsTrimmed cs (trim cs) := by
  refine ⟨exists_around_trim cs, ?_, ?_⟩
  · intro c hc
    have whole := trimStart_trim cs
    rw [trimStart] at whole
    obtain ⟨rest, split⟩ := List.head?_eq_some_iff.mp hc
    exact isBlank_of_dropWhile (whole.trans split)
  · intro c hc
    have whole : (trim cs).reverse.dropWhile isBlank = (trim cs).reverse := by
      apply List.reverse_inj.mp
      rw [List.reverse_reverse]
      exact trimEnd_trim cs
    rw [← List.head?_reverse] at hc
    obtain ⟨rest, split⟩ := List.head?_eq_some_iff.mp hc
    exact isBlank_of_dropWhile (whole.trans split)

theorem dropWhile_gap_append {gap inner : List Char} (blank : IsGap gap)
    (first : ∀ c ∈ inner.head?, isBlank c = false) (ne_nil : inner ≠ []) (behind : List Char) :
    (gap ++ (inner ++ behind)).dropWhile isBlank = inner ++ behind := by
  obtain ⟨c, tail, rfl⟩ := List.exists_cons_of_ne_nil ne_nil
  have hc : isBlank c = false := first c rfl
  rw [List.dropWhile_append_of_pos blank, List.cons_append, List.dropWhile_cons_of_neg (by simp [hc])]

/-- **What is left of a text without the blanks at its ends** is unique. -/
theorem isTrimmed_iff {inner : List Char} : IsTrimmed cs inner ↔ inner = trim cs := by
  constructor
  · rintro ⟨⟨before, behind, hbefore, hbehind, rfl⟩, first, last⟩
    by_cases ne_nil : inner = []
    · -- a text of blanks has nothing to be left
      have blank : ∀ c ∈ before ++ behind, isBlank c = true :=
        List.forall_mem_append.mpr ⟨hbefore, hbehind⟩
      have none : (before ++ behind).dropWhile isBlank = [] := by
        rw [← List.append_nil (before ++ behind), List.dropWhile_append_of_pos blank]
        rfl
      rw [ne_nil, List.nil_append, trim, trimStart, none]
      rfl
    · have gap : IsGap behind.reverse := fun c hc => hbehind c (List.mem_reverse.mp hc)
      have last : ∀ c ∈ inner.reverse.head?, isBlank c = false := by rwa [List.head?_reverse]
      have again := dropWhile_gap_append gap last (List.reverse_ne_nil_iff.mpr ne_nil) []
      rw [List.append_nil] at again
      rw [trim, trimStart, dropWhile_gap_append hbefore first ne_nil, trimEnd, List.reverse_append,
        again, List.reverse_reverse]
  · rintro rfl
    exact isTrimmed_trim cs

/-! ### Lines -/

/-- The words of a line are words. -/
theorem isWord_of_mem_words {line word : String} (h : word ∈ Text.words line) : IsWord word := by
  obtain ⟨token, ht, rfl⟩ := List.mem_map.mp h
  obtain ⟨ne_nil, unbroken⟩ := (spaced_tokens line.toList).forall_words token ht
  exact ⟨by rwa [String.toList_ofList], by rwa [String.toList_ofList]⟩

end ProductSegments.Text

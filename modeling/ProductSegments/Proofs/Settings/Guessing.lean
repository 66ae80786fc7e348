import ProductSegments.Proofs.Number.Layout
import ProductSegments.Proofs.Number.Literal
import ProductSegments.Settings.Value

/-!
# Texts that are taken for something else

What a variable holds is taken for a flag or a number if it looks like one.  Where a text is wanted,
the flag or the number is written out again, and this need not be the text that was there: letter
case, plus signs, zeros in front, exponents and digits beyond those that a number can keep are lost.

## Main definitions

* `Settings.Value.delivered` — the text that comes of a text.
* `Settings.Value.IsSteady` — the texts that are not changed, said by how they are spelled.

## Main results

* `Settings.Value.delivered_eq_self_iff` — **just the steady texts are not changed.**
* `Settings.Value.integer64?_toString` — a whole number that is written out is read back.
* `Layout.ofChars?_chars_setting` — so is every other number.
-/

namespace ProductSegments

/-- **Every number that is written out is read back**, its sign included. -/
theorem Layout.ofChars?_chars_setting (x : Binary64) :
    Binary64.ofChars? (setting.chars x) = some x := by
  cases x with
  | nan => decide
  | infinity negative => cases negative <;> decide
  | finite negative quanta exact =>
    obtain ⟨n, -, hchars, hvalue⟩ := exists_numeral_chars setting negative quanta exact
    have keepsSign : (if quanta = 0 then negative && setting.keepsZeroSign else negative) =
        negative := by
      split
      · exact Bool.and_true negative
      · rfl
    rw [keepsSign] at hvalue
    rw [← hchars, Literal.ofChars?_numeral, hvalue]

namespace Settings.Value

open Decimal (scanSign Sign Numeral)

/-! ### Whole numbers -/

/-- A whole number is a sign and digits, within 64 bits. -/
theorem integer64?_eq {s : String} {negative : Bool} {cs : List Char}
    (h : scanSign s.toList = (negative, cs)) :
    integer64? s = ((digits? cs).map fun n : Nat => if negative then -(n : Int) else n).filter
      Integer.fits64 := by
  have within (n? : Option Int) :
      (n?.bind fun n => if Integer.fits64 n then some n else none) = n?.filter Integer.fits64 := by
    cases n? with
    | none => rfl
    | some n => rw [Option.filter_some]; rfl
  rw [← within, integer64?]
  split
  · next cs' eq =>
    rw [eq] at h
    cases h
    cases digits? cs <;> rfl
  · next cs' eq =>
    rw [eq] at h
    cases h
    rfl
  · next minus plus =>
    unfold scanSign at h
    split at h
    · next cs' eq => exact absurd eq (minus cs')
    · next cs' eq => exact absurd eq (plus cs')
    · cases h
      rfl

theorem digits?_eq_some_iff {cs : List Char} {n : Nat} : digits? cs = some n ↔
    cs ≠ [] ∧ (∀ c ∈ cs, c.isDigit = true) ∧ Decimal.ofDigits cs = n := by
  unfold digits?
  split
  · next other =>
    simp only [Bool.or_eq_true, List.isEmpty_iff, Bool.not_eq_true', List.all_eq_false] at other
    grind
  · next digits =>
    simp only [Bool.or_eq_true, List.isEmpty_iff, Bool.not_eq_true', List.all_eq_false] at digits
    grind

theorem digits?_toDigits (n : Nat) : digits? (Nat.toDigits 10 n) = some n :=
  digits?_eq_some_iff.mpr
    ⟨Nat.toDigits_ne_nil, Decimal.isDigit_of_mem_toDigits, Decimal.ofDigits_toDigits n⟩

/-- Whole numbers have no plus sign and no zeros in front. -/
theorem toList_toString (n : Int) :
    (toString n).toList = (Sign.ofNegative (n < 0)).chars ++ Nat.toDigits 10 n.natAbs := by
  cases n with
  | ofNat n =>
    have sign : Sign.ofNegative (decide (Int.ofNat n < 0)) = .none := by simp [Sign.ofNegative]
    rw [sign]
    exact String.toList_ofList
  | negSucc n => simp [Sign.ofNegative, Sign.chars, toString, Int.repr, Nat.repr]

/-- **A whole number that is written out is read back.** -/
theorem integer64?_toString {n : Int} (fits : Integer.fits64 n = true) :
    integer64? (toString n) = some n := by
  obtain ⟨c, cs, hdigits⟩ :=
    List.exists_cons_of_ne_nil (Nat.toDigits_ne_nil (b := 10) (n := n.natAbs))
  have hc : c.isDigit = true :=
    Decimal.isDigit_of_mem_toDigits c (hdigits ▸ List.mem_cons_self)
  have hsign : scanSign (toString n).toList = (decide (n < 0), Nat.toDigits 10 n.natAbs) := by
    rw [toList_toString, hdigits, Decimal.scanSign_chars_append _ _ (.inl hc),
      Decimal.Sign.isMinus_ofNegative]
  have hvalue : (if decide (n < 0) = true then -(n.natAbs : Int) else n.natAbs) = n := by
    simp only [decide_eq_true_eq]
    omega
  rw [integer64?_eq hsign, digits?_toDigits, Option.map_some, hvalue, Option.filter_some, if_pos fits]

theorem fits64_of_integer64? {s : String} {n : Int} (h : integer64? s = some n) :
    Integer.fits64 n = true := by
  rw [integer64?_eq rfl] at h
  exact (Option.filter_eq_some_iff.mp h).2

/-- Whole numbers are numerals. -/
theorem exists_ofChars?_of_integer64? {s : String} {n : Int} (h : integer64? s = some n) :
    ∃ x, Binary64.ofChars? s.toList = some x := by
  rw [integer64?_eq rfl, Option.filter_eq_some_iff, Option.map_eq_some_iff] at h
  obtain ⟨⟨m, hm, -⟩, -⟩ := h
  obtain ⟨ne_nil, isDigit, -⟩ := digits?_eq_some_iff.mp hm
  obtain ⟨sign, hs, -⟩ := Decimal.exists_sign s.toList
  let numeral : Numeral := {
    sign := sign
    whole := (scanSign s.toList).2
    fraction? := none
    power? := none
    isDigit_whole := isDigit
    isDigit_fraction := by simp
    digits_ne_nil := by rwa [Option.getD_none, List.append_nil] }
  have hchars : numeral.chars = s.toList := by
    rw [hs]
    simp [numeral, Numeral.chars, Decimal.powerChars]
  exact ⟨_, hchars ▸ Literal.ofChars?_numeral numeral⟩

/-! ### Words for flags -/

/-- The words for flags. -/
def flagWords : List String := ["true", "false"]

theorem sameWord_iff {a b : String} : sameWord a b = true ↔
    a.toList.map Char.toLower = b.toList.map Char.toLower := by
  rw [sameWord, decide_eq_true_eq]

/-- A word for a flag has no digits and no sign, whatever its letter case. -/
theorem not_mem_of_sameWord {v word : String} (mem : word ∈ flagWords)
    (h : sameWord v word = true) {c : Char} (hc : c ∈ "0123456789+-".toList) : c ∉ v.toList := by
  intro within
  have lower : c.toLower ∈ word.toList.map Char.toLower :=
    sameWord_iff.mp h ▸ List.mem_map_of_mem within
  have apart : ∀ c ∈ "0123456789+-".toList, ∀ word ∈ flagWords,
      c.toLower ∉ word.toList.map Char.toLower := Text.forall_mem (by decide)
  exact apart c hc word mem lower

/-- A word for a flag spells no number. -/
theorem ofChars?_of_sameWord {v word : String} (mem : word ∈ flagWords)
    (h : sameWord v word = true) : Binary64.ofChars? v.toList = none := by
  have noNumeral : Decimal.ofChars? v.toList = none := by
    refine Option.eq_none_iff_forall_ne_some.mpr fun d hd => ?_
    obtain ⟨n, hn, -⟩ := Decimal.ofChars?_eq_some_iff.mp hd
    obtain ⟨c, hc, digit⟩ := n.exists_digit
    have digits : ∀ c ∈ Numeral.alphabet, c.isDigit = true → c ∈ "0123456789+-".toList :=
      Text.forall_mem (by decide)
    exact not_mem_of_sameWord mem h (digits c (Numeral.mem_alphabet_of_isDigit digit) digit) (hn ▸ hc)
  have noSign : scanSign v.toList = (false, v.toList) := by
    obtain ⟨sign, hv, negative⟩ := Decimal.exists_sign v.toList
    cases sign with
    | none => exact Prod.ext negative.symm hv.symm
    | plus => exact absurd (hv ▸ List.mem_cons_self) (not_mem_of_sameWord mem h (c := '+') (by decide))
    | minus => exact absurd (hv ▸ List.mem_cons_self) (not_mem_of_sameWord mem h (c := '-') (by decide))
  have names : ∀ word ∈ flagWords, ∀ name ∈ ["inf".toList, "infinity".toList, "nan".toList],
      word.toList.map Char.toLower ≠ name := by decide
  have noName := names word mem
  rw [← sameWord_iff.mp h] at noName
  simp only [List.forall_mem_cons] at noName
  obtain ⟨noInf, noInfinity, noNan, -⟩ := noName
  unfold Binary64.ofChars?
  rw [noNumeral, noSign]
  dsimp only
  rw [decide_eq_false noInf, decide_eq_false noInfinity, if_neg (by decide), if_neg noNan]

/-- What spells a number is no word for a flag. -/
theorem sameWord_eq_false_of_ofChars? {v : String} {x : Binary64}
    (h : Binary64.ofChars? v.toList = some x) : ∀ word ∈ flagWords, sameWord v word = false := by
  intro word mem
  refine Bool.eq_false_iff.mpr fun same => ?_
  rw [ofChars?_of_sameWord mem same] at h
  cases h

/-! ### Texts in place of texts -/

/-- The text that comes of a text that stands in a variable. -/
def delivered (v : String) : String := ((ofText false v).text?).getD v

/-- Whatever a text is taken for can be written out again. -/
theorem text?_ofText (v : String) : (ofText false v).text? = some (delivered v) := by
  simp only [delivered, ofText, Bool.false_eq_true, if_false]
  repeat' split
  all_goals rfl

/-- The texts that are not changed: the two flags and the numbers as they are written out, and what
spells neither a flag nor a number. -/
inductive IsSteady (v : String) : Prop where
  | flag (b : Bool) (spelled : v = if b then "true" else "false")
  | integer (n : Int) (fits : Integer.fits64 n = true) (spelled : v = toString n)
  | number (x : Binary64) (noInteger : integer64? v = none) (spelled : v = Layout.setting.text x)
  | text (noFlag : ∀ word ∈ flagWords, sameWord v word = false)
    (noNumber : Binary64.ofChars? v.toList = none)

section Delivered

variable {v : String}

theorem delivered_of_sameWord_true (h : sameWord v "true" = true) : delivered v = "true" := by
  rw [delivered, ofText, if_pos h]
  rfl

theorem delivered_of_sameWord_false (h : sameWord v "false" = true)
    (other : sameWord v "true" = false) : delivered v = "false" := by
  rw [delivered, ofText, if_neg (Bool.eq_false_iff.mp other), if_pos h]
  rfl

variable (noFlag : ∀ word ∈ flagWords, sameWord v word = false)
include noFlag

theorem ofText_of_not_flag : ofText false v = match integer64? v with
    | some n => .integer n
    | none => match Binary64.ofChars? v.toList with
      | some x => .number x
      | none => .text v := by
  rw [ofText, noFlag "true" (by decide), noFlag "false" (by decide), if_neg Bool.false_ne_true,
    if_neg Bool.false_ne_true]
  rfl

theorem delivered_integer {n : Int} (h : integer64? v = some n) : delivered v = toString n := by
  rw [delivered, ofText_of_not_flag noFlag, h]
  rfl

theorem delivered_number (noInteger : integer64? v = none) {x : Binary64}
    (h : Binary64.ofChars? v.toList = some x) : delivered v = Layout.setting.text x := by
  rw [delivered, ofText_of_not_flag noFlag, noInteger, h]
  rfl

theorem delivered_text (noNumber : Binary64.ofChars? v.toList = none) : delivered v = v := by
  have noInteger : integer64? v = none := by
    refine Option.eq_none_iff_forall_ne_some.mpr fun n hn => ?_
    obtain ⟨x, hx⟩ := exists_ofChars?_of_integer64? hn
    rw [noNumber] at hx
    cases hx
  rw [delivered, ofText_of_not_flag noFlag, noInteger, noNumber]
  rfl

end Delivered

/-- **Just the steady texts are not changed.** -/
theorem delivered_eq_self_iff {v : String} : delivered v = v ↔ IsSteady v := by
  constructor
  · intro same
    by_cases isTrue : sameWord v "true" = true
    · exact .flag true (same.symm.trans (delivered_of_sameWord_true isTrue))
    by_cases isFalse : sameWord v "false" = true
    · exact .flag false (same.symm.trans
        (delivered_of_sameWord_false isFalse (Bool.eq_false_iff.mpr isTrue)))
    have noFlag : ∀ word ∈ flagWords, sameWord v word = false := by
      simp [flagWords, isTrue, isFalse]
    cases hinteger : integer64? v with
    | some n =>
      have spelled := same.symm.trans (delivered_integer noFlag hinteger)
      exact .integer n (fits64_of_integer64? hinteger) spelled
    | none =>
      cases hnumber : Binary64.ofChars? v.toList with
      | some x =>
        exact .number x hinteger (same.symm.trans (delivered_number noFlag hinteger hnumber))
      | none => exact .text noFlag hnumber
  · intro steady
    cases steady with
    | flag b spelled =>
      subst spelled
      cases b <;> decide
    | integer n fits spelled =>
      have read := integer64?_toString fits
      obtain ⟨x, hx⟩ := exists_ofChars?_of_integer64? read
      subst spelled
      exact delivered_integer (sameWord_eq_false_of_ofChars? hx) read
    | number x noInteger spelled =>
      have read : Binary64.ofChars? v.toList = some x := by
        rw [spelled, Layout.text, String.toList_ofList, Layout.ofChars?_chars_setting]
      rw [delivered_number (sameWord_eq_false_of_ofChars? read) noInteger read, ← spelled]
    | text noFlag noNumber => exact delivered_text noFlag noNumber

end Settings.Value

end ProductSegments

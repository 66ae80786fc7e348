import ProductSegments.Catalog.Shop
import ProductSegments.Proofs.Json.Number
import ProductSegments.Proofs.Number.Literal
import ProductSegments.Proofs.Number.Longest
import ProductSegments.Proofs.Rule.Comparison
import ProductSegments.Proofs.Text.Utf8

/-!
# Prices are the longest numerals

The price of a text is found by moving a place over its bytes, while numerals are texts.  A place is
followed here by the characters that stand behind it: as long as it moves over signs, digits, points and
letters of exponents, it stays between two characters, and it stops where the longest numeral
ends that the text begins with.

## Main results

* `Utf8.Behind.getElem?_eq_byte_iff` — an ASCII character at a place is the next one behind it.
* `Catalog.Price.numeralEnd?_encode` — the place stops where the scanner of numerals does.
* `Catalog.Price.exists_isLongest`, `Catalog.Price.ofText_of_isLongest` — the price is what the
  longest numeral spells.
* `Catalog.Price.reads_longest` — all of it, and that rules read the same literal alike.
-/

namespace ProductSegments

open Json (byte)

/-! ### Places in bytes -/

namespace Utf8

/-- Behind a place in some bytes stands a text. -/
def Behind (s : List UInt8) (i : Nat) (rest : List Char) : Prop := s.drop i = encode rest

section Behind

variable {s : List UInt8} {i : Nat} {rest tail : List Char} {c : Char}

theorem behind_zero (cs : List Char) : Behind (encode cs) 0 cs := rfl

/-- **An ASCII character stands at a place exactly if it is the next one behind it.** -/
theorem Behind.getElem?_eq_byte_iff (behind : Behind s i rest) (ascii : c.toNat < 0x80) :
    s[i]? = some (byte c) ↔ rest.head? = some c := by
  have front : s[i]? = (encode rest).head? := by
    rw [← behind]
    exact List.head?_drop.symm
  rw [front]
  constructor
  · intro head
    cases bytes : encode rest with
    | nil =>
      rw [bytes] at head
      cases head
    | cons b others =>
      rw [bytes, List.head?_cons, Option.some.injEq] at head
      rw [head] at bytes
      obtain ⟨tail, rfl, -⟩ := (encode_eq_cons_iff ascii).mp bytes
      rfl
  · intro head
    obtain ⟨tail, rfl⟩ := List.head?_eq_some_iff.mp head
    rw [(encode_eq_cons_iff ascii).mpr ⟨tail, rfl, rfl⟩, List.head?_cons]

/-- It takes one byte. -/
theorem Behind.next (behind : Behind s i (c :: tail)) (ascii : c.toNat < 0x80) :
    Behind s (i + 1) tail := by
  have bytes := (encode_eq_cons_iff ascii).mpr ⟨tail, rfl, rfl⟩
  rw [Behind, ← List.tail_drop, behind, bytes, List.tail_cons]

end Behind

/-- **A run of digits** is as long in bytes as in characters. -/
theorem takeWhile_isDigit_encode (cs : List Char) :
    (encode cs).takeWhile Json.isDigit = (cs.takeWhile Char.isDigit).map byte ∧
      (encode cs).dropWhile Json.isDigit = encode (cs.dropWhile Char.isDigit) := by
  induction cs with
  | nil => exact ⟨rfl, rfl⟩
  | cons c cs ih =>
    rw [encode_cons]
    rcases utf8EncodeChar_cases c with ⟨ascii, he⟩ | ⟨large, b, others, he, hb⟩
    · have same : Json.isDigit (byte c) = c.isDigit := Json.isDigit_byte_eq ascii
      rw [he, List.singleton_append]
      cases digit : c.isDigit with
      | true =>
        rw [digit] at same
        simp [same, digit, ih]
      | false =>
        rw [digit] at same
        simp [same, digit, he]
    · -- no byte of another character is below 0xC0
      have digit : c.isDigit = false := by
        rw [Bool.eq_false_iff]
        intro isDigit
        have small := Text.toNat_lt_of_isDigit isDigit
        omega
      have byte : Json.isDigit b = false := by
        rw [Json.isDigit, Bool.and_eq_false_iff]
        right
        rw [decide_eq_false_iff_not, UInt8.le_iff_toNat_le]
        exact Nat.not_le_of_lt (Nat.lt_of_lt_of_le (by decide) hb)
      rw [he, List.cons_append]
      simp [digit, byte, he]

end Utf8

namespace Catalog.Price

open Utf8 (encode Behind)
open Decimal (Numeral IsLongest scanSign scanFraction scanExponent scan)
open Text (IsWord trimStart)

section Places

variable {s : List UInt8} {i : Nat} {rest : List Char}

/-- A sign is passed. -/
theorem behind_behindSign (behind : Behind s i rest) :
    Behind s (behindSign s i) (scanSign rest).2 := by
  have plus := behind.getElem?_eq_byte_iff (show '+'.toNat < 0x80 by decide)
  have minus := behind.getElem?_eq_byte_iff (show '-'.toNat < 0x80 by decide)
  simp only [behindSign, plus, minus]
  split
  · next sign =>
    rcases sign with h | h
    · obtain ⟨tail, rfl⟩ := List.head?_eq_some_iff.mp h
      exact behind.next (by decide)
    · obtain ⟨tail, rfl⟩ := List.head?_eq_some_iff.mp h
      exact behind.next (by decide)
  · next none =>
    unfold scanSign
    split
    · exact absurd (.inr rfl) none
    · exact absurd (.inl rfl) none
    · exact behind

/-- Digits are passed, one byte for each. -/
theorem behind_behindDigits (behind : Behind s i rest) :
    Behind s (behindDigits s i) (rest.dropWhile Char.isDigit) ∧
      behindDigits s i = i + (rest.takeWhile Char.isDigit).length := by
  have bytes : s.drop i = encode rest := behind
  obtain ⟨taken, dropped⟩ := Utf8.takeWhile_isDigit_encode rest
  have length : behindDigits s i = i + (rest.takeWhile Char.isDigit).length := by
    rw [behindDigits, bytes, taken, List.length_map]
  refine ⟨?_, length⟩
  have split := List.takeWhile_append_dropWhile (p := Json.isDigit) (l := encode rest)
  rw [taken, dropped] at split
  rw [Behind, length, ← List.drop_drop, bytes, ← split, List.drop_append_of_le_length (by simp)]
  simp

/-- A point is passed with the digits behind it, unless there is no digit on either side. -/
theorem behind_behindFraction {start : Nat} (behind : Behind s i rest) (le : start ≤ i) :
    if start = i ∧ (scanFraction rest).1 = [] then behindFraction s start i = start
    else start < behindFraction s start i ∧
      Behind s (behindFraction s start i) (scanFraction rest).2 := by
  have point := behind.getElem?_eq_byte_iff (show '.'.toNat < 0x80 by decide)
  simp only [behindFraction, point]
  unfold scanFraction
  split
  · next tail =>
    obtain ⟨digits, length⟩ := behind_behindDigits (behind.next (show '.'.toNat < 0x80 by decide))
    rw [if_pos List.head?_cons]
    have noDigit : tail.takeWhile Char.isDigit = [] ↔ behindDigits s (i + 1) = i + 1 := by
      rw [← List.length_eq_zero_iff]
      omega
    dsimp only
    simp only [noDigit]
    split
    · next none =>
      rw [if_neg (by omega)]
      exact none.1.symm
    · next some =>
      rw [if_pos (by omega)]
      exact ⟨by omega, digits⟩
  · next noPoint =>
    have head : rest.head? ≠ some '.' := by
      intro h
      obtain ⟨tail, rfl⟩ := List.head?_eq_some_iff.mp h
      exact noPoint tail rfl
    rw [if_neg head]
    dsimp only
    split
    · next none => exact none.1.symm
    · next some =>
      refine ⟨?_, behind⟩
      have ne : start ≠ i := fun eq => some ⟨eq, rfl⟩
      omega

/-- An exponent is passed; an `e` without digits is none. -/
theorem behind_behindExponent (behind : Behind s i rest) :
    Behind s (behindExponent s i) (scanExponent rest).2 := by
  have small := behind.getElem?_eq_byte_iff (show 'e'.toNat < 0x80 by decide)
  have large := behind.getElem?_eq_byte_iff (show 'E'.toNat < 0x80 by decide)
  simp only [behindExponent, small, large]
  cases rest with
  | nil => exact behind
  | cons e tail =>
    simp only [List.head?_cons, Option.some.injEq, scanExponent, Bool.or_eq_true, decide_eq_true_eq]
    split
    · next letter =>
      have ascii : e.toNat < 0x80 := by
        rcases letter with rfl | rfl <;> decide
      obtain ⟨digits, length⟩ := behind_behindDigits (behind_behindSign (behind.next ascii))
      have noDigit : ((scanSign tail).2.takeWhile Char.isDigit).isEmpty = true ↔
          ¬behindSign s (i + 1) < behindDigits s (behindSign s (i + 1)) := by
        rw [List.isEmpty_iff, ← List.length_eq_zero_iff]
        omega
      split
      · next some => rwa [if_neg (fun none => noDigit.mp none some)]
      · next none => rwa [if_pos (noDigit.mpr none)]
    · exact behind

end Places

/-- **The place stops where the scanner of numerals does**, and nowhere if that finds none. -/
theorem numeralEnd?_encode (cs : List Char) :
    (scan cs = none ∧ numeralEnd? (encode cs) = none) ∨
      ∃ d rest stop, scan cs = some (d, rest) ∧ numeralEnd? (encode cs) = some stop ∧
        Behind (encode cs) stop rest := by
  have sign := behind_behindSign (Utf8.behind_zero cs)
  obtain ⟨whole, length⟩ := behind_behindDigits sign
  have fraction := behind_behindFraction whole (length ▸ Nat.le_add_right _ _)
  have noDigit : (scanSign cs).2.takeWhile Char.isDigit = [] ↔ behindSign (encode cs) 0 =
      behindDigits (encode cs) (behindSign (encode cs) 0) := by
    rw [← List.length_eq_zero_iff]
    omega
  simp only [scan, Bool.and_eq_true, List.isEmpty_iff, noDigit, numeralEnd?]
  split at fraction
  · next none =>
    left
    rw [if_pos none, if_pos fraction]
    exact ⟨rfl, rfl⟩
  · next some =>
    obtain ⟨further, mantissa⟩ := fraction
    right
    rw [if_neg some, if_neg (Nat.ne_of_gt further)]
    exact ⟨_, _, _, rfl, rfl, behind_behindExponent mantissa⟩

/-! ### Prices -/

variable {cs : List Char} {stop : Nat}

/-- There is no number exactly if the text begins with no numeral. -/
theorem numeralEnd?_eq_none_iff :
    numeralEnd? (encode cs) = none ↔ ∀ p, p <+: cs → Decimal.isNumeral p = false := by
  rw [← Decimal.scan_eq_none_iff]
  rcases numeralEnd?_encode cs with ⟨nothing, nowhere⟩ | ⟨d, rest, stop, found, stops, -⟩
  · exact iff_of_true nowhere nothing
  · rw [found, stops]
    exact iff_of_false nofun nofun

/-- **What stands in front of the place is the longest numeral**, from its first byte to its last. -/
theorem exists_isLongest (h : numeralEnd? (encode cs) = some stop) :
    ∃ n : Numeral, IsLongest n.chars cs ∧ (encode cs).take stop = encode n.chars := by
  rcases numeralEnd?_encode cs with ⟨-, nowhere⟩ | ⟨d, rest, stop', found, stops, behind⟩
  · rw [h] at nowhere
    cases nowhere
  · obtain rfl : stop = stop' := Option.some.inj (h.symm.trans stops)
    obtain ⟨n, rfl, -⟩ := Decimal.exists_numeral_of_scan found
    refine ⟨n, n.isLongest_of_scan found, ?_⟩
    have split := List.take_append_drop stop (encode (n.chars ++ rest))
    rw [show List.drop stop _ = _ from behind] at split
    rw [Utf8.encode_append] at split ⊢
    exact List.append_cancel_right split

/-- **The price is what the longest numeral spells**, if that is finite. -/
theorem ofText_of_isLongest {p : List Char} (h : IsLongest p (trimStart cs)) :
    ofText cs = if (Literal.value p).isFinite then Literal.value p else .zero := by
  unfold ofText
  cases stops : numeralEnd? (encode (trimStart cs)) with
  | none =>
    have none := numeralEnd?_eq_none_iff.mp stops p h.begins
    rw [h.isNumeral] at none
    cases none
  | some stop =>
    obtain ⟨n, longest, bytes⟩ := exists_isLongest stops
    obtain rfl : p = n.chars := h.unique longest
    dsimp only
    rw [stops]
    dsimp only
    rw [bytes, Utf8.decode?_encode, Option.bind_some, Literal.ofChars?_numeral,
      Literal.value_numeral, Option.filter_some]
    split <;> rfl

/-- A text that begins with no numeral has no price. -/
theorem ofText_of_no_numeral (h : ∀ p, p <+: trimStart cs → Decimal.isNumeral p = false) :
    ofText cs = .zero := by
  unfold ofText
  dsimp only
  rw [numeralEnd?_eq_none_iff.mpr h]

/-! ### Literals -/

/-- A numeral is the longest that it begins with itself. -/
theorem isLongest_self (n : Numeral) : IsLongest n.chars (trimStart n.chars) := by
  rw [trimStart, Text.dropWhile_isBlank (Literal.unbroken_numeral n)]
  refine ⟨List.prefix_rfl, Decimal.isNumeral_iff.mpr ⟨n, rfl⟩, ?_⟩
  intro q begins _
  exact begins.length_le

/-- **A literal is read in a shop as in a rule.** -/
theorem ofText_numeral {n : Numeral} (finite : (Literal.value n.chars).isFinite = true) :
    ofText n.chars = Literal.value n.chars := by
  rw [ofText_of_isLongest (isLongest_self n), if_pos finite]

/-- **The price of a text is what the longest numeral spells that it begins with**, blanks aside, and
zero if there is none or that is not finite.  So it is always finite.  The bytes that are read end
between two characters, and spell a number.  The price of a record that is a literal with a finite value is
the number of every rule that compares prices with that literal. -/
theorem reads_longest (text : String) :
    let cs := trimStart text.toList
    let price := ofText text.toList
    (∀ p, IsLongest p cs →
      price = if (Literal.value p).isFinite then Literal.value p else .zero) ∧
    ((∀ p, p <+: cs → Decimal.isNumeral p = false) → price = .zero) ∧
    price.isFinite = true ∧
    (numeralEnd? (encode cs) = none ↔ ∀ p, p <+: cs → Decimal.isNumeral p = false) ∧
    (∀ stop, numeralEnd? (encode cs) = some stop → ∃ p x, IsLongest p cs ∧
      (encode cs).take stop = encode p ∧ Utf8.decode? ((encode cs).take stop) = some p ∧
      Binary64.ofChars? p = some x) ∧
    (Decimal.isNumeral text.toList = true → (Literal.value text.toList).isFinite = true →
      price = Literal.value text.toList ∧
      ∀ record : Shop.Record, record.price = some text → ∀ op ∈ Operator.all,
        let rule := Rule.ofLine (Rule.line .price op text)
        rule.isNumeric = true ∧ record.product.price = rule.number) := by
  intro cs price
  refine ⟨fun p => ofText_of_isLongest, ofText_of_no_numeral, isFinite_ofText _,
    numeralEnd?_eq_none_iff, ?slice, ?literal⟩
  case slice =>
    intro stop stops
    obtain ⟨n, longest, bytes⟩ := exists_isLongest stops
    refine ⟨n.chars, _, longest, bytes, ?_, Literal.ofChars?_numeral n⟩
    rw [bytes]
    exact Utf8.decode?_encode n.chars
  case literal =>
    intro numeral finite
    obtain ⟨n, hn⟩ := Decimal.isNumeral_iff.mp numeral
    have word : IsWord text := ⟨hn ▸ Literal.numeral_ne_nil n, hn ▸ Literal.unbroken_numeral n⟩
    have read : price = Literal.value text.toList := by
      rw [← hn] at finite
      have read := ofText_numeral finite
      rwa [hn] at read
    refine ⟨read, ?_⟩
    intro record given op hop rule
    have asked : rule = Rule.asking .price op text := Rule.ofLine_line (by decide) hop word
    have number : (Literal.value text.toList).isNaN = false := by
      rw [← hn, Literal.value_numeral, Decimal.isNaN_toBinary64]
    have stored : record.product.price = price := by
      rw [Shop.Record.product, given]
      rfl
    rw [asked, stored, read]
    refine ⟨?_, rfl⟩
    rw [Rule.asking, number]
    rfl

end Catalog.Price

end ProductSegments

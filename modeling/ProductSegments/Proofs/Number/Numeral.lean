import ProductSegments.Number.Decimal
import ProductSegments.Proofs.Text

/-!
# Written numerals

What a decimal numeral looks like, apart from how one is read: a sign that may be missing, digits
with or without a point, and perhaps a power of ten.  The scanner reads exactly these texts, and
each of them as the number that it spells.

## Main definitions

* `Decimal.Sign`, `Decimal.Power` — the optional parts of a numeral.
* `Decimal.Numeral` — a numeral by its parts.
* `Decimal.Numeral.chars`, `Decimal.Numeral.decimal` — how it is written, and what it spells.
* `Decimal.Numeral.IsPlain` — no plus, no zeros in front, and digits on both sides of a point.

## Main results

* `Decimal.Numeral.ofChars?_chars` — a written numeral is read as what it spells.
* `Decimal.exists_numeral_of_scan` — what is scanned is a numeral.
* `Decimal.ofChars?_eq_some_iff` — nothing else is read.
* `Decimal.Numeral.ofChars?_chars_append` — nor a numeral with something else behind it.
* `Decimal.Numeral.mem_alphabet` — the characters that numerals have.
* `Decimal.isNumeral_iff` — the same for the check that a text is a numeral.
* `Decimal.isSome_ofChars?` — the check agrees with the reader.
-/

namespace ProductSegments.Decimal

/-! ### Runs of digits -/

/-- A text that does not go on with a digit. -/
def Stops (cs : List Char) : Prop := ∀ c ∈ cs.head?, c.isDigit = false

theorem stops_cons {c : Char} (cs : List Char) (h : c.isDigit = false) : Stops (c :: cs) := by
  simpa [Stops] using h

theorem isDigit_of_mem_takeWhile {cs : List Char} :
    ∀ c ∈ cs.takeWhile Char.isDigit, c.isDigit = true :=
  fun _ hc => List.all_eq_true.mp List.all_takeWhile _ hc

/-- A run of digits is taken whole where no digit follows it. -/
theorem takeWhile_digits {ds cs : List Char} (h : ∀ c ∈ ds, c.isDigit = true) (stops : Stops cs) :
    (ds ++ cs).takeWhile Char.isDigit = ds := by
  rw [List.takeWhile_append_of_pos h]
  cases cs with
  | nil => simp
  | cons c cs => rw [List.takeWhile_cons_of_neg (by simp [stops c rfl]), List.append_nil]

theorem dropWhile_digits {ds cs : List Char} (h : ∀ c ∈ ds, c.isDigit = true) (stops : Stops cs) :
    (ds ++ cs).dropWhile Char.isDigit = cs := by
  rw [List.dropWhile_append_of_pos h]
  cases cs with
  | nil => simp
  | cons c cs => rw [List.dropWhile_cons_of_neg (by simp [stops c rfl])]

/-! ### Numbers of digits -/

theorem isDigit_of_mem_toDigits {n : Nat} : ∀ c ∈ Nat.toDigits 10 n, c.isDigit = true :=
  fun _ hc => Nat.isDigit_of_mem_toDigits (by decide) (by decide) hc

theorem isDigit_of_mem_zeros {count : Nat} : ∀ c ∈ List.replicate count '0', c.isDigit = true :=
  fun c hc => by rw [List.eq_of_mem_replicate hc]; decide

theorem ofDigits_toDigits (n : Nat) : ofDigits (Nat.toDigits 10 n) = n :=
  Nat.ofDigitChars_ten_toDigits

/-- Zeros in front do not count. -/
theorem ofDigits_zeros_append (count : Nat) (ds : List Char) :
    ofDigits (List.replicate count '0' ++ ds) = ofDigits ds := by
  have happend := Nat.ofDigitChars_append (b := 10) (l := List.replicate count '0') (m := ds) 0
  rw [Nat.ofDigitChars_replicate_zero, Nat.mul_zero] at happend
  exact happend

/-- Zeros behind are a power of ten. -/
theorem ofDigits_append_zeros (ds : List Char) (count : Nat) :
    ofDigits (ds ++ List.replicate count '0') = ofDigits ds * tenPow count := by
  have happend := Nat.ofDigitChars_append (b := 10) (l := ds) (m := List.replicate count '0') 0
  rw [Nat.ofDigitChars_replicate_zero, Nat.mul_comm] at happend
  exact happend

theorem head?_toDigits_append (n : Nat) (cs : List Char) :
    (Nat.toDigits 10 n ++ cs).head? = (Nat.toDigits 10 n).head? := by
  rw [List.head?_append, List.head?_eq_some_head Nat.toDigits_ne_nil, Option.some_or]

/-- A positive number is written without zeros in front. -/
theorem head?_toDigits_ne {n : Nat} (h : n ≠ 0) : (Nat.toDigits 10 n).head? ≠ some '0' := by
  induction n using Nat.strongRecOn with
  | ind n ih =>
    by_cases small : n < 10
    · rw [Nat.toDigits_of_lt_base small, List.head?_cons, Ne, Option.some_inj,
        Nat.digitChar_eq_zero]
      exact h
    · rw [Nat.toDigits_of_base_le (by decide) (by omega), head?_toDigits_append]
      exact ih (n / 10) (by omega) (by omega)

/-! ### Signs -/

/-- A sign that may stand in front of digits. -/
inductive Sign where
  | none
  | plus
  | minus
  deriving DecidableEq, Repr

namespace Sign

/-- How a sign is written. -/
def chars : Sign → List Char
  | none => []
  | plus => ['+']
  | minus => ['-']

/-- The sign is a minus. -/
def isMinus : Sign → Bool
  | minus => true
  | _ => false

/-- The sign of a number. -/
def ofNegative (negative : Bool) : Sign := if negative then minus else none

@[simp] theorem isMinus_ofNegative (negative : Bool) : (ofNegative negative).isMinus = negative := by
  cases negative <;> rfl

end Sign

/-- Digits, or a point and digits, behind a sign. -/
theorem scanSign_chars_append (s : Sign) {c : Char} (cs : List Char) (h : c.isDigit = true ∨ c = '.') :
    scanSign (s.chars ++ c :: cs) = (s.isMinus, c :: cs) := by
  cases s with
  | plus => rfl
  | minus => rfl
  | none =>
    have hplus : c ≠ '+' := by rintro rfl; revert h; decide
    have hminus : c ≠ '-' := by rintro rfl; revert h; decide
    simp only [Sign.chars, List.nil_append]
    unfold scanSign
    split
    · next heq => exact absurd (List.cons.inj heq).1 hminus
    · next heq => exact absurd (List.cons.inj heq).1 hplus
    · rfl

theorem exists_sign (cs : List Char) :
    ∃ s : Sign, cs = s.chars ++ (scanSign cs).2 ∧ s.isMinus = (scanSign cs).1 := by
  unfold scanSign
  split
  · exact ⟨.minus, rfl, rfl⟩
  · exact ⟨.plus, rfl, rfl⟩
  · exact ⟨.none, rfl, rfl⟩

/-! ### Powers of ten -/

/-- A power of ten behind the digits: its letter, a sign and at least one digit. -/
structure Power where
  letter : Char
  sign : Sign
  digits : List Char
  letter_eq : letter = 'e' ∨ letter = 'E'
  isDigit : ∀ c ∈ digits, c.isDigit = true
  digits_ne_nil : digits ≠ []

namespace Power

/-- How a power is written. -/
def chars (p : Power) : List Char := p.letter :: (p.sign.chars ++ p.digits)

/-- The exponent that a power spells. -/
def exponent (p : Power) : Int :=
  if p.sign.isMinus then -(ofDigits p.digits : Int) else ofDigits p.digits

end Power

/-- How an optional power is written. -/
def powerChars (power? : Option Power) : List Char := (power?.map Power.chars).getD []

/-- The exponent of an optional power. -/
def powerExponent (power? : Option Power) : Int := (power?.map Power.exponent).getD 0

@[simp] theorem powerChars_none : powerChars none = [] := rfl

@[simp] theorem powerChars_some (p : Power) : powerChars (some p) = p.chars := rfl

/-- A text that does not go on with what could belong to a numeral. -/
def Ends (cs : List Char) : Prop :=
  ∀ c ∈ cs.head?, c.isDigit = false ∧ c ≠ '.' ∧ c ≠ 'e' ∧ c ≠ 'E'

theorem ends_nil : Ends [] := by simp [Ends]

theorem Ends.stops {cs : List Char} (h : Ends cs) : Stops cs := fun c hc => (h c hc).1

theorem stops_powerChars (power? : Option Power) {rest : List Char} (h : Ends rest) :
    Stops (powerChars power? ++ rest) := by
  cases power? with
  | none => exact h.stops
  | some p =>
    refine stops_cons _ ?_
    rcases p.letter_eq with h | h <;> rw [h] <;> decide

theorem Power.scanSign_tail (p : Power) (rest : List Char) :
    scanSign (p.sign.chars ++ (p.digits ++ rest)) = (p.sign.isMinus, p.digits ++ rest) := by
  obtain ⟨c, cs, h⟩ := List.exists_cons_of_ne_nil p.digits_ne_nil
  rw [h, List.cons_append, scanSign_chars_append]
  exact .inl (p.isDigit c (h ▸ List.mem_cons_self))

theorem scanExponent_powerChars (power? : Option Power) {rest : List Char} (h : Ends rest) :
    scanExponent (powerChars power? ++ rest) = (powerExponent power?, rest) := by
  cases power? with
  | none =>
    cases rest with
    | nil => rfl
    | cons c cs =>
      obtain ⟨-, -, he, hE⟩ := h c rfl
      simp [scanExponent, he, hE, powerExponent]
  | some p =>
    have hletter : (p.letter = 'e' || p.letter = 'E') = true := by
      rcases p.letter_eq with h | h <;> simp [h]
    simp only [powerChars_some, Power.chars, List.cons_append, List.append_assoc, scanExponent]
    rw [if_pos hletter, p.scanSign_tail]
    dsimp only
    rw [takeWhile_digits p.isDigit h.stops, dropWhile_digits p.isDigit h.stops,
      if_neg (by simpa using p.digits_ne_nil)]
    rfl

/-- What the scanner of powers takes is one, or nothing. -/
theorem exists_power (cs : List Char) : ∃ power? : Option Power,
    cs = powerChars power? ++ (scanExponent cs).2 ∧ powerExponent power? = (scanExponent cs).1 := by
  cases cs with
  | nil => exact ⟨none, rfl, rfl⟩
  | cons e tail =>
    simp only [scanExponent]
    split
    · next letter =>
      split
      · exact ⟨none, rfl, rfl⟩
      · next hne =>
        obtain ⟨s, htail, hs⟩ := exists_sign tail
        refine ⟨some ⟨e, s, (scanSign tail).2.takeWhile Char.isDigit, by simpa using letter,
          isDigit_of_mem_takeWhile, by simpa using hne⟩, ?_, ?_⟩
        · change e :: tail = e :: (s.chars ++ (scanSign tail).2.takeWhile Char.isDigit) ++
            (scanSign tail).2.dropWhile Char.isDigit
          rw [List.cons_append, List.append_assoc, List.takeWhile_append_dropWhile, ← htail]
        · simp only [powerExponent, Option.map_some, Option.getD_some, Power.exponent, hs]
    · exact ⟨none, rfl, rfl⟩

/-! ### Numerals -/

/-- A point with the digits behind it, of which there may be none. -/
def fractionChars (fraction? : Option (List Char)) : List Char :=
  (fraction?.map ('.' :: ·)).getD []

@[simp] theorem fractionChars_none : fractionChars none = [] := rfl

@[simp] theorem fractionChars_some (ds : List Char) : fractionChars (some ds) = '.' :: ds := rfl

/-- A numeral by its parts: `[+-]? (digits [. digits?] | . digits) ([eE] [+-]? digits)?`. -/
structure Numeral where
  sign : Sign
  /-- The digits before the point. -/
  whole : List Char
  /-- The digits behind the point, if there is a point. -/
  fraction? : Option (List Char)
  power? : Option Power
  isDigit_whole : ∀ c ∈ whole, c.isDigit = true
  isDigit_fraction : ∀ c ∈ fraction?.getD [], c.isDigit = true
  digits_ne_nil : whole ++ fraction?.getD [] ≠ []

namespace Numeral

/-- How a numeral is written. -/
def chars (n : Numeral) : List Char :=
  n.sign.chars ++ (n.whole ++ (fractionChars n.fraction? ++ powerChars n.power?))

/-- The digits of a numeral, those behind the point included. -/
def digits (n : Numeral) : List Char := n.whole ++ n.fraction?.getD []

/-- The number that a numeral spells. -/
def decimal (n : Numeral) : Decimal :=
  ⟨n.sign.isMinus, ofDigits n.digits, powerExponent n.power? - (n.fraction?.getD []).length⟩

/-- The numeral has no plus, no zeros in front, and digits on both sides of a point. -/
structure IsPlain (n : Numeral) : Prop where
  sign : n.sign ≠ .plus
  whole_ne_nil : n.whole ≠ []
  /-- A leading zero stands alone. -/
  leading : n.whole.head? = some '0' → n.whole.length = 1
  fraction : n.fraction? ≠ some []

/-- Behind its sign a numeral goes on with a digit or a point. -/
theorem scanSign_chars (n : Numeral) (rest : List Char) : scanSign (n.chars ++ rest) =
    (n.sign.isMinus, n.whole ++ (fractionChars n.fraction? ++ (powerChars n.power? ++ rest))) := by
  unfold chars
  rw [List.append_assoc, List.append_assoc, List.append_assoc]
  cases hw : n.whole with
  | cons c cs => exact scanSign_chars_append _ _ (.inl (n.isDigit_whole c (hw ▸ List.mem_cons_self)))
  | nil =>
    cases hf : n.fraction? with
    | none => exact absurd (by simp [hw, hf]) n.digits_ne_nil
    | some ds => exact scanSign_chars_append _ _ (.inr rfl)

theorem stops_fraction (n : Numeral) {rest : List Char} (h : Ends rest) :
    Stops (fractionChars n.fraction? ++ (powerChars n.power? ++ rest)) := by
  cases n.fraction? with
  | none => exact stops_powerChars _ h
  | some ds => exact stops_cons _ (by decide)

theorem scanFraction_of_ne {c : Char} (cs : List Char) (h : c ≠ '.') :
    scanFraction (c :: cs) = ([], c :: cs) := by
  unfold scanFraction
  split
  · next heq => exact absurd (List.cons.inj heq).1 h
  · rfl

theorem scanFraction_chars (n : Numeral) {rest : List Char} (h : Ends rest) :
    scanFraction (fractionChars n.fraction? ++ (powerChars n.power? ++ rest))
      = (n.fraction?.getD [], powerChars n.power? ++ rest) := by
  have hds := n.isDigit_fraction
  cases hf : n.fraction? with
  | some ds =>
    rw [hf, Option.getD_some] at hds
    have stops := stops_powerChars n.power? h
    simp only [fractionChars_some, List.cons_append, scanFraction, Option.getD_some]
    rw [takeWhile_digits hds stops, dropWhile_digits hds stops]
  | none =>
    cases n.power? with
    | none =>
      cases rest with
      | nil => rfl
      | cons c cs => exact scanFraction_of_ne cs (h c rfl).2.1
    | some p =>
      refine scanFraction_of_ne _ ?_
      rcases p.letter_eq with h | h <;> rw [h] <;> decide

theorem isEmpty_digits (n : Numeral) : (n.whole.isEmpty && (n.fraction?.getD []).isEmpty) = false := by
  cases hw : n.whole with
  | cons c cs => rfl
  | nil =>
    have hne : n.fraction?.getD [] ≠ [] := by simpa [hw] using n.digits_ne_nil
    simpa using hne

/-- A written numeral is scanned as the number that it spells, up to where it ends. -/
theorem scan_chars (n : Numeral) {rest : List Char} (h : Ends rest) :
    scan (n.chars ++ rest) = some (n.decimal, rest) := by
  have hstop := n.stops_fraction h
  unfold scan
  rw [n.scanSign_chars]
  dsimp only
  rw [takeWhile_digits n.isDigit_whole hstop, dropWhile_digits n.isDigit_whole hstop,
    n.scanFraction_chars h]
  dsimp only
  rw [n.isEmpty_digits, scanExponent_powerChars _ h]
  rfl

/-- **A written numeral is read as the number that it spells.** -/
theorem ofChars?_chars (n : Numeral) : ofChars? n.chars = some n.decimal := by
  have hscan := n.scan_chars ends_nil
  rw [List.append_nil] at hscan
  rw [ofChars?, hscan]

/-- **A numeral with something else behind it is no numeral.** -/
theorem ofChars?_chars_append (n : Numeral) {c : Char} {cs : List Char} (h : Ends (c :: cs)) :
    ofChars? (n.chars ++ c :: cs) = none := by
  rw [ofChars?, n.scan_chars h]

/-- There is at least one digit. -/
theorem exists_digit (n : Numeral) : ∃ d ∈ n.chars, d.isDigit = true := by
  obtain ⟨d, ds, h⟩ := List.exists_cons_of_ne_nil n.digits_ne_nil
  have hmem : d ∈ n.whole ++ n.fraction?.getD [] := h ▸ List.mem_cons_self
  unfold chars
  rcases List.mem_append.mp hmem with hd | hd
  · exact ⟨d, by simp [hd], n.isDigit_whole d hd⟩
  · refine ⟨d, ?_, n.isDigit_fraction d hd⟩
    cases hf : n.fraction? with
    | none => rw [hf] at hd; cases hd
    | some digits =>
      rw [hf, Option.getD_some] at hd
      simp [hd]

/-- The characters that numerals have. -/
def alphabet : List Char := "0123456789.eE+-".toList

theorem mem_alphabet_of_isDigit {c : Char} (h : c.isDigit = true) : c ∈ alphabet :=
  Text.of_ascii (P := fun c => c.isDigit = true → c ∈ alphabet) (by decide)
    (Text.toNat_lt_of_isDigit h) h

theorem mem_alphabet_of_mem_sign {s : Sign} {c : Char} (h : c ∈ s.chars) : c ∈ alphabet := by
  cases s with
  | none => cases h
  | plus => rw [List.mem_singleton.mp h]; decide
  | minus => rw [List.mem_singleton.mp h]; decide

theorem mem_alphabet_of_mem_power {p : Power} {c : Char} (h : c ∈ p.chars) : c ∈ alphabet := by
  rcases List.mem_cons.mp h with rfl | h
  · rcases p.letter_eq with h | h <;> rw [h] <;> decide
  · rcases List.mem_append.mp h with h | h
    · exact mem_alphabet_of_mem_sign h
    · exact mem_alphabet_of_isDigit (p.isDigit c h)

theorem mem_alphabet {n : Numeral} {c : Char} (h : c ∈ n.chars) : c ∈ alphabet := by
  unfold chars at h
  rcases List.mem_append.mp h with h | h
  · exact mem_alphabet_of_mem_sign h
  rcases List.mem_append.mp h with h | h
  · exact mem_alphabet_of_isDigit (n.isDigit_whole c h)
  have hfraction := n.isDigit_fraction
  rcases List.mem_append.mp h with h | h
  · cases hf : n.fraction? with
    | none => rw [hf] at h; cases h
    | some ds =>
      rw [hf, fractionChars_some] at h
      rw [hf, Option.getD_some] at hfraction
      rcases List.mem_cons.mp h with rfl | h
      · decide
      · exact mem_alphabet_of_isDigit (hfraction c h)
  · cases hp : n.power? with
    | none => rw [hp] at h; cases h
    | some p => rw [hp] at h; exact mem_alphabet_of_mem_power h

end Numeral

theorem exists_fraction (cs : List Char) : ∃ fraction? : Option (List Char),
    cs = fractionChars fraction? ++ (scanFraction cs).2 ∧
      fraction?.getD [] = (scanFraction cs).1 ∧ ∀ c ∈ (scanFraction cs).1, c.isDigit = true := by
  unfold scanFraction
  split
  · next tail =>
    refine ⟨some (tail.takeWhile Char.isDigit), ?_, rfl, isDigit_of_mem_takeWhile⟩
    rw [fractionChars_some, List.cons_append, List.takeWhile_append_dropWhile]
  · exact ⟨none, rfl, rfl, by simp⟩

/-- **What is scanned is a numeral**, and what is left stands behind it. -/
theorem exists_numeral_of_scan {cs rest : List Char} {d : Decimal} (h : scan cs = some (d, rest)) :
    ∃ n : Numeral, cs = n.chars ++ rest ∧ n.decimal = d := by
  unfold scan at h
  dsimp only at h
  split at h
  · cases h
  · next hne =>
    obtain ⟨s, hs, hminus⟩ := exists_sign cs
    have hwhole := List.takeWhile_append_dropWhile (p := Char.isDigit) (l := (scanSign cs).2)
    obtain ⟨fraction?, hfraction, hdigits, hall⟩ :=
      exists_fraction ((scanSign cs).2.dropWhile Char.isDigit)
    obtain ⟨power?, hpower, hexponent⟩ :=
      exists_power (scanFraction ((scanSign cs).2.dropWhile Char.isDigit)).2
    obtain ⟨rfl, rfl⟩ := Prod.mk.inj (Option.some.inj h)
    refine ⟨⟨s, (scanSign cs).2.takeWhile Char.isDigit, fraction?, power?, isDigit_of_mem_takeWhile,
      by rwa [hdigits], ?_⟩, ?_, ?_⟩
    · rw [hdigits]
      intro hnil
      rw [List.append_eq_nil_iff] at hnil
      exact hne (by rw [hnil.1, hnil.2]; rfl)
    · simp only [Numeral.chars, List.append_assoc]
      rw [← hpower, ← hfraction, hwhole, ← hs]
    · simp only [Numeral.decimal, Numeral.digits, hminus, hdigits, hexponent]

/-- **The reader reads the numerals and nothing else.** -/
theorem ofChars?_eq_some_iff {cs : List Char} {d : Decimal} :
    ofChars? cs = some d ↔ ∃ n : Numeral, n.chars = cs ∧ n.decimal = d := by
  refine ⟨fun h => ?_, fun ⟨n, hn, hd⟩ => hn ▸ hd ▸ n.ofChars?_chars⟩
  have hscan : scan cs = some (d, []) := by
    unfold ofChars? at h
    split at h
    · next heq => rw [heq, Option.some.inj h]
    · cases h
  obtain ⟨n, hn, hd⟩ := exists_numeral_of_scan hscan
  exact ⟨n, by rw [hn, List.append_nil], hd⟩

/-- The check agrees with the reader. -/
theorem isSome_ofChars? (cs : List Char) : (ofChars? cs).isSome = isNumeral cs := by
  unfold ofChars? scan isNumeral
  dsimp only
  generalize scanFraction ((scanSign cs).2.dropWhile Char.isDigit) = tail
  cases ((scanSign cs).2.takeWhile Char.isDigit).isEmpty && tail.1.isEmpty with
  | true => rfl
  | false =>
    cases tail.2 with
    | nil => rfl
    | cons e rest =>
      cases letter : decide (e = 'e') || decide (e = 'E') with
      | false => simp [scanExponent, letter]
      | true =>
        cases digits : (scanSign rest).2.takeWhile Char.isDigit with
        | nil => simp [scanExponent, letter, digits]
        | cons d ds =>
          cases behind : (scanSign rest).2.dropWhile Char.isDigit <;>
            simp [scanExponent, letter, digits, behind]

theorem isNumeral_iff {cs : List Char} : isNumeral cs = true ↔ ∃ n : Numeral, n.chars = cs := by
  rw [← isSome_ofChars?, Option.isSome_iff_exists]
  constructor
  · rintro ⟨d, hd⟩
    obtain ⟨n, hn, -⟩ := ofChars?_eq_some_iff.mp hd
    exact ⟨n, hn⟩
  · rintro ⟨n, rfl⟩
    exact ⟨_, n.ofChars?_chars⟩

end ProductSegments.Decimal

import ProductSegments.Proofs.Number.Literal

/-!
# The spellings of a whole number

A whole number may be spelled with decimal digits, or with a marker and the digits of another radix,
in either letter case and with zeros in front.  The decimal spelling is read as the nearest value.
The other spellings are worked out digit by digit, and from 2⁵³ on their last digits are lost.

## Main results

* `Radix.natural?_toDigits` — the digits of a number spell it, in each marked radix.
* `Literal.value_spellings` — what each spelling of a number is read as.
* `Literal.not_spellings_agree` — the spellings of a number are not always read alike.
-/

namespace ProductSegments

open Literal (Base)
open Decimal (Numeral)

/-! ### Digits of a marked radix -/

namespace Radix

variable {b : Base}

theorem toLower_of_le {c : Char} (h : 128 ≤ c.toNat) : c.toLower = c := by
  have hbehind : ¬c.val ≤ 'Z'.val := fun hle =>
    absurd (UInt32.le_iff_toNat_le.mp hle) (Nat.not_le_of_lt (Nat.lt_of_lt_of_le (by decide) h))
  exact dif_neg fun hboth => hbehind hboth.2

/-- Letter case does not count. -/
theorem digit?_toLower (b : Base) (c : Char) : digit? b.radix c.toLower = digit? b.radix c := by
  by_cases hc : c.toNat < 128
  · refine Text.of_ascii (P := fun c => digit? b.radix c.toLower = digit? b.radix c) ?_ hc
    cases b <;> decide +kernel
  · rw [toLower_of_le (Nat.le_of_not_lt hc)]

theorem digit?_digitChar {d : Nat} (h : d < b.radix) : digit? b.radix d.digitChar = some d := by
  have hall : ∀ d < b.radix, digit? b.radix d.digitChar = some d := by cases b <;> decide
  exact hall d h

theorem natural?_of_map_toLower {ds : List Char} :
    natural? b.radix (ds.map Char.toLower) = natural? b.radix ds := by
  have hdigits : ds.mapM (digit? b.radix ∘ Char.toLower) = ds.mapM (digit? b.radix) :=
    congrArg (List.mapM · ds) (funext fun c => digit?_toLower b c)
  rw [natural?, natural?, List.mapM_map, List.isEmpty_map]
  exact congrArg _ (congrArg _ hdigits)

/-- One more digit. -/
theorem natural?_append {ds : List Char} {c : Char} {n d : Nat} (h : natural? b.radix ds = some n)
    (hc : digit? b.radix c = some d) : natural? b.radix (ds ++ [c]) = some (n * b.radix + d) := by
  unfold natural? at h ⊢
  split at h
  · cases h
  · obtain ⟨vs, hvs, rfl⟩ := Option.map_eq_some_iff.mp h
    rw [if_neg (by simp), List.mapM_append, hvs]
    simp [hc, ofDigits, List.foldl_append]

/-- Zeros in front do not count. -/
theorem natural?_cons_zero {ds : List Char} {n : Nat} (h : natural? b.radix ds = some n) :
    natural? b.radix ('0' :: ds) = some n := by
  have hzero : digit? b.radix '0' = some 0 := by cases b <;> decide
  unfold natural? at h ⊢
  split at h
  · cases h
  · obtain ⟨vs, hvs, rfl⟩ := Option.map_eq_some_iff.mp h
    rw [if_neg (by simp), List.mapM_cons, hzero, hvs]
    simp [ofDigits]

theorem natural?_zeros_append {ds : List Char} {n : Nat} (h : natural? b.radix ds = some n)
    (zeros : Nat) : natural? b.radix (List.replicate zeros '0' ++ ds) = some n := by
  induction zeros with
  | zero => exact h
  | succ zeros ih => exact natural?_cons_zero ih

/-- **The digits of a number spell it.** -/
theorem natural?_toDigits (b : Base) (n : Nat) :
    natural? b.radix (Nat.toDigits b.radix n) = some n := by
  have hradix : 1 < b.radix := by cases b <;> decide
  induction n using Nat.strongRecOn with
  | ind n ih =>
    rcases Nat.lt_or_ge n b.radix with small | large
    · rw [Nat.toDigits_of_lt_base small]
      have := digit?_digitChar small
      simp [natural?, this, ofDigits]
    · have hlt : n / b.radix < n := Nat.div_lt_self (by omega) hradix
      rw [Nat.toDigits_of_base_le hradix large,
        natural?_append (ih _ hlt) (digit?_digitChar (Nat.mod_lt n (by omega))),
        Nat.mul_comm, Nat.div_add_mod]

end Radix

namespace Literal

open Binary64 (ofNat kept overflow IsRounded unit)

/-! ### Decimal digits -/

theorem isDigit_of_mem_decimal {n zeros : Nat} :
    ∀ c ∈ List.replicate zeros '0' ++ Nat.toDigits 10 n, c.isDigit = true :=
  List.forall_mem_append.mpr ⟨Decimal.isDigit_of_mem_zeros, Decimal.isDigit_of_mem_toDigits⟩

/-- The decimal digits of a number as a numeral. -/
def wholeNumeral (n zeros : Nat) : Numeral where
  sign := .none
  whole := List.replicate zeros '0' ++ Nat.toDigits 10 n
  fraction? := none
  power? := none
  isDigit_whole := isDigit_of_mem_decimal
  isDigit_fraction := by simp
  digits_ne_nil := by simp [Nat.toDigits_ne_nil]

theorem chars_wholeNumeral (n zeros : Nat) :
    (wholeNumeral n zeros).chars = List.replicate zeros '0' ++ Nat.toDigits 10 n := by
  simp [wholeNumeral, Numeral.chars, Decimal.Sign.chars]

theorem decimal_wholeNumeral (n zeros : Nat) : (wholeNumeral n zeros).decimal = ⟨false, n, 0⟩ := by
  have hdigits : Decimal.ofDigits (List.replicate zeros '0' ++ Nat.toDigits 10 n) = n := by
    rw [Decimal.ofDigits_zeros_append, Decimal.ofDigits_toDigits]
  simp [wholeNumeral, Numeral.decimal, Numeral.digits, hdigits, Decimal.Sign.isMinus,
    Decimal.powerExponent]

/-- **Decimal digits are read as the value nearest to their number.** -/
theorem value_decimal (n zeros : Nat) :
    value (List.replicate zeros '0' ++ Nat.toDigits 10 n) = ofNat n := by
  have hone : (tenPow 0) = 1 := rfl
  rw [← chars_wholeNumeral, value_numeral, decimal_wholeNumeral, Decimal.toBinary64_eq,
    Decimal.numerator, Decimal.denominator, Int.toNat_zero, Int.neg_zero, Int.toNat_zero, hone,
    Nat.mul_one]
  rw [ofNat]

/-! ### Digits of a marked radix -/

theorem mem_digits_of_natural? {b : Base} {ds : List Char} {n : Nat}
    (h : Radix.natural? b.radix ds = some n) : ∀ d ∈ ds, d ∈ b.digits := by
  unfold Radix.natural? at h
  split at h
  · cases h
  · obtain ⟨vs, hvs, -⟩ := Option.map_eq_some_iff.mp h
    exact fun d hd => (isSome_digit?_iff b d).mp ((mem_of_mapM_eq_some hvs).1 d hd)

theorem unbroken_prefixed {b : Base} {letter : Char} {ds : List Char} {n : Nat}
    (hletter : letter ∈ b.letters) (h : Radix.natural? b.radix ds = some n) :
    Text.Unbroken ('0' :: letter :: ds) := by
  have hletters : ∀ c ∈ b.letters, Text.isBlank c = false := by
    cases b <;> exact Text.forall_mem (by decide)
  have hdigits : ∀ c ∈ b.digits, Text.isBlank c = false := by
    cases b <;> exact Text.forall_mem (by decide)
  intro c hc
  rcases List.mem_cons.mp hc with rfl | hc
  · decide
  · rcases List.mem_cons.mp hc with rfl | hc
    · exact hletters c hletter
    · exact hdigits c (mem_digits_of_natural? h c hc)

/-- **Digits behind a marker are read as what is kept of their number.** -/
theorem value_prefixed {b : Base} {letter : Char} {ds : List Char} {n : Nat}
    (hletter : letter ∈ b.letters) (h : Radix.natural? b.radix ds = some n) :
    value ('0' :: letter :: ds) = ofNat (kept b.radix n) := by
  rw [value, Text.trim_eq_self (unbroken_prefixed hletter h), ofTrimmed_prefixed hletter h]

/-- The text spells a number with a marker, its digits in either letter case and with zeros in
front. -/
inductive Spells (b : Base) (n : Nat) : List Char → Prop where
  | digits {letter : Char} (zeros : Nat) {ds : List Char} (hletter : letter ∈ b.letters)
      (hds : ds.map Char.toLower = Nat.toDigits b.radix n) :
      Spells b n ('0' :: letter :: (List.replicate zeros '0' ++ ds))

/-- Neither the letter case nor zeros in front count. -/
theorem Spells.exists_digits {b : Base} {n : Nat} {text : List Char} (h : Spells b n text) :
    ∃ letter ds, letter ∈ b.letters ∧ Radix.natural? b.radix ds = some n ∧
      text = '0' :: letter :: ds := by
  obtain ⟨zeros, hletter, hds⟩ := h
  have hn := Radix.natural?_toDigits b n
  rw [← hds, Radix.natural?_of_map_toLower] at hn
  exact ⟨_, _, hletter, Radix.natural?_zeros_append hn zeros, rfl⟩

theorem Spells.value_eq {b : Base} {n : Nat} {text : List Char} (h : Spells b n text) :
    value text = ofNat (kept b.radix n) := by
  obtain ⟨letter, ds, hletter, hn, rfl⟩ := h.exists_digits
  exact value_prefixed hletter hn

/-- **The spellings of a whole number.**  Its decimal digits are read as the value nearest to it, an
infinity on overflow, whatever zeros stand in front.  With a marker it is read as the value nearest
to what is kept of it: the number itself as long as all digits but the last stay below 2⁵³, and from
there on with zeros for the digits that are lost.  Overflow is the same in all spellings. -/
theorem value_spellings (n : Nat) :
    IsRounded false (n * unit) 1 (ofNat n) ∧ (ofNat n = .infinity false ↔ overflow ≤ n) ∧
    (∀ zeros, value (List.replicate zeros '0' ++ Nat.toDigits 10 n) = ofNat n) ∧
    ∀ (b : Base) (text : List Char), Spells b n text →
      value text = ofNat (kept b.radix n) ∧
      (n / b.radix < twoPow 53 → value text = ofNat n) ∧
      (value text = .infinity false ↔ overflow ≤ n) := by
  refine ⟨Binary64.isRounded_round false _ Nat.one_pos, Binary64.ofNat_eq_infinity_iff,
    value_decimal n, fun b text h => ⟨h.value_eq, fun hsmall => ?_, ?_⟩⟩
  · rw [h.value_eq, Binary64.kept_of_lt hsmall]
  · rw [h.value_eq, Base.radix, Binary64.ofNat_kept_eq_infinity_iff, Binary64.ofNat_eq_infinity_iff]

/-- **The spellings of a number are not always read alike**: behind fifteen hexadecimal digits of
2⁵⁷ + 17 the last bit is lost, and with it the way past the middle between two values. -/
theorem not_spellings_agree : ¬∀ (n : Nat) (b : Base) (text : List Char), Spells b n text →
    value text = value (Nat.toDigits 10 n) := by
  intro h
  have hspells : Spells .hexadecimal 144115188075855889 "0x200000000000011".toList :=
    @Spells.digits .hexadecimal _ 'x' 0 "200000000000011".toList (by decide) (by decide +kernel)
  have hne : value "0x200000000000011".toList ≠ value (Nat.toDigits 10 144115188075855889) := by
    decide +kernel
  exact hne (h _ _ _ hspells)

end Literal

end ProductSegments

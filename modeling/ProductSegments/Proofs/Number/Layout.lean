import ProductSegments.Number.Layout
import ProductSegments.Proofs.Number.Numeral
import ProductSegments.Proofs.Number.Shortest

/-!
# Layouts write numerals

Whatever the layout, a finite number is written as a numeral, and the number that this numeral spells
rounds to the one that was written.

## Main definitions

* `Layout.positional` — digits with the point in place, as a numeral.
* `Layout.power` — the exponent behind scientific digits, as the power of a numeral.
* `Digits.padded` — what digits spell with zeros behind them; `Digits.Pads` is how many there may be.

## Main results

* `Layout.exists_numeral_placed`, `Layout.exists_numeral_scaled` — digits with the point in place and
  digits with an exponent are numerals, and spell what the digits spell.
* `Layout.exists_numeral_padded` — every layout writes a number by its shortest digits, with a few
  zeros behind them.
* `Layout.exists_numeral_chars` — every layout writes every finite number as a plain numeral that
  spells it.
* `Layout.inPlace_rule_iff` — which numbers are written in place in rules.
-/

namespace ProductSegments

attribute [local irreducible] Binary64.limit Binary64.unit

open Decimal (Numeral Sign Power)

/-- Digits that read back to a magnitude spell the number with that magnitude, in either sign. -/
theorem Shortest.Spells.toBinary64_eq {quanta : Nat} {d : Digits} (h : Shortest.Spells quanta d)
    (negative : Bool) (exact : Binary64.Representable quanta) :
    (d.decimal negative).toBinary64 = .finite negative quanta exact := by
  rw [Decimal.toBinary64_eq]
  exact Binary64.round_of_nearest_eq h.nearest_eq exact

/-- The digits of a magnitude that is not zero are not all zero. -/
theorem Shortest.Spells.value_ne_zero {quanta : Nat} {d : Digits} (h : Shortest.Spells quanta d)
    (hq : quanta ≠ 0) : d.value ≠ 0 := by
  intro zero
  refine hq ?_
  rw [← h.nearest_eq, Decimal.numerator, Digits.decimal, zero, Nat.zero_mul, Nat.zero_mul]
  exact Binary64.nearest_zero _

/-! ### Zeros behind the digits -/

/-- What digits spell with zeros behind them. -/
def Digits.padded (d : Digits) (negative : Bool) (zeros : Nat) : Decimal :=
  ⟨negative, d.value * tenPow zeros, d.exponent - d.count - zeros⟩

/-- So many zeros go up to one place behind the point at most. -/
def Digits.Pads (d : Digits) (zeros : Nat) : Prop :=
  zeros = 0 ∨ (zeros : Int) ≤ d.exponent - d.count + 1

namespace Digits

variable {d : Digits} {zeros : Nat}

theorem padded_zero (d : Digits) (negative : Bool) :
    d.padded negative 0 = d.decimal negative := by
  rw [padded, tenPow_zero, Nat.mul_one, Int.natCast_zero, Int.sub_zero]
  rfl

theorem toBinary64_padded (d : Digits) (negative : Bool) (zeros : Nat) :
    (d.padded negative zeros).toBinary64 = (d.decimal negative).toBinary64 := by
  rw [padded, Decimal.toBinary64_mul_tenPow, Int.sub_add_cancel]
  rfl

/-- There are no more digits with the zeros than places before the point, and one behind it. -/
theorem Pads.digits_lt (pads : d.Pads zeros) (negative : Bool) (value : d.value < tenPow d.count)
    {m : Nat} (count : d.count ≤ m) (exponent : d.exponent < m) :
    (d.padded negative zeros).digits < tenPow m :=
  calc d.value * tenPow zeros < tenPow d.count * tenPow zeros :=
        (Nat.mul_lt_mul_right (tenPow_pos zeros)).mpr value
    _ = tenPow (d.count + zeros) := (tenPow_add _ _).symm
    _ ≤ tenPow m := tenPow_le_tenPow (by rcases pads with rfl | pads <;> omega)

/-- The power of ten is no greater than that of the digits alone. -/
theorem Pads.natAbs_exponent_le (pads : d.Pads zeros) (negative : Bool) {m : Nat} (pos : 0 < m)
    (lower : (d.count : Int) ≤ d.exponent + m) (upper : d.exponent ≤ m) :
    (d.padded negative zeros).exponent.natAbs ≤ m := by
  show (d.exponent - d.count - zeros).natAbs ≤ m
  rcases pads with rfl | pads <;> omega

end Digits

namespace Layout

theorem sign_eq (negative : Bool) : chars.sign negative = (Sign.ofNegative negative).chars := by
  cases negative <;> rfl

/-! ### The point in place -/

/-- Digits before and behind the point. -/
def positional (negative : Bool) (whole : List Char) (fraction? : Option (List Char))
    (hwhole : ∀ c ∈ whole, c.isDigit = true) (hfraction : ∀ c ∈ fraction?.getD [], c.isDigit = true)
    (hne : whole ++ fraction?.getD [] ≠ []) : Numeral :=
  ⟨.ofNegative negative, whole, fraction?, none, hwhole, hfraction, hne⟩

section Positional

variable {negative : Bool} {whole : List Char} {fraction? : Option (List Char)}
  (hwhole : ∀ c ∈ whole, c.isDigit = true) (hfraction : ∀ c ∈ fraction?.getD [], c.isDigit = true)
  (hne : whole ++ fraction?.getD [] ≠ [])

theorem chars_positional : (positional negative whole fraction? hwhole hfraction hne).chars =
    chars.sign negative ++ (whole ++ Decimal.fractionChars fraction?) := by
  simp [positional, Numeral.chars, sign_eq]

theorem decimal_positional : (positional negative whole fraction? hwhole hfraction hne).decimal =
    ⟨negative, Decimal.ofDigits (whole ++ fraction?.getD []), -(fraction?.getD []).length⟩ := by
  simp [positional, Numeral.decimal, Numeral.digits, Decimal.powerExponent]

theorem isPlain_positional (whole_ne_nil : whole ≠ [])
    (leading : whole.head? = some '0' → whole.length = 1) (fraction : fraction? ≠ some []) :
    (positional negative whole fraction? hwhole hfraction hne).IsPlain :=
  ⟨by cases negative <;> exact Sign.noConfusion, whole_ne_nil, leading, fraction⟩

end Positional

section Placed

variable {d : Digits}

/-- Below one there are zeros between the point and the digits. -/
theorem exists_numeral_of_small (hlen : (Nat.toDigits 10 d.value).length = d.count)
    (h : d.exponent ≤ 0) (negative : Bool) : ∃ n : Numeral, n.IsPlain ∧ n.chars =
      chars.sign negative ++
        '0' :: '.' :: (List.replicate (-d.exponent).toNat '0' ++ Nat.toDigits 10 d.value) ∧
      n.decimal = d.decimal negative := by
  have hfraction : ∀ c ∈ List.replicate (-d.exponent).toNat '0' ++ Nat.toDigits 10 d.value,
      c.isDigit = true :=
    List.forall_mem_append.mpr ⟨Decimal.isDigit_of_mem_zeros, Decimal.isDigit_of_mem_toDigits⟩
  refine ⟨positional negative ['0'] (some _) (Text.forall_mem (by decide)) hfraction (by simp),
    isPlain_positional _ _ _ (by simp) (fun _ => rfl) (by simp [Nat.toDigits_ne_nil]), ?_, ?_⟩
  · rw [chars_positional]
    rfl
  · have hvalue :=
      calc Decimal.ofDigits (['0'] ++ (List.replicate (-d.exponent).toNat '0' ++
            Nat.toDigits 10 d.value))
          = Decimal.ofDigits (List.replicate (-d.exponent).toNat '0' ++ Nat.toDigits 10 d.value) :=
            Decimal.ofDigits_zeros_append 1 _
        _ = Decimal.ofDigits (Nat.toDigits 10 d.value) := Decimal.ofDigits_zeros_append _ _
        _ = d.value := Decimal.ofDigits_toDigits _
    rw [decimal_positional, Option.getD_some, hvalue, Digits.decimal, List.length_append,
      List.length_replicate, hlen]
    congr 1
    omega

/-- From the last digit on there are zeros before the point. -/
theorem exists_numeral_of_large (keepsFraction : Bool) (hvalue : d.value ≠ 0)
    (h : d.count ≤ d.exponent) (negative : Bool) :
    ∃ (n : Numeral) (zeros : Nat), n.IsPlain ∧ n.chars = chars.sign negative ++
      (Nat.toDigits 10 d.value ++ List.replicate (d.exponent - d.count).toNat '0' ++
        if keepsFraction then ['.', '0'] else []) ∧
      n.decimal = d.padded negative zeros ∧ d.Pads zeros := by
  have hwhole : ∀ c ∈ Nat.toDigits 10 d.value ++ List.replicate (d.exponent - d.count).toNat '0',
      c.isDigit = true :=
    List.forall_mem_append.mpr ⟨Decimal.isDigit_of_mem_toDigits, Decimal.isDigit_of_mem_zeros⟩
  have leading : (Nat.toDigits 10 d.value ++
      List.replicate (d.exponent - d.count).toNat '0').head? ≠ some '0' := by
    rw [Decimal.head?_toDigits_append]
    exact Decimal.head?_toDigits_ne hvalue
  have spells : ∀ k j : Nat, (k : Int) = d.exponent - d.count + j →
      Decimal.mk negative (Decimal.ofDigits (Nat.toDigits 10 d.value ++ List.replicate k '0'))
        (-(j : Int)) = d.padded negative k := by
    intro k j hk
    rw [Decimal.ofDigits_append_zeros, Decimal.ofDigits_toDigits, Digits.padded]
    congr 1
    omega
  cases keepsFraction with
  | false =>
    refine ⟨positional negative _ none hwhole (by simp) (by simp [Nat.toDigits_ne_nil]),
      (d.exponent - d.count).toNat,
      isPlain_positional _ _ _ (by simp [Nat.toDigits_ne_nil]) (absurd · leading) (by simp), ?_, ?_, ?_⟩
    · rw [chars_positional]
      rfl
    · rw [decimal_positional, Option.getD_none, List.append_nil]
      exact spells _ 0 (by omega)
    · exact .inr (by omega)
  | true =>
    refine ⟨positional negative _ (some ['0']) hwhole (by simp) (by simp),
      (d.exponent - d.count).toNat + 1,
      isPlain_positional _ _ _ (by simp [Nat.toDigits_ne_nil]) (absurd · leading) (by simp), ?_, ?_, ?_⟩
    · rw [chars_positional]
      rfl
    · rw [decimal_positional, Option.getD_some, List.append_assoc, ← List.replicate_succ']
      exact spells _ 1 (by omega)
    · exact .inr (by omega)

/-- In between the point stands among the digits. -/
theorem exists_numeral_of_middle (hlen : (Nat.toDigits 10 d.value).length = d.count)
    (hvalue : d.value ≠ 0) (hpos : 0 < d.exponent) (h : d.exponent < d.count) (negative : Bool) :
    ∃ n : Numeral, n.IsPlain ∧
      n.chars = chars.sign negative ++ ((Nat.toDigits 10 d.value).take d.exponent.toNat ++
        '.' :: (Nat.toDigits 10 d.value).drop d.exponent.toNat) ∧
      n.decimal = d.decimal negative := by
  have hdigits := Decimal.isDigit_of_mem_toDigits (n := d.value)
  refine ⟨positional negative ((Nat.toDigits 10 d.value).take d.exponent.toNat)
    (some ((Nat.toDigits 10 d.value).drop d.exponent.toNat))
    (fun c hc => hdigits c (List.mem_of_mem_take hc)) (fun c hc => hdigits c (List.mem_of_mem_drop hc))
    ?_, isPlain_positional _ _ _ ?_ ?_ ?_, ?_, ?_⟩
  · rw [Option.getD_some, List.take_append_drop]
    exact Nat.toDigits_ne_nil
  · exact List.ne_nil_of_length_pos (by rw [List.length_take]; omega)
  · rw [List.head?_take, if_neg (by omega)]
    exact (absurd · (Decimal.head?_toDigits_ne hvalue))
  · intro none
    have length := congrArg List.length (Option.some.inj none)
    rw [List.length_drop, List.length_nil] at length
    omega
  · rw [chars_positional]
    rfl
  · rw [decimal_positional, Option.getD_some, List.take_append_drop, Decimal.ofDigits_toDigits,
      Digits.decimal, List.length_drop, hlen]
    congr 1
    omega

/-- **Digits with the point in place are a numeral that spells what the digits spell.** -/
theorem exists_numeral_placed (l : Layout) (hlen : (Nat.toDigits 10 d.value).length = d.count)
    (hvalue : d.value ≠ 0) (negative : Bool) : ∃ (n : Numeral) (zeros : Nat), n.IsPlain ∧
      n.chars = chars.sign negative ++ l.placed d ∧
      n.decimal = d.padded negative zeros ∧ d.Pads zeros := by
  unfold placed
  dsimp only
  split
  · next hsmall =>
    obtain ⟨n, plain, hchars, hdecimal⟩ := exists_numeral_of_small hlen hsmall negative
    exact ⟨n, 0, plain, hchars, hdecimal.trans (d.padded_zero negative).symm, .inl rfl⟩
  · next hpos =>
    split
    · next hlarge => exact exists_numeral_of_large l.keepsFraction hvalue hlarge negative
    · next hmiddle =>
      obtain ⟨n, plain, hchars, hdecimal⟩ :=
        exists_numeral_of_middle hlen hvalue (by omega) (by omega) negative
      exact ⟨n, 0, plain, hchars, hdecimal.trans (d.padded_zero negative).symm, .inl rfl⟩

/-! ### An exponent -/

/-- The power of ten with an exponent, its sign always written. -/
def power (e : Int) : Power where
  letter := 'e'
  sign := if e < 0 then .minus else .plus
  digits := Nat.toDigits 10 e.natAbs
  letter_eq := .inl rfl
  isDigit := Decimal.isDigit_of_mem_toDigits
  digits_ne_nil := Nat.toDigits_ne_nil

theorem chars_power (e : Int) :
    (power e).chars = 'e' :: (if e < 0 then '-' else '+') :: Nat.toDigits 10 e.natAbs := by
  by_cases h : e < 0 <;> simp [power, Power.chars, Sign.chars, h]

theorem exponent_power (e : Int) : (power e).exponent = e := by
  unfold Power.exponent power
  dsimp only
  rw [Decimal.ofDigits_toDigits]
  by_cases h : e < 0
  · rw [if_pos h]
    change -(e.natAbs : Int) = e
    omega
  · rw [if_neg h]
    change (e.natAbs : Int) = e
    omega

/-- One digit before the point and the others, if there are any, behind it. -/
theorem exists_numeral_scientific (negative : Bool) (first : Char) (others : List Char) (e : Int)
    (hdigits : ∀ c ∈ first :: others, c.isDigit = true) : ∃ n : Numeral, n.IsPlain ∧
      n.chars = chars.sign negative ++ ((match others with
        | second :: tail => first :: '.' :: second :: tail
        | [] => [first]) ++ (power e).chars) ∧
      n.decimal = ⟨negative, Decimal.ofDigits (first :: others), e - others.length⟩ := by
  have hfirst : ∀ c ∈ [first], c.isDigit = true := fun c hc =>
    hdigits c (List.mem_singleton.mp hc ▸ List.mem_cons_self)
  have sign : Sign.ofNegative negative ≠ .plus := by
    cases negative <;> exact Sign.noConfusion
  cases others with
  | nil =>
    refine ⟨⟨.ofNegative negative, [first], none, some (power e), hfirst, by simp, by simp⟩,
      ⟨sign, by simp, fun _ => rfl, by simp⟩, ?_, ?_⟩
    · simp [Numeral.chars, sign_eq]
    · simp [Numeral.decimal, Numeral.digits, Decimal.powerExponent, exponent_power]
  | cons second tail =>
    refine ⟨⟨.ofNegative negative, [first], some (second :: tail), some (power e), hfirst,
      fun c hc => hdigits c (List.mem_cons_of_mem _ hc), by simp⟩,
      ⟨sign, by simp, fun _ => rfl, by simp⟩, ?_, ?_⟩
    · simp [Numeral.chars, sign_eq]
    · simp [Numeral.decimal, Numeral.digits, Decimal.powerExponent, exponent_power]

/-- **Digits with an exponent are a numeral that spells what the digits spell.** -/
theorem exists_numeral_scaled (hlen : (Nat.toDigits 10 d.value).length = d.count) (negative : Bool) :
    ∃ n : Numeral, n.IsPlain ∧ n.chars = chars.sign negative ++ scaled d ∧
      n.decimal = d.decimal negative := by
  have hdigits := Decimal.isDigit_of_mem_toDigits (n := d.value)
  have hvalue := Decimal.ofDigits_toDigits d.value
  unfold scaled
  dsimp only
  cases hds : Nat.toDigits 10 d.value with
  | nil => exact absurd hds Nat.toDigits_ne_nil
  | cons first others =>
    rw [hds] at hdigits hlen hvalue
    obtain ⟨n, plain, hchars, hdecimal⟩ :=
      exists_numeral_scientific negative first others (d.exponent - 1) hdigits
    refine ⟨n, plain, ?_, ?_⟩
    · rw [hchars, chars_power]
      cases others <;> rfl
    · rw [hdecimal, hvalue, Digits.decimal, ← hlen, List.length_cons]
      congr 1
      omega

end Placed

/-! ### Finite numbers -/

/-- Zero with or without a fraction. -/
theorem exists_numeral_zero (keepsFraction negative : Bool)
    (exact : Binary64.Representable 0) : ∃ n : Numeral, n.IsPlain ∧
      n.chars = chars.sign negative ++ '0' :: (if keepsFraction then ['.', '0'] else []) ∧
      n.decimal.toBinary64 = .finite negative 0 exact := by
  have hzero : ∀ e : Int, (Decimal.mk negative 0 e).toBinary64 = .finite negative 0 exact := fun e =>
    Binary64.round_of_nearest_eq (Binary64.nearest_zero 1) exact
  cases keepsFraction with
  | false =>
    refine ⟨positional negative ['0'] none (Text.forall_mem (by decide)) (by simp) (by simp),
      isPlain_positional _ _ _ (by simp) (fun _ => rfl) (by simp), ?_, ?_⟩
    · rw [chars_positional]
      rfl
    · rw [decimal_positional]
      exact hzero _
  | true =>
    refine ⟨positional negative ['0'] (some ['0']) (Text.forall_mem (by decide)) (by simp) (by simp),
      isPlain_positional _ _ _ (by simp) (fun _ => rfl) (by simp), ?_, ?_⟩
    · rw [chars_positional]
      rfl
    · rw [decimal_positional]
      exact hzero _

/-- **Every layout writes a number by its shortest digits**, with a few zeros behind them. -/
theorem exists_numeral_padded (l : Layout) (negative : Bool) {quanta : Nat}
    (exact : Binary64.Representable quanta) (h : quanta ≠ 0) : ∃ (n : Numeral) (zeros : Nat),
      n.IsPlain ∧ n.chars = l.chars (.finite negative quanta exact) ∧
      n.decimal = (Shortest.ofQuanta l.tie quanta).padded negative zeros ∧
      (Shortest.ofQuanta l.tie quanta).Pads zeros := by
  have hspells := Shortest.spells_ofQuanta l.tie exact.onGrid h
  have hchars : l.chars (.finite negative quanta exact) = chars.sign negative ++
      if l.inPlace (Shortest.ofQuanta l.tie quanta).exponent then
        l.placed (Shortest.ofQuanta l.tie quanta)
      else scaled (Shortest.ofQuanta l.tie quanta) := by
    cases quanta with
    | zero => exact absurd rfl h
    | succ quanta => rfl
  rw [hchars]
  split
  · exact exists_numeral_placed l hspells.length (hspells.value_ne_zero h) negative
  · obtain ⟨n, plain, hn, hdecimal⟩ := exists_numeral_scaled hspells.length negative
    exact ⟨n, 0, plain, hn, hdecimal.trans (Digits.padded_zero _ negative).symm, .inl rfl⟩

/-- **Every layout writes every finite number as a plain numeral that spells it**; zero may lose its
sign. -/
theorem exists_numeral_chars (l : Layout) (negative : Bool) (quanta : Nat)
    (exact : Binary64.Representable quanta) : ∃ n : Numeral, n.IsPlain ∧
      n.chars = l.chars (.finite negative quanta exact) ∧
      n.decimal.toBinary64
        = .finite (if quanta = 0 then negative && l.keepsZeroSign else negative) quanta exact := by
  by_cases h : quanta = 0
  · subst h
    exact exists_numeral_zero l.keepsFraction (negative && l.keepsZeroSign) exact
  · have hspells := Shortest.spells_ofQuanta l.tie exact.onGrid h
    obtain ⟨n, zeros, plain, hchars, hdecimal, -⟩ := l.exists_numeral_padded negative exact h
    refine ⟨n, plain, hchars, ?_⟩
    rw [hdecimal, Digits.toBinary64_padded, hspells.toBinary64_eq negative exact, if_neg h]

/-! ### The layout of rule values -/

/-- **In rules the point is in place from 10⁻⁶ up to below 10²¹**, taken as the values nearest to
these two. -/
theorem inPlace_rule_iff {quanta : Nat} (hq : Binary64.OnGrid quanta) (h : quanta ≠ 0) :
    rule.inPlace (Shortest.ofQuanta rule.tie quanta).exponent = true ↔
      Shortest.power (-6) ≤ quanta ∧ quanta < Shortest.power 21 := by
  have hlow : -6 < (Shortest.ofQuanta rule.tie quanta).exponent ↔ Shortest.power (-6) ≤ quanta :=
    Shortest.lt_exponent_iff hq h (by decide +kernel)
  have hhigh : 21 < (Shortest.ofQuanta rule.tie quanta).exponent ↔ Shortest.power 21 ≤ quanta :=
    Shortest.lt_exponent_iff hq h (by decide +kernel)
  rw [← hlow, ← Nat.not_le, ← hhigh]
  generalize (Shortest.ofQuanta rule.tie quanta).exponent = e
  simp only [inPlace, rule, Option.all_some, Bool.and_eq_true, decide_eq_true_eq]
  omega

end Layout

end ProductSegments

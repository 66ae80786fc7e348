import ProductSegments.Proofs.Json.Locality
import ProductSegments.Proofs.Number.Fewest
import ProductSegments.Proofs.Number.Layout

/-!
# Numbers that survive a document

Numbers of documents are read in steps, each of which is rounded, so that a number may come back from
its written form as a neighbour of itself.  A number with few digits and a small power of ten is
written by just these, and all steps but the last are exact: it comes back.

## Main definitions

* `Json.Survives` — a number is read back from its own written form.

## Main results

* `Json.document_number_iff` — what number a plain numeral holds.
* `Json.readsBack_number` — **a number that survives on its own survives in every document**.
* `Json.survives_of_few` — numbers of few digits survive.
* `Json.survives_hundredths` — **so do all amounts in whole cents** below ten million millions.
-/

namespace ProductSegments.Json

attribute [local irreducible] Binary64.limit Binary64.unit

/-- The number is read back from its own written form. -/
def Survives (x : Binary64) : Prop :=
  document number (Utf8.encode (Writer.number x)) = .ok x

instance (x : Binary64) : Decidable (Survives x) :=
  inferInstanceAs (Decidable (document number _ = .ok x))

/-! ### What a numeral holds -/

section Numeral

variable {n : Decimal.Numeral} {x : Binary64}

/-- A plain numeral is read as a whole. -/
theorem eq_of_reads_scalar (plain : n.IsPlain) {found : Scalar} {rest : List UInt8}
    (read : Reads scalar (n.chars.map byte) found rest) :
    found = .number (.of n) ∧ (Numeral.of n).value.isFinite = true := by
  obtain ⟨b, behind, written, announces⟩ := exists_byte_of_isPlain plain
  obtain ⟨b', behind', kind, first, announces', follows⟩ := reads_scalar_iff.mp read
  have token := reads_token (Kind.of_ofByte? announces).1 behind
  rw [written] at first
  obtain ⟨rfl, rfl⟩ := reads_unique first token
  obtain rfl : Kind.number = kind := Option.some.inj (announces.symm.trans announces')
  obtain ⟨m, number, rfl⟩ := follows
  obtain ⟨numeral, finite⟩ := number?_eq_some_iff.mp number
  have parts := numeral?_of_isPlain plain ended_nil
  rw [List.append_nil, written, numeral] at parts
  obtain ⟨rfl, -⟩ := Prod.mk.inj (Option.some.inj parts)
  exact ⟨rfl, finite⟩

/-- **What number a plain numeral holds.** -/
theorem document_number_iff (plain : n.IsPlain) :
    document number (Utf8.encode n.chars) = .ok x ↔
      (Numeral.of n).value = x ∧ x.isFinite = true := by
  constructor
  · intro holds
    rw [encode_numeral] at holds
    obtain ⟨gap, -, read⟩ := document_eq_ok_iff.mp holds
    obtain ⟨found, read, selected⟩ := reads_expect_iff.mp read
    obtain ⟨rfl, finite⟩ := eq_of_reads_scalar plain read
    obtain rfl := Except.ok.inj selected
    exact ⟨rfl, finite⟩
  · rintro ⟨rfl, finite⟩
    have read : ReadsBack .number number n.chars (Numeral.of n).value :=
      readsBack_of_isPlain plain finite rfl
    exact read.document

end Numeral

/-! ### Numbers in documents -/

section Survives

variable {x : Binary64}

theorem chars_number {negative : Bool} {quanta : Nat} (exact : Binary64.Representable quanta) :
    Writer.number (.finite negative quanta exact) = Layout.json.chars (.finite negative quanta exact) :=
  if_pos rfl

/-- Only finite numbers survive. -/
theorem Survives.isFinite (h : Survives x) : x.isFinite = true :=
  yields_number.document h

/-- **A number that survives on its own survives in every document.** -/
theorem readsBack_number (h : Survives x) : ReadsBack .number number (Writer.number x) x := by
  have finite := h.isFinite
  cases x with
  | nan => cases finite
  | infinity => cases finite
  | finite negative quanta exact =>
    obtain ⟨n, plain, chars, -⟩ := Layout.exists_numeral_chars .json negative quanta exact
    rw [Survives, chars_number, ← chars] at h
    obtain ⟨value, -⟩ := (document_number_iff plain).mp h
    rw [chars_number, ← chars]
    exact readsBack_of_isPlain plain (value ▸ finite) (congrArg Except.ok value)

end Survives

/-! ### Few digits -/

open Shortest (ofQuanta)

/-- Zero survives, with either sign. -/
theorem survives_zero (negative : Bool) (exact : Binary64.Representable 0) :
    Survives (.finite negative 0 exact) := by
  cases negative with
  | true => exact (by decide +kernel : Survives (-.zero))
  | false => exact (by decide +kernel : Survives .zero)

section Few

variable {negative : Bool} {quanta : Nat} {exact : Binary64.Representable quanta}

/-- **Numbers of few digits survive**, from 10⁻⁸ up to below 10¹⁴. -/
theorem survives_of_few (h : quanta ≠ 0) (few : (ofQuanta .even quanta).count ≤ 15)
    (lower : -7 ≤ (ofQuanta .even quanta).exponent)
    (upper : (ofQuanta .even quanta).exponent ≤ 14) : Survives (.finite negative quanta exact) := by
  obtain ⟨n, zeros, plain, chars, decimal, pads⟩ :=
    Layout.exists_numeral_padded .json negative exact h
  rw [show Layout.json.tie = .even from rfl] at decimal pads
  have spells := Shortest.spells_ofQuanta .even exact.onGrid h
  have spelled : n.decimal.toBinary64 = .finite negative quanta exact := by
    rw [decimal, Digits.toBinary64_padded]
    exact spells.toBinary64_eq negative exact
  obtain ⟨-, -, below⟩ := spells.bounds h
  -- the zeros go up to one place behind the point, so that there are 15 digits at most
  have digits : n.decimal.digits < tenPow 15 :=
    decimal ▸ pads.digits_lt negative below few (Int.lt_of_le_of_lt upper (by decide))
  have near : n.decimal.exponent.natAbs ≤ 22 :=
    decimal ▸ pads.natAbs_exponent_le negative (by decide) (by omega) (by omega)
  have fits : (Numeral.of n).decimal.digits < UInt64.size := by
    rw [Numeral.decimal_of]
    exact Nat.lt_trans digits (by decide)
  have value : (Numeral.of n).value = .finite negative quanta exact := by
    rw [Numeral.value_eq fits, Numeral.decimal_of,
      Decimal.inSteps_eq_toBinary64 (Nat.le_of_lt (Nat.lt_trans digits (by decide))) near, spelled]
  rw [Survives, chars_number, ← chars]
  exact (document_number_iff plain).mpr ⟨value, rfl⟩

/-- **A number that 15 digits spell survives**, from 10⁻⁸ up to below 10¹⁴. -/
theorem survives_of_spells {d : Digits} (spells : Shortest.Spells quanta d) (few : d.count ≤ 15)
    (lower : Shortest.power (-8) ≤ quanta) (upper : quanta < Shortest.power 14) :
    Survives (.finite negative quanta exact) := by
  have positive : quanta ≠ 0 := Nat.ne_of_gt (Nat.lt_of_lt_of_le (by decide +kernel) lower)
  have fewest := Shortest.fewest_ofQuanta .even exact.onGrid positive
  refine survives_of_few positive (Nat.le_trans (fewest.least d spells) few) ?_ ?_
  · exact (Shortest.lt_exponent_iff exact.onGrid positive (by decide +kernel)).mpr lower
  · refine Int.not_lt.mp fun reaches => Nat.not_le_of_lt upper ?_
    exact (Shortest.lt_exponent_iff exact.onGrid positive (by decide +kernel)).mp reaches

end Few

/-! ### Amounts in cents -/

section Hundredths

variable {n : Nat}

/-- The magnitude nearest to a number of hundredths. -/
def hundredths (n : Nat) : Nat := Binary64.nearest (n * Binary64.unit) 100

theorem hundredths_lt (h : n < tenPow 15) : hundredths n < Shortest.power 14 :=
  calc hundredths n ≤ Binary64.nearest (tenPow 15 * Binary64.unit) 100 := by
        refine Binary64.nearest_mono (by decide) (by decide) ?_
        exact Nat.mul_le_mul_right _ (Nat.mul_le_mul_right _ (Nat.le_of_lt h))
    _ < Shortest.power 14 := by decide +kernel

theorem le_hundredths (h : n ≠ 0) : Shortest.power (-8) ≤ hundredths n :=
  calc Shortest.power (-8) ≤ Binary64.nearest (1 * Binary64.unit) 100 := by decide +kernel
    _ ≤ hundredths n := by
        refine Binary64.nearest_mono (by decide) (by decide) ?_
        exact Nat.mul_le_mul_right _ (Nat.mul_le_mul_right _ (Nat.one_le_iff_ne_zero.mpr h))

/-- The digits of a number of hundredths read back to its magnitude. -/
theorem spells_hundredths (n : Nat) : Shortest.Spells (hundredths n)
    ⟨n, (Nat.toDigits 10 n).length, (Nat.toDigits 10 n).length - 2⟩ := by
  have exponent : ((Nat.toDigits 10 n).length : Int) - 2 - (Nat.toDigits 10 n).length = -2 := by
    omega
  refine ⟨rfl, ?_⟩
  rw [Digits.decimal, exponent]
  exact congrArg (fun num => Binary64.nearest (num * Binary64.unit) 100) (Nat.mul_one n)

/-- **All amounts in whole cents survive**, below ten million millions. -/
theorem survives_hundredths (negative : Bool) (h : n < tenPow 15) :
    Survives (.ofRatio negative n 100) := by
  by_cases zero : n = 0
  · have none : Binary64.nearest (n * Binary64.unit) 100 = 0 := by
      rw [zero, Nat.zero_mul, Binary64.nearest_zero]
    have exact : Binary64.Representable 0 := Binary64.representable_of_lt (twoPow_pos 53)
    rw [Binary64.ofRatio, Binary64.round_of_nearest_eq none exact]
    exact survives_zero negative exact
  · have below := hundredths_lt h
    have exact : Binary64.Representable (hundredths n) :=
      Binary64.representable_nearest (Nat.lt_trans below (by decide +kernel))
    have few : (Nat.toDigits 10 n).length ≤ 15 := by
      refine Nat.le_of_not_lt fun more => Nat.not_le_of_lt h ?_
      calc tenPow 15 ≤ tenPow ((Nat.toDigits 10 n).length - 1) := tenPow_le_tenPow (by omega)
        _ ≤ n := tenPow_le_of_length_toDigits zero
    rw [Binary64.ofRatio, Binary64.round_of_nearest_eq rfl exact]
    exact survives_of_spells (spells_hundredths n) few (le_hundredths zero) below

end Hundredths

/-- Other numbers may come back as their neighbours. -/
example : ¬Survives (Decimal.toBinary64 ⟨false, 11000000000000001, -18⟩) := by decide +kernel

end ProductSegments.Json

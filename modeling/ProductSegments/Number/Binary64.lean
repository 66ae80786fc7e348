import ProductSegments.Number.Power

/-!
# Binary64 numbers

Prices and the numbers in rules are IEEE 754 binary64 values.  Every finite one is a whole
number of *quanta* of 2⁻¹⁰⁷⁴, the least positive subnormal, so a finite value is a sign and a
natural number, and each operation is an exact computation on naturals followed by one rounding.

## Main definitions

* `Binary64.spacing n` — the distance between neighbouring values at a magnitude of `n` quanta.
* `Binary64.Representable n` — `n` quanta are the magnitude of a finite value.
* `Binary64` — the numbers: not-a-number, the infinities and the finite values.
* `Binary64.nearest` — the nearest multiple of the spacing, ties to the even multiple;
  `representable_nearest` says that it is representable unless it overflows.
* `Binary64.compare?` — the numeric order, in which `nan` is related to nothing.
* `Binary64.ofBits`, `Binary64.toBits` — the interchange encoding in 64 bits.
-/

namespace ProductSegments

namespace Binary64

/-- The distance between neighbouring values at a magnitude of `n` quanta. -/
def spacing (n : Nat) : Nat := twoPow (n.log2 - 52)

/-- The first magnitude, in quanta, that is too large for a finite value. -/
def limit : Nat := twoPow 2098

/-- The number of quanta in one unit. -/
def unit : Nat := twoPow 1074

/-- `n` quanta are the magnitude of a finite value. -/
def Representable (n : Nat) : Prop := spacing n ∣ n ∧ n < limit

instance (n : Nat) : Decidable (Representable n) := by
  unfold Representable; infer_instance

theorem twoPow_le_limit {k : Nat} (h : k ≤ 2098) : twoPow k ≤ limit := by
  unfold limit
  generalize 2098 = bound at *
  exact twoPow_le_twoPow h

theorem spacing_pos (n : Nat) : 0 < spacing n := twoPow_pos _

/-- Below 2⁵³ quanta every whole number is its own neighbour. -/
theorem spacing_of_lt {n : Nat} (h : n < twoPow 53) : spacing n = 1 := by
  have : n.log2 < 53 := by
    by_cases hn : n = 0
    · subst hn; decide
    · exact (Nat.log2_lt hn).2 h
  rw [spacing, show n.log2 - 52 = 0 by omega]

theorem spacing_of_log2 {n j : Nat} (lower : twoPow (52 + j) ≤ n) (upper : n < twoPow (53 + j)) :
    spacing n = twoPow j := by
  have hn : n ≠ 0 := by have := twoPow_pos (52 + j); omega
  have h₁ : 52 + j ≤ n.log2 := (Nat.le_log2 hn).2 lower
  have h₂ : n.log2 < 53 + j := (Nat.log2_lt hn).2 upper
  rw [spacing, show n.log2 - 52 = j by omega]

theorem representable_of_lt {n : Nat} (h : n < twoPow 53) : Representable n := by
  refine ⟨by simp [spacing_of_lt h], ?_⟩
  exact Nat.lt_of_lt_of_le h (twoPow_le_limit (by decide))

/-- A multiple of 2ʲ by at most 2⁵³ is representable below the limit. -/
theorem representable_mul_twoPow {k j : Nat} (lower : twoPow 52 ≤ k) (upper : k ≤ twoPow 53)
    (h : k * twoPow j < limit) : Representable (k * twoPow j) := by
  refine ⟨?_, h⟩
  have pos := twoPow_pos j
  by_cases hk : k = twoPow 53
  · subst hk
    have e : twoPow 53 * twoPow j = twoPow (52 + (j + 1)) := by
      rw [← twoPow_add]; congr 1; omega
    rw [spacing_of_log2 (j := j + 1) (Nat.le_of_eq e.symm)
      (by rw [e]; exact twoPow_lt_twoPow (by omega)), e, twoPow_add 52]
    exact Nat.dvd_mul_left ..
  · rw [spacing_of_log2 (j := j)]
    · exact Nat.dvd_mul_left ..
    · rw [twoPow_add]; exact Nat.mul_le_mul_right _ lower
    · rw [twoPow_add]
      exact (Nat.mul_lt_mul_right pos).2 (Nat.lt_of_le_of_ne upper hk)

/-- The multiple of the spacing nearest to `num / den` quanta; of two equally near, the even one. -/
def nearest (num den : Nat) : Nat :=
  let step := spacing (num / den)
  let below := num / (den * step)
  let excess := num % (den * step)
  let up := den * step < 2 * excess || (den * step == 2 * excess && below % 2 == 1)
  (if up then below + 1 else below) * step

theorem representable_nearest {num den : Nat} (h : nearest num den < limit) :
    Representable (nearest num den) := by
  have bounds : ∀ up : Bool, (if up then num / (den * spacing (num / den)) + 1
      else num / (den * spacing (num / den))) * spacing (num / den) < limit →
      Representable ((if up then num / (den * spacing (num / den)) + 1
      else num / (den * spacing (num / den))) * spacing (num / den)) := by
    intro up hlt
    rw [← Nat.div_div_eq_div_mul] at hlt ⊢
    generalize num / den = q at hlt ⊢
    by_cases small : q < twoPow 53
    · rw [spacing_of_lt small] at hlt ⊢
      cases up
      · simpa using representable_of_lt small
      · by_cases hq : q + 1 < twoPow 53
        · simpa using representable_of_lt hq
        · have hq : q + 1 = twoPow 53 := Nat.le_antisymm small (Nat.le_of_not_lt hq)
          have fits : twoPow 53 * twoPow 0 < limit :=
            Nat.lt_of_lt_of_le (by decide) (twoPow_le_limit (k := 54) (by decide))
          simpa [hq] using
            representable_mul_twoPow (k := twoPow 53) (j := 0) (by decide) (by decide) fits
    · have hq0 : q ≠ 0 := fun e => small (e ▸ twoPow_pos 53)
      have hlog : 53 ≤ q.log2 := (Nat.le_log2 hq0).2 (Nat.le_of_not_lt small)
      obtain ⟨j, hj⟩ : ∃ j, q.log2 = 52 + j := ⟨q.log2 - 52, by omega⟩
      have lower : twoPow (52 + j) ≤ q := hj ▸ Nat.log2_self_le hq0
      have upper : q < twoPow (53 + j) := by
        have : q < twoPow (q.log2 + 1) := Nat.lt_log2_self
        rwa [hj, show 52 + j + 1 = 53 + j by omega] at this
      have hs : spacing q = twoPow j := spacing_of_log2 lower upper
      rw [hs] at hlt ⊢
      have pos := twoPow_pos j
      have l : twoPow 52 ≤ q / twoPow j := by
        rw [Nat.le_div_iff_mul_le pos, ← twoPow_add]; exact lower
      have u : q / twoPow j < twoPow 53 := by
        rw [Nat.div_lt_iff_lt_mul pos, ← twoPow_add]; exact upper
      refine representable_mul_twoPow ?_ ?_ hlt
      · split
        · exact Nat.le_succ_of_le l
        · exact l
      · split
        · exact u
        · exact Nat.le_of_lt u
  exact bounds _ h

end Binary64

/-- A binary64 number. -/
inductive Binary64 where
  /-- The result of an operation that has none. -/
  | nan
  /-- Larger than every finite magnitude. -/
  | infinity (negative : Bool)
  /-- A signed whole number of quanta; zero has both signs. -/
  | finite (negative : Bool) (quanta : Nat) (exact : Binary64.Representable quanta)
  deriving DecidableEq

namespace Binary64

/-- Zero, with a positive sign. -/
def zero : Binary64 := .finite false 0 (representable_of_lt (by decide))

instance : Inhabited Binary64 := ⟨zero⟩

/-- The value nearest to `num / den` quanta with the given sign, an infinity if that overflows. -/
def round (negative : Bool) (num den : Nat) : Binary64 :=
  if h : nearest num den < limit then .finite negative _ (representable_nearest h)
  else .infinity negative

/-- The value nearest to the fraction `num / den`. -/
def ofRatio (negative : Bool) (num den : Nat) : Binary64 := round negative (num * unit) den

/-- The value nearest to a natural number. -/
def ofNat (n : Nat) : Binary64 := ofRatio false n 1

/-- The value nearest to an integer. -/
def ofInt (n : Int) : Binary64 := ofRatio (n < 0) n.natAbs 1

/-- The number one. -/
def one : Binary64 := ofNat 1

/-- The number is not-a-number. -/
def isNaN : Binary64 → Bool
  | nan => true
  | _ => false

/-- The number is neither infinite nor not-a-number. -/
def isFinite : Binary64 → Bool
  | finite .. => true
  | _ => false

/-- The number carries a minus sign. -/
def isNegative : Binary64 → Bool
  | nan => false
  | infinity negative => negative
  | finite negative .. => negative

/-! ### Order -/

/-- The place of a number on the number line, in quanta, with the infinities just outside all
finite values; `nan` has no place. -/
def place? : Binary64 → Option Int
  | nan => none
  | infinity negative => some (if negative then -(limit : Int) else limit)
  | finite negative quanta _ => some (if negative then -(quanta : Int) else quanta)

/-- The numeric order: both zeros are equal and `nan` is related to nothing, itself included. -/
def compare? (a b : Binary64) : Option Ordering :=
  match a.place?, b.place? with
  | some x, some y => some (compare x y)
  | _, _ => none

/-- The smaller of two numbers; a number is smaller than `nan`. -/
def min (a b : Binary64) : Binary64 :=
  match compare? a b with
  | some .gt => b
  | some _ => a
  | none => if a.isNaN then b else a

/-! ### Arithmetic -/

/-- The product, rounded once. -/
def mul : Binary64 → Binary64 → Binary64
  | nan, _ | _, nan => nan
  | infinity s, infinity t => infinity (s ^^ t)
  | infinity s, finite t q _ | finite s q _, infinity t => if q = 0 then nan else infinity (s ^^ t)
  | finite s p _, finite t q _ => round (s ^^ t) (p * q) unit

/-- The sum, rounded once; a sum of zero is negative only if both terms are. -/
def add : Binary64 → Binary64 → Binary64
  | nan, _ | _, nan => nan
  | infinity s, infinity t => if s = t then infinity s else nan
  | infinity s, finite .. => infinity s
  | finite .., infinity t => infinity t
  | finite s p _, finite t q _ =>
    let sum : Int := (if s then -(p : Int) else p) + (if t then -(q : Int) else q)
    round (sum < 0 || (sum == 0 && s && t)) sum.natAbs 1

/-- The quotient, rounded once.  What is divided by zero is infinite, unless it is zero too. -/
def div : Binary64 → Binary64 → Binary64
  | nan, _ | _, nan => nan
  | infinity _, infinity _ => nan
  | infinity s, finite t .. => infinity (s ^^ t)
  | finite s .., infinity t => finite (s ^^ t) 0 (representable_of_lt (by decide))
  | finite s p _, finite t q _ =>
    if q = 0 then if p = 0 then nan else infinity (s ^^ t) else round (s ^^ t) (p * unit) q

/-- The number with the other sign. -/
def neg : Binary64 → Binary64
  | nan => nan
  | infinity s => infinity (!s)
  | finite s q exact => finite (!s) q exact

/-- One divided by the number, rounded once. -/
def reciprocal : Binary64 → Binary64
  | nan => nan
  | infinity s => finite s 0 (representable_of_lt (by decide))
  | finite s q _ => if q = 0 then infinity s else round s (unit * unit) q

instance : Mul Binary64 := ⟨mul⟩
instance : Add Binary64 := ⟨add⟩
instance : Div Binary64 := ⟨div⟩
instance : Neg Binary64 := ⟨neg⟩

/-- The whole part of a number, cut off at zero below and at `cap` above; `nan` gives zero. -/
def truncate (cap : Nat) : Binary64 → Nat
  | nan => 0
  | infinity negative => if negative then 0 else cap
  | finite negative quanta _ => if negative then 0 else Nat.min (quanta / unit) cap

/-! ### Interchange encoding -/

/-- The number encoded by 64 bits: sign, eleven exponent bits, fifty-two fraction bits. -/
def ofBits (bits : UInt64) : Binary64 :=
  let negative := bits >>> 63 != 0
  let exponent := ((bits >>> 52) &&& 0x7ff).toNat
  let fraction := (bits &&& 0xfffffffffffff).toNat
  if exponent = 0x7ff then if fraction = 0 then infinity negative else nan
  else if exponent = 0 then round negative fraction 1
  else round negative ((twoPow 52 + fraction) * twoPow (exponent - 1)) 1

/-- The 64 bits that encode a number. -/
def toBits : Binary64 → UInt64
  | nan => 0x7ff8000000000000
  | infinity negative => signBit negative ||| 0x7ff0000000000000
  | finite negative quanta _ =>
    if quanta < twoPow 52 then signBit negative ||| UInt64.ofNat quanta
    else
      let exponent := quanta.log2 - 51
      let fraction := quanta / twoPow (exponent - 1) - twoPow 52
      signBit negative ||| UInt64.ofNat exponent <<< 52 ||| UInt64.ofNat fraction
where
  /-- The sign bit alone. -/
  signBit (negative : Bool) : UInt64 := if negative then 0x8000000000000000 else 0

end Binary64

end ProductSegments

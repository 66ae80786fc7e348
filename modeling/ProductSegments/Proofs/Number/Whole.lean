import ProductSegments.Number.Literal
import ProductSegments.Proofs.Number.Rounding

/-!
# Whole numbers digit by digit

A whole number with a radix marker is worked out digit by digit, with a rounding after each of them.
Up to 2⁵³ all of that is exact.  From there on the spacing is so wide that a further digit is too
small to count, and multiplying by the radix is exact again: what is read is the number with zeros
in place of all digits behind the first that led past 2⁵³.

## Main definitions

* `Binary64.kept radix n` — the number `n` with zeros in place of these digits.

## Main results

* `Binary64.ofNat_of_onGrid` — whole numbers on the grid are exact.
* `Binary64.ofNat_mul_twoPow` — multiplying by a power of two is exact.
* `Binary64.ofNat_mul_add`, `Binary64.ofNat_mul_add_of_large` — what one more digit does.
* `Literal.ofRadixDigits_eq` — digits are read as the number that is kept of them.
* `Binary64.ofNat_eq_infinity_iff`, `Binary64.ofNat_kept_eq_infinity_iff` — which numbers overflow,
  and that dropping digits makes no difference to that.
-/

namespace ProductSegments

attribute [local irreducible] Binary64.limit Binary64.unit

namespace Binary64

/-! ### Rounded whole numbers -/

theorem round_eq_infinity_iff {negative : Bool} {num den : Nat} :
    round negative num den = .infinity negative ↔ limit ≤ nearest num den := by
  refine ⟨fun h => ?_, round_eq_infinity⟩
  unfold round at h
  split at h
  · cases h
  · next hge => exact Nat.le_of_not_lt hge

theorem ofNat_eq_round (n : Nat) : ofNat n = round false (n * unit) 1 := rfl

@[simp] theorem isNaN_ofNat (n : Nat) : (ofNat n).isNaN = false := isNaN_round ..

theorem OnGrid.mul_unit {n : Nat} (h : OnGrid n) : OnGrid (n * unit) := by
  unfold unit
  generalize 1074 = k
  exact h.mul_twoPow k

theorem OnGrid.representable_mul_unit {n : Nat} (h : OnGrid n) (lt : n < twoPow 1024) :
    Representable (n * unit) := by
  refine h.mul_unit.representable ?_
  rw [limit_eq]
  exact (Nat.mul_lt_mul_right unit_pos).mpr lt

/-- **Whole numbers on the grid are exact**, if they do not overflow. -/
theorem ofRatio_of_onGrid (negative : Bool) {n : Nat} (h : OnGrid n) (lt : n < twoPow 1024) :
    ofRatio negative n 1 = .finite negative (n * unit) (h.representable_mul_unit lt) :=
  round_of_nearest_eq (nearest_self h.mul_unit) _

theorem ofNat_of_onGrid {n : Nat} (h : OnGrid n) (lt : n < twoPow 1024) :
    ofNat n = .finite false (n * unit) (h.representable_mul_unit lt) := ofRatio_of_onGrid false h lt

theorem lt_twoPow_of_le {n : Nat} (h : n ≤ twoPow 53) : n < twoPow 1024 :=
  Nat.lt_of_le_of_lt h (twoPow_lt_twoPow (by decide))

theorem ofNat_of_le {n : Nat} (h : n ≤ twoPow 53) : ofNat n =
    .finite false (n * unit) ((onGrid_of_le h).representable_mul_unit (lt_twoPow_of_le h)) :=
  ofNat_of_onGrid (onGrid_of_le h) (lt_twoPow_of_le h)

/-- From 2¹⁰²⁴ on whole numbers overflow. -/
theorem ofNat_of_ge {n : Nat} (h : twoPow 1024 ≤ n) : ofNat n = .infinity false := by
  apply ofRatio_eq_infinity false Nat.one_pos
  rwa [Nat.mul_one]

theorem ofNat_zero : ofNat 0 = .zero := by
  rw [ofNat_of_le (by decide)]
  simp only [zero, Nat.zero_mul]

/-- A whole number is finite, with the nearest point of the grid as its magnitude, or it is beyond
the finite values. -/
theorem ofNat_cases (n : Nat) :
    (∃ exact, ofNat n = .finite false (nearest (n * unit) 1) exact) ∨
      ofNat n = .infinity false ∧ limit ≤ nearest (n * unit) 1 := by
  rcases Nat.lt_or_ge (nearest (n * unit) 1) limit with h | h
  · exact .inl ⟨representable_nearest h, round_of_nearest_eq rfl _⟩
  · exact .inr ⟨round_eq_infinity h, h⟩

/-! ### One more digit -/

theorem nearest_mul_unit_mul_twoPow (n k : Nat) :
    nearest (n * twoPow k * unit) 1 = nearest (n * unit) 1 * twoPow k := by
  rw [Nat.mul_right_comm]
  rcases Nat.eq_zero_or_pos n with rfl | hpos
  · simp only [Nat.zero_mul, nearest_zero]
  · refine nearest_mul_twoPow Nat.one_pos ?_ k
    have hunit : twoPow 52 ≤ unit := by
      unfold unit
      generalize h : 1074 = u
      exact twoPow_le_twoPow (by omega)
    rw [Nat.mul_one]
    exact Nat.le_trans hunit (Nat.le_mul_of_pos_left unit hpos)

theorem nearest_mul_unit_ne_zero {n : Nat} (h : n ≠ 0) : nearest (n * unit) 1 ≠ 0 := by
  have pos := unit_pos
  have one : OnGrid (1 * unit) := (onGrid_of_le (by decide)).mul_unit
  have le : 1 * unit ≤ nearest (n * unit) 1 := by
    apply le_nearest Nat.one_pos one
    rw [Nat.mul_one]
    exact Nat.mul_le_mul_right unit (Nat.pos_of_ne_zero h)
  omega

theorem ofNat_mul_infinity {n : Nat} (h : n ≠ 0) : ofNat n * infinity false = infinity false := by
  rcases ofNat_cases n with ⟨exact, hn⟩ | ⟨hn, -⟩
  · rw [hn]
    exact if_neg (nearest_mul_unit_ne_zero h)
  · rw [hn]
    rfl

/-- **Multiplying by a power of two is exact**, if it is not zero that meets an overflow. -/
theorem ofNat_mul_twoPow (n : Nat) {k : Nat} (h : n ≠ 0 ∨ k < 1024) :
    ofNat n * ofNat (twoPow k) = ofNat (n * twoPow k) := by
  rcases Nat.lt_or_ge k 1024 with small | large
  · have scaled := nearest_mul_unit_mul_twoPow n k
    rw [ofNat_of_onGrid (onGrid_twoPow k) (twoPow_lt_twoPow small)]
    rcases ofNat_cases n with ⟨exact, hn⟩ | ⟨hn, hlimit⟩
    · have hprod : nearest (nearest (n * unit) 1 * (twoPow k * unit)) unit
          = nearest (n * twoPow k * unit) 1 := by
        rw [← Nat.mul_assoc, nearest_of_onGrid unit_pos (exact.onGrid.mul_twoPow k), scaled]
      rw [hn, ofNat_eq_round]
      change round false _ unit = _
      simp only [round, hprod]
    · have hover : limit ≤ nearest (n * twoPow k * unit) 1 := by
        rw [scaled]
        exact Nat.le_trans hlimit (Nat.le_mul_of_pos_right _ (twoPow_pos k))
      rw [hn, ofNat_eq_round, round_eq_infinity hover]
      exact if_neg (Nat.ne_of_gt (Nat.mul_pos (twoPow_pos k) unit_pos))
  · -- the power overflows, and so does every multiple of it but zero
    have hn : n ≠ 0 := h.resolve_right (Nat.not_lt.mpr large)
    have hproduct : twoPow 1024 ≤ n * twoPow k :=
      Nat.le_trans (twoPow_le_twoPow large) (Nat.le_mul_of_pos_left _ (Nat.pos_of_ne_zero hn))
    rw [ofNat_of_ge (twoPow_le_twoPow large), ofNat_of_ge hproduct, ofNat_mul_infinity hn]

/-- Magnitudes are added as whole numbers and rounded once. -/
theorem finite_add_finite {p q : Nat} (hp : Representable p) (hq : Representable q) :
    (finite false p hp : Binary64) + finite false q hq = round false (p + q) 1 := by
  have hsign : (decide ((p : Int) + q < 0) || ((p : Int) + q == 0 && false && false)) = false := by
    have : ¬((p : Int) + q < 0) := by omega
    simp [this]
  have habs : ((p : Int) + q).natAbs = p + q := by omega
  change round (decide ((p : Int) + q < 0) || ((p : Int) + q == 0 && false && false))
    ((p : Int) + q).natAbs 1 = _
  rw [hsign, habs]

/-- **As long as a number is below 2⁵³, one more digit is read exactly.** -/
theorem ofNat_mul_add {n k d : Nat} (hn : n < twoPow 53) (hk : k ≤ 4) (hd : d < twoPow k) :
    ofNat n * ofNat (twoPow k) + ofNat d = ofNat (n * twoPow k + d) := by
  have hd : d ≤ twoPow 53 := Nat.le_of_lt (Nat.lt_trans hd (twoPow_lt_twoPow (by omega)))
  have hgrid : OnGrid (n * twoPow k) := (onGrid_of_le (Nat.le_of_lt hn)).mul_twoPow k
  have hlt : n * twoPow k < twoPow 1024 :=
    calc n * twoPow k < twoPow 53 * twoPow k := (Nat.mul_lt_mul_right (twoPow_pos k)).mpr hn
      _ = twoPow (53 + k) := (twoPow_add 53 k).symm
      _ ≤ twoPow 1024 := twoPow_le_twoPow (by omega)
  rw [ofNat_mul_twoPow n (.inr (by omega)), ofNat_of_onGrid hgrid hlt, ofNat_of_le hd, ofNat_eq_round,
    finite_add_finite, Nat.add_mul _ d unit]

/-- A point of the grid absorbs less than half the way to the next one. -/
theorem nearest_add_of_lt {q e : Nat} (hq : OnGrid q) (hq0 : q ≠ 0) (h : 2 * e < spacing q) :
    nearest (q + e) 1 = q := by
  have hgap := hq.gapBelow_pos hq0
  refine nearest_eq_of_between Nat.one_pos hq ?_ ?_ fun hmiddle => ?_
  · omega
  · omega
  · omega

/-- **From 2⁵³ on one more digit is lost.** -/
theorem ofNat_mul_add_of_large {n k d : Nat} (hn : twoPow 53 ≤ n) (hk : k ≤ 4) (hd : d < twoPow k) :
    ofNat n * ofNat (twoPow k) + ofNat d = ofNat (n * twoPow k) := by
  have hd53 : d ≤ twoPow 53 := Nat.le_of_lt (Nat.lt_trans hd (twoPow_lt_twoPow (by omega)))
  rw [ofNat_mul_twoPow n (.inr (by omega)), ofNat_of_le hd53]
  rcases ofNat_cases (n * twoPow k) with ⟨exact, hvalue⟩ | ⟨hvalue, -⟩
  · rw [hvalue, finite_add_finite]
    -- the point is at least `2 ^ (53 + k)` units, where the spacing is twice the radix
    have hlow : twoPow (53 + k) * unit ≤ nearest (n * twoPow k * unit) 1 := by
      have hgrid : OnGrid (twoPow (53 + k) * unit) := by
        rw [twoPow_mul_unit rfl]
        exact onGrid_twoPow _
      refine le_nearest Nat.one_pos hgrid ?_
      rw [Nat.mul_one, twoPow_add]
      exact Nat.mul_le_mul_right _ (Nat.mul_le_mul_right _ hn)
    have hspacing : 2 * (twoPow k * unit) ≤ spacing (nearest (n * twoPow k * unit) 1) :=
      calc 2 * (twoPow k * unit) = twoPow (1 + (k + 1074)) := by
            rw [twoPow_mul_unit rfl, twoPow_add 1]
        _ = spacing (twoPow (53 + k) * unit) := by
            rw [twoPow_mul_unit rfl, show 53 + k + 1074 = 52 + (1 + (k + 1074)) by omega, twoPow_add 52,
              (isSignificand_52 _).spacing_mul]
        _ ≤ _ := spacing_le_spacing hlow
    have hdigit : 2 * (d * unit) < 2 * (twoPow k * unit) :=
      Nat.mul_lt_mul_of_pos_left ((Nat.mul_lt_mul_right unit_pos).mpr hd) (by decide)
    have hpos : nearest (n * twoPow k * unit) 1 ≠ 0 := by
      have : 0 < twoPow (53 + k) * unit := Nat.mul_pos (twoPow_pos _) unit_pos
      omega
    exact round_of_nearest_eq (nearest_add_of_lt exact.onGrid hpos (by omega)) exact
  · rw [hvalue]
    rfl

/-! ### All digits -/

/-- The number with zeros in place of its last digits, as long as what stands before them has reached
2⁵³. -/
def kept (radix n : Nat) : Nat :=
  if 1 < radix ∧ twoPow 53 ≤ n / radix then kept radix (n / radix) * radix else n
termination_by n
decreasing_by
  next h =>
    have hn : 0 < n := Nat.pos_of_ne_zero fun e => by
      rw [e, Nat.zero_div] at h
      exact absurd h.2 (Nat.not_le_of_lt (twoPow_pos 53))
    exact Nat.div_lt_self hn h.1

theorem kept_of_lt {radix n : Nat} (h : n / radix < twoPow 53) : kept radix n = n := by
  rw [kept, if_neg fun hboth => Nat.not_le_of_lt h hboth.2]

theorem kept_of_le {radix n : Nat} (hradix : 1 < radix) (h : twoPow 53 ≤ n / radix) :
    kept radix n = kept radix (n / radix) * radix := by
  rw [kept, if_pos ⟨hradix, h⟩]

/-- A number that has reached a power of two from 2⁵³ on still has when its last digits are zeros. -/
theorem twoPow_le_kept {k n : Nat} (h : twoPow 53 ≤ n) : twoPow 53 ≤ kept (twoPow k) n := by
  fun_induction kept (twoPow k) n with
  | case1 n hboth ih => exact Nat.le_trans (ih hboth.2) (Nat.le_mul_of_pos_right _ (twoPow_pos k))
  | case2 n => exact h

/-- One more digit of what is kept is what is kept with one more digit. -/
theorem ofNat_kept_mul_add {n k d : Nat} (hpos : 0 < k) (hk : k ≤ 4) (hd : d < twoPow k) :
    ofNat (kept (twoPow k) n) * ofNat (twoPow k) + ofNat d
      = ofNat (kept (twoPow k) (n * twoPow k + d)) := by
  have hdiv : (n * twoPow k + d) / twoPow k = n := by
    rw [Nat.mul_comm, Nat.mul_add_div (twoPow_pos k), Nat.div_eq_of_lt hd, Nat.add_zero]
  rcases Nat.lt_or_ge n (twoPow 53) with small | large
  · rw [kept_of_lt (Nat.lt_of_le_of_lt (Nat.div_le_self n _) small), kept_of_lt (by rwa [hdiv]),
      ofNat_mul_add small hk hd]
  · have hradix : 1 < twoPow k := Nat.one_lt_two_pow (Nat.ne_of_gt hpos)
    rw [kept_of_le hradix (n := n * twoPow k + d) (by rwa [hdiv]), hdiv,
      ofNat_mul_add_of_large (twoPow_le_kept large) hk hd]

/-! ### Overflow -/

/-- The middle between the largest finite value and the power of two behind it. -/
def overflow : Nat := (twoPow 54 - 1) * twoPow 970

theorem two_mul_middle {j k : Nat} (h : j = 54 + k) :
    2 * ((twoPow 54 - 1) * twoPow k) = 2 * twoPow j - twoPow (k + 1) := by
  rw [h, Nat.sub_mul, Nat.one_mul, ← twoPow_add, Nat.mul_sub, twoPow_add k 1,
    Nat.mul_comm 2 (twoPow k)]

/-- **The whole numbers that overflow** are those from that middle on. -/
theorem ofNat_eq_infinity_iff {n : Nat} : ofNat n = .infinity false ↔ overflow ≤ n := by
  have hgap : gapBelow limit = twoPow (970 + 1) * unit := by
    rw [limit_eq, twoPow_mul_unit (j := 1024) rfl, twoPow_mul_unit (j := 970 + 1) rfl,
      show 1024 + 1074 = 53 + (970 + 1 + 1074) by decide, gapBelow_twoPow]
  have heven : IsEven limit := by
    rw [limit_eq, twoPow_mul_unit rfl]
    exact isEven_twoPow (by decide)
  have hlimit : limit ≠ 0 := by
    have := Nat.mul_pos (twoPow_pos 1024) unit_pos
    rw [limit_eq]
    omega
  have hmiddle : 2 * limit - gapBelow limit = 2 * overflow * unit := by
    rw [hgap, limit_eq, ← Nat.mul_assoc, ← Nat.sub_mul, overflow,
      two_mul_middle (j := 1024) (by decide)]
  rw [ofNat_eq_round, round_eq_infinity_iff, le_nearest_iff Nat.one_pos onGrid_limit hlimit heven,
    hmiddle, Nat.mul_one, ← Nat.mul_assoc 2 n, Nat.mul_le_mul_right_iff unit_pos]
  omega

/-- Dropped digits do not decide whether a number of 54 ones and some zeros is reached. -/
theorem le_kept_iff {k n : Nat} (e : Nat) :
    (twoPow 54 - 1) * twoPow e ≤ kept (twoPow k) n ↔ (twoPow 54 - 1) * twoPow e ≤ n := by
  fun_induction kept (twoPow k) n generalizing e with
  | case1 n hboth ih =>
    rcases Nat.lt_or_ge e k with hlt | hle
    · -- already the digits before the last one are beyond the number
      have hfew : (twoPow 54 - 1) * twoPow e ≤ twoPow 53 * twoPow k :=
        calc (twoPow 54 - 1) * twoPow e ≤ twoPow 54 * twoPow e := Nat.mul_le_mul_right _ (Nat.sub_le ..)
          _ = twoPow (54 + e) := (twoPow_add 54 e).symm
          _ ≤ twoPow (53 + k) := twoPow_le_twoPow (by omega)
          _ = twoPow 53 * twoPow k := twoPow_add 53 k
      have hn : twoPow 53 * twoPow k ≤ n := (Nat.le_div_iff_mul_le (twoPow_pos k)).mp hboth.2
      have hkept := Nat.mul_le_mul_right (twoPow k) (twoPow_le_kept hboth.2 (k := k))
      exact iff_of_true (Nat.le_trans hfew hkept) (Nat.le_trans hfew hn)
    · obtain ⟨i, rfl⟩ := Nat.exists_eq_add_of_le' hle
      rw [twoPow_add, ← Nat.mul_assoc, Nat.mul_le_mul_right_iff (twoPow_pos k), ih,
        Nat.le_div_iff_mul_le (twoPow_pos k)]
  | case2 n => exact Iff.rfl

/-- **Dropping digits makes no difference to overflow.** -/
theorem ofNat_kept_eq_infinity_iff {k n : Nat} :
    ofNat (kept (twoPow k) n) = .infinity false ↔ ofNat n = .infinity false := by
  rw [ofNat_eq_infinity_iff, ofNat_eq_infinity_iff]
  exact le_kept_iff 970

end Binary64

namespace Literal

open Binary64 (ofNat kept)

/-- **Digits are read as the number that is kept of them.** -/
theorem ofRadixDigits_eq {k : Nat} (hpos : 0 < k) (hk : k ≤ 4) {ds : List Nat}
    (h : ∀ d ∈ ds, d < twoPow k) :
    ofRadixDigits (twoPow k) ds = ofNat (kept (twoPow k) (Radix.ofDigits (twoPow k) ds)) := by
  have run : ∀ n, ds.foldl (fun value d => value * ofNat (twoPow k) + ofNat d)
      (ofNat (kept (twoPow k) n))
      = ofNat (kept (twoPow k) (ds.foldl (fun n d => n * twoPow k + d) n)) := by
    induction ds with
    | nil =>
      intro n
      rw [List.foldl_nil, List.foldl_nil]
    | cons d ds ih =>
      intro n
      rw [List.foldl_cons, List.foldl_cons,
        Binary64.ofNat_kept_mul_add hpos hk (h d List.mem_cons_self)]
      exact ih (fun d hd => h d (List.mem_cons_of_mem _ hd)) _
  have hzero : kept (twoPow k) 0 = 0 := Binary64.kept_of_lt (by rw [Nat.zero_div]; exact twoPow_pos 53)
  rw [ofRadixDigits, Radix.ofDigits, ← run 0, hzero, Binary64.ofNat_zero]

end Literal

end ProductSegments

import ProductSegments.Proofs.Number.Grid

/-!
# Rounding to the nearest value

What rounding has to do, apart from how it is computed: of all points of the grid the nearest one is
taken, and of two equally near ones the even one; if that point is beyond the finite values, the
result is an infinity.  There is exactly one such point, and the computation finds it.

## Main definitions

* `Binary64.distance` — how far a magnitude is from a fraction.
* `Binary64.IsNearest` — the nearest point of the grid, ties to the even one.
* `Binary64.IsRounded` — the binary64 number that a signed fraction rounds to.

## Main results

* `Binary64.IsNearest.unique` — a fraction has at most one nearest point.
* `Binary64.isNearest_nearest` — the computed point is the nearest one.
* `Binary64.nearest_eq_of_between` — all fractions up to half the way to the neighbours of a point
  round to it.
* `Binary64.nearest_congr`, `Binary64.nearest_mul_twoPow` — equal fractions round to the same point,
  and away from the subnormal values a power of two may be taken out.
* `Binary64.isRounded_round` — rounding gives the number it has to give.
-/

namespace ProductSegments.Binary64

/-- How far `q` is from `num / den`, in parts of `1 / den`. -/
def distance (num den q : Nat) : Nat := (q * den - num) + (num - q * den)

/-- Of all points of the grid `q` is the nearest to `num / den`, or the even one of two that are
equally near. -/
structure IsNearest (num den q : Nat) : Prop where
  onGrid : OnGrid q
  le : ∀ r, OnGrid r → distance num den q ≤ distance num den r
  isEven : ∀ r, OnGrid r → r ≠ q → distance num den r = distance num den q → IsEven q

section Uniqueness

variable {num den q r : Nat}

/-- Of two nearest points neither is below the other: they would be neighbours, and both even. -/
theorem IsNearest.not_lt (hden : 0 < den) (hq : IsNearest num den q) (hr : IsNearest num den r) :
    ¬q < r := by
  intro hlt
  have same : distance num den r = distance num den q :=
    Nat.le_antisymm (hr.le q hq.onGrid) (hq.le r hr.onGrid)
  have hnext := hq.onGrid.add_spacing_le hr.onGrid hlt
  have neighbours : q + spacing q = r := by
    -- a point strictly between the two would be nearer than both
    refine Nat.le_antisymm hnext (Nat.le_of_not_lt fun inside => ?_)
    have hle := hq.le _ hq.onGrid.next
    have h₁ : q * den < (q + spacing q) * den :=
      (Nat.mul_lt_mul_right hden).mpr (Nat.lt_add_of_pos_right (spacing_pos q))
    have h₂ : (q + spacing q) * den < r * den := (Nat.mul_lt_mul_right hden).mpr inside
    unfold distance at same hle
    omega
  have hqEven := hq.isEven r hr.onGrid (Nat.ne_of_gt hlt) same
  have hrEven := hr.isEven q hq.onGrid (Nat.ne_of_lt hlt) same.symm
  rw [← neighbours] at hrEven
  exact hq.onGrid.isEven_next_iff.mp hrEven hqEven

/-- **A fraction has at most one nearest point.** -/
theorem IsNearest.unique (hden : 0 < den) (hq : IsNearest num den q) (hr : IsNearest num den r) :
    q = r :=
  Nat.le_antisymm (Nat.le_of_not_lt (hr.not_lt hden hq)) (Nat.le_of_not_lt (hq.not_lt hden hr))

end Uniqueness

/-! ### The computed point -/

/-- The whole number nearest to `num / size`, ties to the even one. -/
def quotient (num size : Nat) : Nat :=
  if size < 2 * (num % size) || (size == 2 * (num % size) && num / size % 2 == 1) then
    num / size + 1
  else num / size

theorem nearest_eq_quotient (num den : Nat) : nearest num den =
    quotient num (den * spacing (num / den)) * spacing (num / den) := rfl

theorem quotient_mul_right (num size : Nat) {c : Nat} (hc : 0 < c) :
    quotient (num * c) (size * c) = quotient num size := by
  have hmod : 2 * (num * c % (size * c)) = 2 * (num % size) * c := by
    rw [Nat.mul_mod_mul_right, Nat.mul_assoc]
  have hlt : size * c < 2 * (num % size) * c ↔ size < 2 * (num % size) := Nat.mul_lt_mul_right hc
  have heq : size * c = 2 * (num % size) * c ↔ size = 2 * (num % size) :=
    Nat.mul_right_cancel_iff hc
  have heq : (size * c == 2 * (num % size) * c) = (size == 2 * (num % size)) := by
    rw [Bool.eq_iff_iff, beq_iff_eq, beq_iff_eq, heq]
  simp only [quotient, Nat.mul_div_mul_right num size hc, hmod, hlt, heq]

section Computation

variable {num den : Nat}

/-- The point of the grid at or below `num / den`. -/
def below (num den : Nat) : Nat := num / den / spacing (num / den) * spacing (num / den)

theorem onGrid_below (num den : Nat) : OnGrid (below num den) := onGrid_floor _

theorem below_mul_le (num den : Nat) : below num den * den ≤ num :=
  Nat.le_trans (Nat.mul_le_mul_right _ (Nat.div_mul_le_self ..)) (Nat.div_mul_le_self ..)

theorem lt_next_below_mul (num : Nat) {den : Nat} (hden : 0 < den) :
    num < (below num den + spacing (below num den)) * den := by
  have step := spacing_pos (num / den)
  rw [below, spacing_floor, ← Nat.succ_mul]
  have h : num / den < (num / den / spacing (num / den)).succ * spacing (num / den) :=
    (Nat.div_lt_iff_lt_mul step).mp (Nat.lt_succ_self _)
  calc num < (num / den).succ * den := (Nat.div_lt_iff_lt_mul hden).mp (Nat.lt_succ_self _)
    _ ≤ _ := Nat.mul_le_mul_right _ h

/-- Beyond the middle between two points the upper one is taken, and on the middle the even one. -/
theorem nearest_eq (num den : Nat) : nearest num den =
    if spacing (below num den) * den < 2 * (num - below num den * den) ∨
        spacing (below num den) * den = 2 * (num - below num den * den) ∧ ¬IsEven (below num den)
    then below num den + spacing (below num den) else below num den := by
  have hdiv : num / (den * spacing (num / den)) = num / den / spacing (num / den) :=
    (Nat.div_div_eq_div_mul ..).symm
  have hmod : num % (den * spacing (num / den)) = num - below num den * den := by
    rw [Nat.mod_eq_sub, hdiv, below, Nat.mul_comm den, Nat.mul_comm (_ * den), Nat.mul_assoc]
  have heven : ¬IsEven (below num den) ↔ num / den / spacing (num / den) % 2 = 1 := by
    rw [IsEven, below, spacing_floor, Nat.mul_div_cancel _ (spacing_pos _), Nat.mod_two_not_eq_zero]
  have hs : spacing (below num den) = spacing (num / den) := spacing_floor _
  rw [nearest_eq_quotient, quotient, hmod, hdiv, hs]
  simp only [heven, Nat.mul_comm den, Bool.or_eq_true, Bool.and_eq_true, decide_eq_true_eq,
    beq_iff_eq]
  split
  · rw [below, Nat.add_mul, Nat.one_mul]
  · rfl

/-- **The computed point is the nearest one.** -/
theorem isNearest_nearest (num : Nat) {den : Nat} (hden : 0 < den) :
    IsNearest num den (nearest num den) := by
  have hgrid := onGrid_below num den
  have hlow := below_mul_le num den
  have hhigh := lt_next_below_mul num hden
  have hparity := hgrid.isEven_next_iff
  rw [nearest_eq]
  generalize below num den = q at *
  -- every other point is at or below `q`, or at or above the next one
  have sides : ∀ r, OnGrid r → r * den ≤ q * den ∨ (q + spacing q) * den ≤ r * den := by
    intro r hr
    rcases Nat.lt_or_ge q r with h | h
    · exact .inr (Nat.mul_le_mul_right _ (hgrid.add_spacing_le hr h))
    · exact .inl (Nat.mul_le_mul_right _ h)
  have apart : ∀ {a b : Nat}, a ≠ b → a * den ≠ b * den := fun hne e =>
    hne (Nat.eq_of_mul_eq_mul_right hden e)
  rw [Nat.add_mul] at hhigh sides
  split
  · next up =>
    refine ⟨hgrid.next, fun r hr => ?_, fun r hr hne htie => ?_⟩
    · have := sides r hr
      rw [distance, distance, Nat.add_mul]
      omega
    · rw [hparity]
      have := sides r hr
      have := apart hne
      rw [distance, distance, Nat.add_mul] at htie
      rw [Nat.add_mul] at this
      rcases up with up | ⟨-, odd⟩
      · omega
      · exact odd
  · next down =>
    refine ⟨hgrid, fun r hr => ?_, fun r hr hne htie => ?_⟩
    · have := sides r hr
      rw [distance, distance]
      omega
    · have := sides r hr
      have := apart hne
      rw [distance, distance] at htie
      refine Decidable.byContradiction fun odd => down ?_
      by_cases middle : spacing q * den = 2 * (num - q * den)
      · exact .inr ⟨middle, odd⟩
      · exact .inl (by omega)

theorem IsNearest.nearest_eq {q : Nat} (hden : 0 < den) (h : IsNearest num den q) :
    nearest num den = q :=
  (isNearest_nearest num hden).unique hden h

end Computation

/-! ### What rounds to a point -/

section Between

variable {num den q : Nat}

/-- **The fractions that round to a point**: those up to half the way to either neighbour, the
middles themselves only if the point is even. -/
theorem nearest_eq_of_between (hden : 0 < den) (hq : OnGrid q)
    (lower : (2 * q - gapBelow q) * den ≤ 2 * num) (upper : 2 * num ≤ (2 * q + spacing q) * den)
    (middle : (2 * q - gapBelow q) * den = 2 * num ∨ 2 * num = (2 * q + spacing q) * den →
      IsEven q) : nearest num den = q := by
  have after : ∀ r, OnGrid r → q < r →
      q * den + spacing q * den ≤ r * den := fun r hr h => by
    rw [← Nat.add_mul]
    exact Nat.mul_le_mul_right _ (hq.add_spacing_le hr h)
  have before : ∀ r, OnGrid r → r < q →
      r * den + gapBelow q * den ≤ q * den ∧ gapBelow q ≤ q := fun r hr h => by
    obtain ⟨p, hp, hpq, hgap⟩ := hq.exists_previous (by omega)
    have hle : r ≤ p := hp.le_of_lt_next hr (by omega)
    rw [← Nat.add_mul]
    exact ⟨Nat.mul_le_mul_right _ (by omega), by omega⟩
  have width : 0 < spacing q * den := Nat.mul_pos (spacing_pos q) hden
  rw [Nat.sub_mul, Nat.mul_assoc] at lower middle
  rw [Nat.add_mul, Nat.mul_assoc] at upper middle
  refine IsNearest.nearest_eq hden ⟨hq, fun r hr => ?_, fun r hr hne htie => middle ?_⟩
  · rcases Nat.lt_trichotomy r q with h | rfl | h
    · have := before r hr h
      have : gapBelow q * den ≤ q * den := Nat.mul_le_mul_right _ this.2
      unfold distance
      omega
    · exact Nat.le_refl _
    · have := after r hr h
      unfold distance
      omega
  · rcases Nat.lt_or_gt_of_ne hne with h | h
    · have := before r hr h
      have : gapBelow q * den ≤ q * den := Nat.mul_le_mul_right _ this.2
      have : r * den < q * den := (Nat.mul_lt_mul_right hden).mpr h
      unfold distance at htie
      omega
    · have := after r hr h
      unfold distance at htie
      omega

/-- A point rounds to itself. -/
theorem nearest_of_onGrid (hden : 0 < den) (hq : OnGrid q) : nearest (q * den) den = q := by
  refine IsNearest.nearest_eq hden ⟨hq, fun r _ => ?_, fun r _ hne htie => ?_⟩
  · simp [distance]
  · have : r * den ≠ q * den := fun e => hne (Nat.eq_of_mul_eq_mul_right hden e)
    unfold distance at htie
    omega

theorem nearest_self (hq : OnGrid q) : nearest q 1 = q := by
  have := nearest_of_onGrid Nat.one_pos hq
  rwa [Nat.mul_one] at this

theorem onGrid_zero : OnGrid 0 := Nat.dvd_zero _

@[simp] theorem nearest_zero (den : Nat) : nearest 0 den = 0 := by simp [nearest]

/-- Up to half a quantum is rounded to zero. -/
theorem nearest_eq_zero (h : 2 * num ≤ den) : nearest num den = 0 := by
  rcases Nat.eq_zero_or_pos num with rfl | hpos
  · exact nearest_zero den
  · have hzero : spacing 0 = 1 := by decide
    refine nearest_eq_of_between (by omega) onGrid_zero ?_ ?_ fun _ => by decide
    · simp
    · simpa [hzero] using h

theorem onGrid_limit : OnGrid limit := by
  unfold limit
  exact onGrid_twoPow _

/-- Rounding does not go past a point of the grid. -/
theorem le_nearest {r : Nat} (hden : 0 < den) (hr : OnGrid r) (h : r * den ≤ num) :
    r ≤ nearest num den := by
  apply Nat.le_of_not_lt
  intro hlt
  have hle := (isNearest_nearest num hden).le r hr
  have hlt : nearest num den * den < r * den := (Nat.mul_lt_mul_right hden).mpr hlt
  unfold distance at hle
  omega

/-- An even point is reached from half the way below it on. -/
theorem le_nearest_iff {r : Nat} (hden : 0 < den) (hr : OnGrid r) (hr0 : r ≠ 0) (heven : IsEven r) :
    r ≤ nearest num den ↔ (2 * r - gapBelow r) * den ≤ 2 * num := by
  constructor
  · intro h
    -- below the middle the previous point is nearer
    apply Nat.le_of_not_lt
    intro hlt
    obtain ⟨p, hp, hpr, hgap⟩ := hr.exists_previous hr0
    have hle := (isNearest_nearest num hden).le p hp
    have hmul : r * den ≤ nearest num den * den := Nat.mul_le_mul_right _ h
    have hprev : p * den + gapBelow r * den = r * den := by rw [← hgap, ← Nat.add_mul, hpr]
    have hpos : 0 < gapBelow r * den := Nat.mul_pos (hr.gapBelow_pos hr0) hden
    rw [Nat.sub_mul, Nat.mul_assoc] at hlt
    unfold distance at hle
    omega
  · intro h
    rcases Nat.le_total (r * den) num with above | below
    · exact le_nearest hden hr above
    · refine Nat.le_of_eq (nearest_eq_of_between hden hr h ?_ fun _ => heven).symm
      calc 2 * num ≤ 2 * (r * den) := Nat.mul_le_mul_left 2 below
        _ ≤ (2 * r + spacing r) * den := by
          rw [← Nat.mul_assoc, Nat.add_mul]
          exact Nat.le_add_right ..

end Between

/-! ### Equal fractions -/

theorem nearest_mul_right (num den : Nat) {c : Nat} (hc : 0 < c) :
    nearest (num * c) (den * c) = nearest num den := by
  rw [nearest_eq_quotient, nearest_eq_quotient, Nat.mul_div_mul_right num den hc,
    Nat.mul_right_comm, quotient_mul_right _ _ hc]

/-- Equal fractions round to the same point. -/
theorem nearest_congr {num den num' den' : Nat} (hden : 0 < den) (hden' : 0 < den')
    (h : num * den' = num' * den) : nearest num den = nearest num' den' := by
  rw [← nearest_mul_right num den hden', ← nearest_mul_right num' den' hden, h,
    Nat.mul_comm den den']

/-- **Rounding keeps the order of fractions.** -/
theorem nearest_mono {num den num' den' : Nat} (hden : 0 < den) (hden' : 0 < den')
    (h : num * den' ≤ num' * den) : nearest num den ≤ nearest num' den' := by
  apply Nat.le_of_not_lt
  intro hlt
  have hq := isNearest_nearest num hden
  have hr := isNearest_nearest num' hden'
  -- the smaller fraction is not below the middle of the two points, the larger one not above it
  have hlow : (nearest num den + nearest num' den') * den ≤ 2 * num := by
    have hle := hq.le _ hr.onGrid
    have hmul := (Nat.mul_lt_mul_right hden).mpr hlt
    unfold distance at hle
    rw [Nat.add_mul]
    omega
  have hhigh : 2 * num' ≤ (nearest num den + nearest num' den') * den' := by
    have hle := hr.le _ hq.onGrid
    have hmul := (Nat.mul_lt_mul_right hden').mpr hlt
    unfold distance at hle
    rw [Nat.add_mul]
    omega
  have heq : num * den' = num' * den := by
    refine Nat.le_antisymm h (Nat.le_of_mul_le_mul_left ?_ Nat.two_pos)
    calc 2 * (num' * den) = 2 * num' * den := (Nat.mul_assoc ..).symm
      _ ≤ (nearest num den + nearest num' den') * den' * den := Nat.mul_le_mul_right _ hhigh
      _ = (nearest num den + nearest num' den') * den * den' := Nat.mul_right_comm ..
      _ ≤ 2 * num * den' := Nat.mul_le_mul_right _ hlow
      _ = 2 * (num * den') := Nat.mul_assoc ..
  exact Nat.ne_of_gt hlt (nearest_congr hden hden' heq)

/-- From 2⁵² quanta on the grid looks the same at every power of two. -/
theorem nearest_mul_twoPow {num den : Nat} (hden : 0 < den) (h : twoPow 52 * den ≤ num) (k : Nat) :
    nearest (num * twoPow k) den = nearest num den * twoPow k := by
  have hq : twoPow 52 ≤ num / den := (Nat.le_div_iff_mul_le hden).mpr h
  have hq0 : num / den ≠ 0 := by have := twoPow_pos 52; omega
  have hlog : 52 ≤ (num / den).log2 := (Nat.le_log2 hq0).mpr hq
  obtain ⟨j, hj⟩ := Nat.exists_eq_add_of_le hlog
  have lower : twoPow (52 + j) ≤ num / den := hj ▸ Nat.log2_self_le hq0
  have upper : num / den < twoPow (53 + j) := by
    have : num / den < twoPow ((num / den).log2 + 1) := Nat.lt_log2_self
    rwa [hj, show 52 + j + 1 = 53 + j by omega] at this
  have hs : spacing (num / den) = twoPow j := spacing_of_log2 lower upper
  have hs' : spacing (num * twoPow k / den) = twoPow j * twoPow k := by
    rw [← twoPow_add]
    refine spacing_of_log2 ?_ ?_
    · rw [Nat.le_div_iff_mul_le hden, ← Nat.add_assoc, twoPow_add, Nat.mul_right_comm]
      exact Nat.mul_le_mul_right _ ((Nat.le_div_iff_mul_le hden).mp lower)
    · rw [Nat.div_lt_iff_lt_mul hden, ← Nat.add_assoc, twoPow_add, Nat.mul_right_comm]
      exact (Nat.mul_lt_mul_right (twoPow_pos k)).mpr ((Nat.div_lt_iff_lt_mul hden).mp upper)
  rw [nearest_eq_quotient, nearest_eq_quotient, hs, hs', ← Nat.mul_assoc den,
    quotient_mul_right _ _ (twoPow_pos k), Nat.mul_assoc]

/-! ### Rounded numbers -/

/-- The binary64 number that `±num / den` quanta round to: the nearest point of the grid with that
sign, or an infinity if this point is beyond the finite values. -/
inductive IsRounded (negative : Bool) (num den : Nat) : Binary64 → Prop where
  | finite {q : Nat} (exact : Representable q) (nearest : IsNearest num den q) :
      IsRounded negative num den (.finite negative q exact)
  | overflow {q : Nat} (beyond : limit ≤ q) (nearest : IsNearest num den q) :
      IsRounded negative num den (.infinity negative)

/-- **Rounding gives the number that it has to give.** -/
theorem isRounded_round (negative : Bool) (num : Nat) {den : Nat} (hden : 0 < den) :
    IsRounded negative num den (round negative num den) := by
  unfold round
  split
  · exact .finite _ (isNearest_nearest num hden)
  · next h => exact .overflow (Nat.le_of_not_lt h) (isNearest_nearest num hden)

theorem round_congr (negative : Bool) {num den num' den' : Nat} (hden : 0 < den) (hden' : 0 < den')
    (h : num * den' = num' * den) : round negative num den = round negative num' den' := by
  simp only [round, nearest_congr hden hden' h]

theorem round_of_nearest_eq {negative : Bool} {num den q : Nat} (h : nearest num den = q)
    (exact : Representable q) : round negative num den = .finite negative q exact := by
  subst h
  rw [round, dif_pos exact.2]

theorem round_eq_infinity {negative : Bool} {num den : Nat} (h : limit ≤ nearest num den) :
    round negative num den = .infinity negative := by
  rw [round, dif_neg (Nat.not_lt.mpr h)]

@[simp] theorem isNaN_round (negative : Bool) (num den : Nat) :
    (round negative num den).isNaN = false := by
  unfold round
  split <;> rfl

end ProductSegments.Binary64

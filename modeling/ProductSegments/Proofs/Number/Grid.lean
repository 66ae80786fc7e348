import ProductSegments.Number.Binary64

/-!
# The grid of magnitudes

Without an upper bound the magnitudes of the finite values are a grid: the whole numbers of quanta
that are multiples of their own spacing.  Between a point of the grid and that point plus its
spacing there is no other, and the significands of the two differ in parity.

## Main definitions

* `Binary64.OnGrid q` — `q` is a multiple of its spacing.
* `Binary64.IsEven q` — so many spacings are an even number.
* `Binary64.gapBelow q` — the distance to the point of the grid below `q`.

## Main results

* `Binary64.OnGrid.exists_significand` — a point of the grid is a significand of at most 53 bits
  times its spacing.
* `Binary64.OnGrid.next`, `Binary64.OnGrid.exists_previous` — the neighbours of a point.
* `Binary64.OnGrid.add_spacing_le` — nothing lies between neighbours.
* `Binary64.OnGrid.isEven_next_iff` — of two neighbours one is even.
* `Binary64.onGrid_floor` — the point of the grid at or below a number.
-/

namespace ProductSegments.Binary64

/-- A magnitude that a value has unless it overflows. -/
def OnGrid (q : Nat) : Prop := spacing q ∣ q

/-- The significand of a magnitude is even. -/
def IsEven (q : Nat) : Prop := q / spacing q % 2 = 0

instance (q : Nat) : Decidable (OnGrid q) := by unfold OnGrid; infer_instance

instance (q : Nat) : Decidable (IsEven q) := by unfold IsEven; infer_instance

theorem Representable.onGrid {q : Nat} (h : Representable q) : OnGrid q := h.1

theorem OnGrid.representable {q : Nat} (h : OnGrid q) (hlt : q < limit) : Representable q := ⟨h, hlt⟩

/-! ### Spacings -/

theorem log2_le_log2 {m n : Nat} (h : m ≤ n) : m.log2 ≤ n.log2 := by
  by_cases hm : m = 0
  · simp [hm]
  · have hn : n ≠ 0 := by omega
    exact (Nat.le_log2 hn).mpr (Nat.le_trans (Nat.log2_self_le hm) h)

theorem spacing_dvd_spacing {m n : Nat} (h : m ≤ n) : spacing m ∣ spacing n :=
  Nat.pow_dvd_pow 2 (Nat.sub_le_sub_right (log2_le_log2 h) 52)

theorem spacing_le_spacing {m n : Nat} (h : m ≤ n) : spacing m ≤ spacing n :=
  Nat.le_of_dvd (spacing_pos n) (spacing_dvd_spacing h)

/-- The spacing at a magnitude is a power of two by which the magnitude has at most 53 bits, and
exactly 53 unless the spacing is one quantum. -/
theorem exists_spacing (n : Nat) :
    ∃ j, spacing n = twoPow j ∧ n < twoPow (53 + j) ∧ (j = 0 ∨ twoPow (52 + j) ≤ n) := by
  refine ⟨n.log2 - 52, rfl, ?_, ?_⟩
  · have h : n < twoPow (n.log2 + 1) := Nat.lt_log2_self
    exact Nat.lt_of_lt_of_le h (twoPow_le_twoPow (by omega))
  · by_cases small : n.log2 ≤ 52
    · exact .inl (by omega)
    · have hn : n ≠ 0 := by rintro rfl; simp at small
      refine .inr ?_
      rw [show 52 + (n.log2 - 52) = n.log2 by omega]
      exact Nat.log2_self_le hn

/-- A significand of 53 bits, or of fewer at the smallest spacing. -/
structure IsSignificand (m j : Nat) : Prop where
  lt : m < twoPow 53
  full : j = 0 ∨ twoPow 52 ≤ m

theorem IsSignificand.spacing_mul {m j : Nat} (h : IsSignificand m j) :
    spacing (m * twoPow j) = twoPow j := by
  rcases h.full with rfl | full
  · have e : m * twoPow 0 = m := Nat.mul_one m
    rw [e, spacing_of_lt h.lt]
  · apply spacing_of_log2
    · rw [twoPow_add]; exact Nat.mul_le_mul_right _ full
    · rw [twoPow_add]; exact (Nat.mul_lt_mul_right (twoPow_pos j)).mpr h.lt

theorem IsSignificand.onGrid {m j : Nat} (h : IsSignificand m j) : OnGrid (m * twoPow j) := by
  rw [OnGrid, h.spacing_mul]
  exact Nat.dvd_mul_left ..

theorem IsSignificand.isEven_iff {m j : Nat} (h : IsSignificand m j) :
    IsEven (m * twoPow j) ↔ m % 2 = 0 := by
  rw [IsEven, h.spacing_mul, Nat.mul_div_cancel _ (twoPow_pos j)]

/-- A multiple of a spacing with 53 bits is a significand. -/
theorem isSignificand_div {n j : Nat} (lt : n < twoPow (53 + j))
    (full : j = 0 ∨ twoPow (52 + j) ≤ n) : IsSignificand (n / twoPow j) j := by
  refine ⟨?_, full.imp_right fun h => ?_⟩
  · rw [Nat.div_lt_iff_lt_mul (twoPow_pos j), ← twoPow_add]; exact lt
  · rw [Nat.le_div_iff_mul_le (twoPow_pos j), ← twoPow_add]; exact h

/-- **A point of the grid is a significand times its spacing.** -/
theorem OnGrid.exists_significand {q : Nat} (h : OnGrid q) :
    ∃ m j, q = m * twoPow j ∧ IsSignificand m j := by
  obtain ⟨j, hs, lt, full⟩ := exists_spacing q
  refine ⟨q / twoPow j, j, ?_, isSignificand_div lt full⟩
  rw [OnGrid, hs] at h
  exact (Nat.div_mul_cancel h).symm

/-- Fewer than 53 bits stand on the grid wherever they are moved to. -/
theorem onGrid_mul_twoPow {m : Nat} (h : m < twoPow 53) (k : Nat) : OnGrid (m * twoPow k) := by
  obtain ⟨j, hs, -, full⟩ := exists_spacing (m * twoPow k)
  rw [OnGrid, hs]
  refine Nat.dvd_trans (Nat.pow_dvd_pow 2 ?_) (Nat.dvd_mul_left ..)
  rcases full with rfl | full
  · exact Nat.zero_le k
  · have hlt : m * twoPow k < twoPow (53 + k) := by
      rw [twoPow_add]
      exact (Nat.mul_lt_mul_right (twoPow_pos k)).mpr h
    have hexp : 52 + j < 53 + k := (Nat.pow_lt_pow_iff_right (by decide)).mp (Nat.lt_of_le_of_lt full hlt)
    omega

theorem OnGrid.mul_twoPow {q : Nat} (h : OnGrid q) (k : Nat) : OnGrid (q * twoPow k) := by
  obtain ⟨m, j, rfl, hm⟩ := h.exists_significand
  rw [Nat.mul_assoc, ← twoPow_add]
  exact onGrid_mul_twoPow hm.lt (j + k)

/-- The significand after the largest one starts the next spacing. -/
theorem twoPow_53_mul (j : Nat) : twoPow 53 * twoPow j = twoPow 52 * twoPow (j + 1) := by
  rw [← twoPow_add, ← twoPow_add]
  congr 1
  omega

theorem isSignificand_52 (j : Nat) : IsSignificand (twoPow 52) j := ⟨by decide, .inr (Nat.le_refl _)⟩

theorem onGrid_twoPow (k : Nat) : OnGrid (twoPow k) := by
  rw [← Nat.one_mul (twoPow k)]
  exact onGrid_mul_twoPow (by decide) k

/-- Up to 2⁵³, that bound included, every number is on the grid. -/
theorem onGrid_of_le {n : Nat} (h : n ≤ twoPow 53) : OnGrid n := by
  rcases Nat.lt_or_eq_of_le h with lt | rfl
  · exact (representable_of_lt lt).onGrid
  · exact onGrid_twoPow 53

theorem isEven_twoPow {k : Nat} (h : 52 ≤ k) : IsEven (twoPow k) := by
  obtain ⟨j, rfl⟩ := Nat.exists_eq_add_of_le h
  rw [twoPow_add, (isSignificand_52 j).isEven_iff]
  decide

/-! ### Neighbours -/

/-- **Nothing lies between a point of the grid and the next one.** -/
theorem OnGrid.add_spacing_le {q r : Nat} (hq : OnGrid q) (hr : OnGrid r) (h : q < r) :
    q + spacing q ≤ r := by
  obtain ⟨a, ha⟩ := hq
  obtain ⟨b, hb⟩ := Nat.dvd_trans (spacing_dvd_spacing (Nat.le_of_lt h)) hr
  have hab : a < b := by
    refine Nat.lt_of_mul_lt_mul_left (a := spacing q) ?_
    rwa [← ha, ← hb]
  calc q + spacing q = spacing q * (a + 1) := by rw [Nat.mul_succ, ← ha]
    _ ≤ spacing q * b := Nat.mul_le_mul_left _ hab
    _ = r := hb.symm

theorem OnGrid.next {q : Nat} (h : OnGrid q) : OnGrid (q + spacing q) := by
  obtain ⟨m, j, rfl, hm⟩ := h.exists_significand
  rw [hm.spacing_mul, ← Nat.succ_mul]
  rcases Nat.lt_or_eq_of_le hm.lt with lt | last
  · exact IsSignificand.onGrid ⟨lt, hm.full.imp_right Nat.le_succ_of_le⟩
  · rw [show m.succ = twoPow 53 from last, twoPow_53_mul]
    exact (isSignificand_52 _).onGrid

theorem OnGrid.isEven_next_iff {q : Nat} (h : OnGrid q) : IsEven (q + spacing q) ↔ ¬IsEven q := by
  obtain ⟨m, j, rfl, hm⟩ := h.exists_significand
  rw [hm.isEven_iff, hm.spacing_mul, ← Nat.succ_mul]
  rcases Nat.lt_or_eq_of_le hm.lt with lt | last
  · rw [IsSignificand.isEven_iff ⟨lt, hm.full.imp_right Nat.le_succ_of_le⟩]
    omega
  · rw [show m.succ = twoPow 53 from last, twoPow_53_mul, (isSignificand_52 _).isEven_iff]
    have odd : m % 2 = 1 := by
      have : m.succ = twoPow 53 := last
      have even : twoPow 53 % 2 = 0 := by decide
      omega
    simp [odd]

/-- The distance from a positive magnitude to the point of the grid below it: half a spacing where
the spacing grows. -/
def gapBelow (q : Nat) : Nat :=
  if spacing q ≠ 1 ∧ q / spacing q = twoPow 52 then spacing q / 2 else spacing q

theorem IsSignificand.gapBelow_mul {m j : Nat} (h : IsSignificand m j) :
    gapBelow (m * twoPow j) = if j ≠ 0 ∧ m = twoPow 52 then twoPow j / 2 else twoPow j := by
  have hj : twoPow j = 1 ↔ j = 0 := by simp
  rw [gapBelow, h.spacing_mul, Nat.mul_div_cancel _ (twoPow_pos j)]
  simp only [ne_eq, hj]

theorem twoPow_succ_div_two (k : Nat) : twoPow (k + 1) / 2 = twoPow k := by
  rw [twoPow_add]
  exact Nat.mul_div_cancel _ (by decide)

/-- Below a power of two the points stand twice as close. -/
theorem gapBelow_twoPow (j : Nat) : gapBelow (twoPow (53 + j)) = twoPow j := by
  rw [show 53 + j = 52 + (j + 1) by omega, twoPow_add, (isSignificand_52 _).gapBelow_mul,
    if_pos ⟨Nat.succ_ne_zero j, rfl⟩, twoPow_succ_div_two]

theorem OnGrid.exists_previous {q : Nat} (h : OnGrid q) (hq : q ≠ 0) :
    ∃ p, OnGrid p ∧ p + spacing p = q ∧ spacing p = gapBelow q := by
  obtain ⟨m, j, rfl, hm⟩ := h.exists_significand
  rw [hm.gapBelow_mul]
  split
  · next edge =>
    -- the largest significand of the spacing below comes before the least one of this spacing
    obtain ⟨hj, rfl⟩ := edge
    obtain ⟨i, rfl⟩ := Nat.exists_eq_succ_of_ne_zero hj
    have top : IsSignificand (twoPow 53 - 1) i := ⟨by decide, .inr (by decide)⟩
    refine ⟨_, top.onGrid, ?_, ?_⟩
    · rw [top.spacing_mul, ← Nat.succ_mul, Nat.succ_eq_add_one, Nat.sub_add_cancel (by decide),
        twoPow_53_mul]
    · rw [top.spacing_mul, twoPow_succ_div_two]
  · next inside =>
    have hm0 : 0 < m := Nat.pos_of_ne_zero fun e => hq (by rw [e, Nat.zero_mul])
    have before : IsSignificand (m - 1) j := by
      have := hm.lt
      have := hm.full
      exact ⟨by omega, by omega⟩
    refine ⟨_, before.onGrid, ?_, before.spacing_mul⟩
    rw [before.spacing_mul, ← Nat.succ_mul, Nat.succ_eq_add_one, Nat.sub_add_cancel hm0]

theorem OnGrid.gapBelow_le {q : Nat} (h : OnGrid q) (hq : q ≠ 0) : gapBelow q ≤ q := by
  obtain ⟨p, -, hnext, hgap⟩ := h.exists_previous hq
  omega

/-- The gap below a magnitude is at least its 2⁵³rd part. -/
theorem OnGrid.le_mul_gapBelow {q : Nat} (h : OnGrid q) : q ≤ twoPow 53 * gapBelow q := by
  obtain ⟨m, j, rfl, hm⟩ := h.exists_significand
  rw [hm.gapBelow_mul]
  split
  · next edge =>
    obtain ⟨hj, rfl⟩ := edge
    obtain ⟨i, rfl⟩ := Nat.exists_eq_succ_of_ne_zero hj
    exact Nat.le_of_eq (by rw [twoPow_succ_div_two, twoPow_53_mul])
  · exact Nat.mul_le_mul_right _ (Nat.le_of_lt hm.lt)

theorem gapBelow_le_spacing (q : Nat) : gapBelow q ≤ spacing q := by
  unfold gapBelow
  split
  · exact Nat.div_le_self ..
  · exact Nat.le_refl _

theorem OnGrid.gapBelow_pos {q : Nat} (h : OnGrid q) (hq : q ≠ 0) : 0 < gapBelow q := by
  obtain ⟨p, -, -, hgap⟩ := h.exists_previous hq
  rw [← hgap]
  exact spacing_pos p

theorem OnGrid.le_of_lt_next {q r : Nat} (hq : OnGrid q) (hr : OnGrid r) (h : r < q + spacing q) :
    r ≤ q := by
  apply Nat.le_of_not_lt
  intro hlt
  have := hq.add_spacing_le hr hlt
  omega

/-! ### Rounding down to the grid -/

theorem spacing_floor (n : Nat) : spacing (n / spacing n * spacing n) = spacing n := by
  obtain ⟨j, hs, lt, full⟩ := exists_spacing n
  rw [hs]
  exact (isSignificand_div lt full).spacing_mul

theorem onGrid_floor (n : Nat) : OnGrid (n / spacing n * spacing n) := by
  rw [OnGrid, spacing_floor]
  exact Nat.dvd_mul_left ..

end ProductSegments.Binary64

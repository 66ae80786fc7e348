/-!
# Powers

The powers of the two radices that numbers are written in.

## Main definitions

* `twoPow` — the powers of two.
* `tenPow` — the powers of ten.
-/

namespace ProductSegments

/-- A power of two. -/
abbrev twoPow (exponent : Nat) : Nat := Nat.pow 2 exponent

/-- A power of ten. -/
abbrev tenPow (exponent : Nat) : Nat := Nat.pow 10 exponent

theorem twoPow_pos (k : Nat) : 0 < twoPow k := Nat.pow_pos (by decide)

theorem tenPow_pos (k : Nat) : 0 < tenPow k := Nat.pow_pos (by decide)

theorem twoPow_add (j k : Nat) : twoPow (j + k) = twoPow j * twoPow k := Nat.pow_add ..

theorem tenPow_add (j k : Nat) : tenPow (j + k) = tenPow j * tenPow k := Nat.pow_add ..

theorem twoPow_le_twoPow {j k : Nat} (h : j ≤ k) : twoPow j ≤ twoPow k :=
  Nat.pow_le_pow_right (by decide) h

theorem twoPow_lt_twoPow {j k : Nat} (h : j < k) : twoPow j < twoPow k :=
  Nat.pow_lt_pow_right (by decide) h

end ProductSegments

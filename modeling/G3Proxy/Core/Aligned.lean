/-
  Time cut into aligned windows of `p` units: the window of `t` is `t / p`,
  and it starts at `t - t % p`; and the bit masks that compute this when
  `p` is a power of two.

  * `and_xor_two_pow_sub_one`: below `2 ^ w`, masking with the complement
    of `2 ^ k - 1` keeps `x - x % 2 ^ k`, the start of `x`'s window (the low
    part, `x &&& 2 ^ k - 1 = x % 2 ^ k`, is core's
    `Nat.and_two_pow_sub_one_eq_mod`);
  * `sub_mod_eq_sub_mod_iff`: two instants start the same window exactly
    when they are in the same window;
  * `div_eq_of_lt_next` and `div_next`: the instants from `t` up to the next
    window start are in `t`'s window, and that start is in the next one.
-/
import Mathlib

namespace Nat

theorem sub_mod_eq_mul_div (x p : Nat) : x - x % p = p * (x / p) := by
  have := Nat.div_add_mod x p
  omega

theorem and_xor_two_pow_sub_one {w k x : Nat} (hk : k ≤ w) (hx : x < 2 ^ w) :
    ((2 ^ w - 1) ^^^ (2 ^ k - 1)) &&& x = x - x % 2 ^ k := by
  rw [sub_mod_eq_mul_div]
  apply Nat.eq_of_testBit_eq
  intro i
  rw [testBit_and, testBit_xor, testBit_two_pow_sub_one, testBit_two_pow_sub_one, testBit_two_pow_mul,
    testBit_div_two_pow]
  -- below `k` both sides are clear, from `k` to `w` both are `x`'s bit, and
  -- from `w` on `x` has no bit
  by_cases hik : i < k
  · simp [hik, show i < w by omega, show ¬ k ≤ i by omega]
  · have hsub : i - k + k = i := by omega
    by_cases hiw : i < w
    · simp [hik, hiw, hsub, show k ≤ i by omega]
    · have hx' : x < 2 ^ i := Nat.lt_of_lt_of_le hx (Nat.pow_le_pow_right (by omega) (by omega))
      simp [hik, hiw, hsub, testBit_lt_two_pow hx']

variable {p : Nat}

/-- Two instants start the same window exactly when they are in the same
    window. -/
theorem sub_mod_eq_sub_mod_iff (hp : 0 < p) {x y : Nat} : x - x % p = y - y % p ↔ x / p = y / p := by
  rw [sub_mod_eq_mul_div, sub_mod_eq_mul_div]
  exact Nat.mul_right_inj (Nat.pos_iff_ne_zero.1 hp)

/-- The instants from `t` up to the start of the next window are in `t`'s
    window. -/
theorem div_eq_of_lt_next (hp : 0 < p) {t u : Nat} (htu : t ≤ u) (hu : u < t - t % p + p) :
    u / p = t / p := by
  have hle : t / p ≤ u / p := Nat.div_le_div_right htu
  have hlt : u / p < t / p + 1 := by
    rw [Nat.div_lt_iff_lt_mul hp, Nat.add_mul, Nat.one_mul, Nat.mul_comm, ← sub_mod_eq_mul_div]
    exact hu
  omega

/-- The start of the next window is in the next window. -/
theorem div_next (hp : 0 < p) (t : Nat) : (t - t % p + p) / p = t / p + 1 := by
  rw [sub_mod_eq_mul_div, show p * (t / p) + p = p * (t / p + 1) by rw [Nat.mul_add, Nat.mul_one],
    Nat.mul_div_cancel_left _ hp]

end Nat

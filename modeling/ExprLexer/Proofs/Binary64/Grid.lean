import ExprLexer.Binary64.Rounding
import ExprLexer.Proofs.Fraction
import Mathlib.Algebra.Order.Field.Power
import Mathlib.Order.Monotone.Basic

namespace ExprLexer.Binary64

/-- The value of a magnitude. Magnitudes from infinity on go on as if there were more exponents. -/
def gridValue (m : Nat) : ℚ :=
  ((if m < binade then m else binade + m % binade : Nat) : ℚ) *
    2 ^ ((max (m / binade) 1 : Nat) - 1075 : ℤ)

def midpoint (m : Nat) : ℚ := (gridValue m + gridValue (m + 1)) / 2

/-- A number is rounded to a magnitude beyond `m`. -/
def RoundsBeyond (q : ℚ) (m : Nat) : Prop := midpoint m < q ∨ midpoint m = q ∧ m % 2 = 1

theorem binade_pos : 0 < binade := by decide

theorem gridValue_of_lt {m : Nat} (h : m < binade) : gridValue m = m * 2 ^ (-1074 : ℤ) := by
  rw [gridValue, if_pos h, Nat.div_eq_of_lt h]
  norm_num

theorem gridValue_binade (s : Nat) {r : Nat} (h : r < binade) :
    gridValue ((s + 1) * binade + r) = (binade + r : Nat) * 2 ^ (s - 1074 : ℤ) := by
  have hlt : ¬ (s + 1) * binade + r < binade := by
    have := Nat.le_mul_of_pos_left binade (Nat.zero_lt_of_lt (Nat.lt_add_one s))
    omega
  have hdiv : ((s + 1) * binade + r) / binade = s + 1 := by
    rw [Nat.mul_comm, Nat.mul_add_div binade_pos, Nat.div_eq_of_lt h, Nat.add_zero]
  have hmod : ((s + 1) * binade + r) % binade = r := by
    rw [Nat.mul_comm, Nat.mul_add_mod, Nat.mod_eq_of_lt h]
  rw [gridValue, if_neg hlt, hdiv, hmod, Nat.max_eq_left (by omega)]
  congr 2
  push_cast
  ring

/-- A significand that reaches the next power of two counts as the first of the next binade. -/
theorem gridValue_add (s : Nat) {n : Nat} (hs : s = 0 ∨ binade ≤ n) (hn : n ≤ 2 * binade) :
    gridValue (s * binade + n) = n * 2 ^ (s - 1074 : ℤ) := by
  rcases lt_or_ge n binade with hlt | hge
  · obtain rfl : s = 0 := by omega
    rw [Nat.zero_mul, Nat.zero_add, gridValue_of_lt hlt]
    norm_num
  · rcases Nat.lt_or_eq_of_le hn with hlt | rfl
    · have hrest : n - binade < binade := by omega
      have hsum : s * binade + n = (s + 1) * binade + (n - binade) := by
        rw [Nat.add_one_mul]
        omega
      rw [hsum, gridValue_binade s hrest, Nat.add_sub_cancel' hge]
    · have hsum : s * binade + 2 * binade = (s + 1 + 1) * binade + 0 := by ring
      have hexponent : ((s + 1 : Nat) - 1074 : ℤ) = (s - 1074 : ℤ) + 1 := by
        push_cast
        ring
      rw [hsum, gridValue_binade (s + 1) binade_pos, hexponent, zpow_add_one₀ two_ne_zero]
      push_cast
      ring

theorem exists_significand (m : Nat) :
    ∃ s n, m = s * binade + n ∧ (s = 0 ∨ binade ≤ n) ∧ n < 2 * binade := by
  have hdiv := Nat.div_add_mod m binade
  have hmod := Nat.mod_lt m binade_pos
  by_cases h : m < binade
  · exact ⟨0, m, by omega, .inl rfl, by omega⟩
  · refine ⟨m / binade - 1, binade + m % binade, ?_, .inr (by omega), by omega⟩
    have hpos : 0 < m / binade := Nat.div_pos (by omega) binade_pos
    rw [Nat.sub_mul, Nat.mul_comm (m / binade), Nat.one_mul]
    have : binade ≤ binade * (m / binade) := Nat.le_mul_of_pos_right _ hpos
    omega

theorem gridValue_succ (m : Nat) : ∃ e : ℤ, gridValue (m + 1) = gridValue m + 2 ^ e := by
  obtain ⟨s, n, rfl, hs, hn⟩ := exists_significand m
  refine ⟨s - 1074, ?_⟩
  rw [Nat.add_assoc, gridValue_add s (by omega) hn, gridValue_add s hs hn.le]
  push_cast
  ring

theorem gridValue_strictMono : StrictMono gridValue := by
  apply strictMono_nat_of_lt_succ
  intro m
  obtain ⟨e, he⟩ := gridValue_succ m
  rw [he]
  exact lt_add_of_pos_right _ (by positivity)

@[simp]
theorem gridValue_zero : gridValue 0 = 0 := by
  rw [gridValue_of_lt binade_pos]
  simp

theorem gridValue_nonneg (m : Nat) : 0 ≤ gridValue m := by
  rw [gridValue]
  positivity

theorem gridValue_lt_midpoint (m : Nat) : gridValue m < midpoint m :=
  left_lt_add_div_two.2 (gridValue_strictMono (Nat.lt_succ_self m))

theorem midpoint_lt_gridValue (m : Nat) : midpoint m < gridValue (m + 1) :=
  add_div_two_lt_right.2 (gridValue_strictMono (Nat.lt_succ_self m))

theorem midpoint_zero : midpoint 0 = 2 ^ (-1075 : ℤ) := by
  have hunit : (2 : ℚ) ^ (-1074 : ℤ) = 2 ^ (-1075 : ℤ) * 2 := zpow_add_one₀ two_ne_zero (-1075)
  rw [midpoint, gridValue_zero, Nat.zero_add, gridValue_of_lt (by decide), hunit]
  ring

theorem midpoint_last_subnormal : midpoint (binade - 1) = 2 ^ (-1022 : ℤ) - 2 ^ (-1075 : ℤ) := by
  have h : gridValue binade = binade * 2 ^ (-1074 : ℤ) := by
    have h := gridValue_add 0 (n := binade) (.inl rfl) (by decide)
    rwa [Nat.zero_mul, Nat.zero_add] at h
  have hunit : (2 : ℚ) ^ (-1074 : ℤ) = 2 ^ (-1075 : ℤ) * 2 := zpow_add_one₀ two_ne_zero (-1075)
  have hnormal : (2 : ℚ) ^ (-1022 : ℤ) = 2 ^ (-1075 : ℤ) * 2 ^ (53 : ℤ) :=
    zpow_add₀ two_ne_zero (-1075) 53
  rw [midpoint, gridValue_of_lt (by decide), Nat.sub_add_cancel binade_pos, h, hnormal, hunit]
  generalize (2 : ℚ) ^ (-1075 : ℤ) = unit
  norm_num [binade]
  ring

theorem midpoint_last_finite : midpoint (infinity - 1) = (2 : ℚ) ^ 1024 - 2 ^ 970 := by
  have h := gridValue_add 2045 (n := 2 * binade - 1) (.inr (by decide)) (by decide)
  have h' := gridValue_add 2045 (n := 2 * binade) (.inr (by decide)) (by decide)
  have hexponent : ((2045 : Nat) - 1074 : ℤ) = (970 + 1 : Nat) := rfl
  have hunit : (2 : ℚ) ^ ((2045 : Nat) - 1074 : ℤ) = 2 ^ 970 * 2 := by
    rw [hexponent, zpow_natCast, pow_succ]
  have htop : (2 : ℚ) ^ 1024 = 2 ^ 970 * 2 ^ 54 := pow_add 2 970 54
  have hlast : infinity - 1 = 2045 * binade + (2 * binade - 1) := rfl
  have hnext : infinity - 1 + 1 = 2045 * binade + 2 * binade := rfl
  rw [midpoint, hnext, hlast, h, h', hunit, htop]
  generalize (2 : ℚ) ^ 970 = unit
  norm_num [binade]
  ring

theorem RoundsBeyond.mono {q r : ℚ} {m : Nat} (h : RoundsBeyond q m) (hqr : q ≤ r) :
    RoundsBeyond r m := by
  rcases h with h | ⟨h, hm⟩
  · exact .inl (h.trans_le hqr)
  · rcases hqr.lt_or_eq with hlt | rfl
    · exact .inl (h ▸ hlt)
    · exact .inr ⟨h, hm⟩

theorem roundsBeyond_of_gridValue_le {q : ℚ} {m n : Nat} (hq : gridValue n ≤ q) (hm : m < n) :
    RoundsBeyond q m :=
  .inl ((midpoint_lt_gridValue m).trans_le ((gridValue_strictMono.monotone hm).trans hq))

theorem not_roundsBeyond_of_le_gridValue {q : ℚ} {m n : Nat} (hq : q ≤ gridValue n) (hm : n ≤ m) :
    ¬ RoundsBeyond q m := by
  have hlt : q < midpoint m :=
    (hq.trans (gridValue_strictMono.monotone hm)).trans_lt (gridValue_lt_midpoint m)
  rintro (h | ⟨h, -⟩)
  · exact absurd h hlt.not_gt
  · exact absurd h hlt.ne'

end ExprLexer.Binary64

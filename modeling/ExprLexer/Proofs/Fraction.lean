import ExprLexer.Fraction
import Mathlib.Algebra.Order.Floor.Semifield
import Mathlib.Data.Int.Log
import Mathlib.Data.Rat.Floor
import Mathlib.Tactic.FieldSimp
import Mathlib.Tactic.Linarith
import Mathlib.Tactic.NormNum
import Mathlib.Tactic.Positivity
import Mathlib.Tactic.Ring

namespace ExprLexer.Fraction

def toRat (f : Fraction) : ℚ := f.num / f.den

variable {f : Fraction}

@[simp]
theorem toRat_ofNat (n : Nat) : (ofNat n).toRat = n := by
  simp [toRat, ofNat]

theorem toRat_nonneg (f : Fraction) : 0 ≤ f.toRat := by
  rw [toRat]
  positivity

theorem toRat_pos_iff (hf : 0 < f.den) : 0 < f.toRat ↔ 0 < f.num := by
  have hden : (0 : ℚ) < f.den := by exact_mod_cast hf
  rw [toRat, div_pos_iff_of_pos_right hden]
  exact_mod_cast Iff.rfl

theorem toRat_scale (f : Fraction) {base : Nat} (hb : 0 < base) (e : Int) :
    (f.scale base e).toRat = f.toRat * (base : ℚ) ^ e := by
  have hbase : (base : ℚ) ≠ 0 := by exact_mod_cast hb.ne'
  cases e with
  | ofNat e =>
      simp only [scale, toRat, Nat.pow_eq, Nat.cast_mul, Nat.cast_pow, Int.ofNat_eq_natCast,
        zpow_natCast]
      ring
  | negSucc e =>
      simp only [scale, toRat, Nat.pow_eq, Nat.cast_mul, Nat.cast_pow, zpow_negSucc]
      rw [← div_div, div_eq_mul_inv _ ((base : ℚ) ^ (e + 1))]

theorem floor_add_rest (hf : 0 < f.den) :
    f.toRat = f.floor + ((f.num % f.den : Nat) : ℚ) / f.den := by
  have hden : (f.den : ℚ) ≠ 0 := by exact_mod_cast hf.ne'
  have h : (f.num : ℚ) = f.den * f.floor + (f.num % f.den : Nat) := by
    exact_mod_cast (Nat.div_add_mod f.num f.den).symm
  rw [toRat, h]
  field_simp

theorem floor_le (hf : 0 < f.den) : (f.floor : ℚ) ≤ f.toRat := by
  rw [floor_add_rest hf]
  have : (0 : ℚ) ≤ ((f.num % f.den : Nat) : ℚ) / f.den := by positivity
  linarith

theorem lt_floor_add_one (hf : 0 < f.den) : f.toRat < f.floor + 1 := by
  have hden : (0 : ℚ) < f.den := by exact_mod_cast hf
  have hrest : ((f.num % f.den : Nat) : ℚ) / f.den < 1 := by
    rw [div_lt_one hden]
    exact_mod_cast Nat.mod_lt _ hf
  rw [floor_add_rest hf]
  linarith

theorem remainder_eq (hf : 0 < f.den) : f.remainder = compare f.toRat (f.floor + 1 / 2) := by
  have hden : (0 : ℚ) < f.den := by exact_mod_cast hf
  have hrest : ((f.num % f.den : Nat) : ℚ) / f.den * (2 * f.den) = (2 * (f.num % f.den) : Nat) := by
    push_cast
    field_simp
  have hhalf : (1 / 2 : ℚ) * (2 * f.den) = f.den := by ring
  have hpos : (0 : ℚ) < 2 * f.den := by positivity
  rw [floor_add_rest hf]
  rcases lt_trichotomy (2 * (f.num % f.den)) f.den with h | h | h
  · rw [remainder, compare_lt_iff_lt.2 h, eq_comm, compare_lt_iff_lt, add_lt_add_iff_left,
      ← mul_lt_mul_iff_left₀ hpos, hrest, hhalf]
    exact_mod_cast h
  · rw [remainder, compare_eq_iff_eq.2 h, eq_comm, compare_eq_iff_eq, add_right_inj,
      ← mul_left_inj' hpos.ne', hrest, hhalf]
    exact_mod_cast h
  · rw [remainder, compare_gt_iff_gt.2 h, eq_comm, compare_gt_iff_gt, add_lt_add_iff_left,
      ← mul_lt_mul_iff_left₀ hpos, hrest, hhalf]
    exact_mod_cast h

/-- Rounding goes up past the middle, and in the middle from an odd number. -/
theorem floor_lt_roundHalfEven_iff (hf : 0 < f.den) : f.floor < f.roundHalfEven ↔
    f.floor + 1 / 2 < f.toRat ∨ f.floor + 1 / 2 = f.toRat ∧ f.floor % 2 = 1 := by
  rw [roundHalfEven, remainder_eq hf]
  rcases lt_trichotomy f.toRat (f.floor + 1 / 2) with h | h | h
  · rw [compare_lt_iff_lt.2 h]
    simp only [lt_irrefl, false_iff, not_or, not_lt, not_and]
    exact ⟨h.le, fun he => absurd he h.ne'⟩
  · rw [compare_eq_iff_eq.2 h]
    simp only [h, lt_irrefl, true_and, false_or]
    omega
  · rw [compare_gt_iff_gt.2 h]
    exact iff_of_true (Nat.lt_succ_self _) (.inl h)

theorem floor_le_roundHalfEven (f : Fraction) : f.floor ≤ f.roundHalfEven := by
  rw [roundHalfEven]
  split <;> omega

theorem roundHalfEven_le (f : Fraction) : f.roundHalfEven ≤ f.floor + 1 := by
  rw [roundHalfEven]
  split <;> omega

theorem clog_succ {base : Nat} (hb : 1 < base) {n : Nat} (hn : 0 < n) :
    Nat.clog base (n + 1) = Nat.log base n + 1 := by
  apply le_antisymm
  · rw [Nat.clog_le_iff_le_pow hb]
    exact Nat.lt_pow_succ_log_self hb n
  · rw [Nat.succ_le_iff, Nat.lt_clog_iff_pow_lt hb]
    exact Nat.lt_succ_of_le (Nat.pow_log_le_self base hn.ne')

theorem ceil_inv (hn : 0 < f.num) (hf : 0 < f.den) :
    ⌈f.toRat⁻¹⌉₊ = (f.den - 1) / f.num + 1 := by
  have hnum : (0 : ℚ) < f.num := by exact_mod_cast hn
  rw [Nat.ceil_eq_iff (Nat.add_one_ne_zero _), toRat, inv_div, lt_div_iff₀ hnum, div_le_iff₀ hnum,
    Nat.add_sub_cancel]
  constructor
  · have := Nat.div_mul_le_self (f.den - 1) f.num
    exact_mod_cast (by omega : (f.den - 1) / f.num * f.num < f.den)
  · have := Nat.lt_mul_div_succ (f.den - 1) hn
    rw [Nat.mul_comm] at this
    exact_mod_cast (by omega : f.den ≤ ((f.den - 1) / f.num + 1) * f.num)

theorem floorLog_eq_log {base : Nat} (hb : 1 < base) (hn : 0 < f.num) (hf : 0 < f.den) :
    f.floorLog (Nat.log base) = Int.log base f.toRat := by
  have hden : (0 : ℚ) < f.den := by exact_mod_cast hf
  have hnum : (0 : ℚ) < f.num := by exact_mod_cast hn
  have hone : f.den ≤ f.num ↔ 1 ≤ f.toRat := by
    rw [toRat, one_le_div hden]
    exact_mod_cast Iff.rfl
  rw [floorLog]
  by_cases h : f.den ≤ f.num
  · rw [if_pos h, Int.log_of_one_le_right _ (hone.1 h), toRat, Nat.floor_div_eq_div]
  · have hpos : 0 < (f.den - 1) / f.num := Nat.div_pos (by omega) hn
    rw [if_neg h, Int.log_of_right_le_one _ (le_of_not_ge fun hr => h (hone.2 hr)),
      ceil_inv hn hf, clog_succ hb hpos]
    push_cast
    ring

theorem log2_eq_log (hn : 0 < f.num) (hf : 0 < f.den) : f.log2 = Int.log 2 f.toRat := by
  rw [← floorLog_eq_log one_lt_two hn hf, log2]
  exact congrArg f.floorLog (funext fun n => Nat.log2_eq_log_two)

theorem length_toDigits (n : Nat) : (Nat.toDigits 10 n).length = Nat.log 10 n + 1 := by
  apply le_antisymm
  · rw [Nat.length_toDigits_le_iff (by decide) (Nat.succ_pos _)]
    exact Nat.lt_pow_succ_log_self (by decide) n
  · rcases Nat.eq_zero_or_pos (Nat.log 10 n) with h | h
    · rw [h]
      exact Nat.length_toDigits_pos
    · have hn : n ≠ 0 := by
        rintro rfl
        exact absurd h (by decide)
      rw [Nat.succ_le_iff, ← not_le, Nat.length_toDigits_le_iff (by decide) h, not_lt]
      exact Nat.pow_log_le_self 10 hn

theorem log10_eq_log (hn : 0 < f.num) (hf : 0 < f.den) : f.log10 = Int.log 10 f.toRat := by
  rw [← floorLog_eq_log (by decide) hn hf, log10]
  refine congrArg f.floorLog (funext fun n => ?_)
  rw [length_toDigits, Nat.add_sub_cancel]

end ExprLexer.Fraction

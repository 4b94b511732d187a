import ExprLexer.Proofs.Binary64.Search
import ExprLexer.Proofs.Decimal.Written

namespace ExprLexer.Binary64

open Decimal (HasDigits)

/-- The number has `n` digits, is rounded to the float, and is the best that can be done: no number of
fewer digits is rounded to the float, and none of as many is nearer to its value. -/
structure IsShortest (x : Binary64) (n : Nat) (q : ℚ) : Prop where
  hasDigits : HasDigits n |q|
  isRounded : IsRounded q x
  fewest : ∀ m < n, ∀ r, HasDigits m |r| → ¬ IsRounded r x
  nearest : ∀ r, HasDigits n |r| → IsRounded r x → |q - x.toRat| ≤ |r - x.toRat|

variable {x : Binary64} {d : Decimal}

theorem gridValue_succ_le (m : Nat) :
    gridValue (m + 1) ≤ 2 ^ 53 * (gridValue (m + 1) - gridValue m) := by
  obtain ⟨s, n, rfl, hs, hn⟩ := exists_significand m
  have hunit : (0 : ℚ) < 2 ^ (s - 1074 : ℤ) := by positivity
  have hfull : ((n + 1 : Nat) : ℚ) ≤ 2 ^ 53 := by
    have hbinade : 2 * binade = 2 ^ 53 := rfl
    exact_mod_cast hbinade ▸ Nat.succ_le_of_lt hn
  have hstep : gridValue (s * binade + (n + 1)) - gridValue (s * binade + n) =
      2 ^ (s - 1074 : ℤ) := by
    rw [gridValue_add s (by omega) hn, gridValue_add s hs hn.le]
    push_cast
    ring
  rw [Nat.add_assoc, hstep, gridValue_add s (by omega) hn]
  exact mul_le_mul_of_nonneg_right hfull hunit.le

theorem ofDecimal_of_between_midpoints (h : x.isFinite) {k : Nat} (hk : k + 1 = x.magnitude)
    (hs : d.negative = x.isNegative) (hlow : midpoint k < d.toFraction.toRat)
    (hhigh : d.toFraction.toRat < midpoint (k + 1)) : ofDecimal d = x := by
  have hfin : k + 1 < infinity := hk ▸ of_decide_eq_true h
  have hden := d.toFraction_den_pos
  apply ext_parts
  · rw [isNegative_ofDecimal, hs]
  · rw [magnitude_ofDecimal, ← hk]
    apply le_antisymm
    · rw [← not_lt, lt_nearestMagnitude_iff hden hfin]
      rintro (hbeyond | ⟨hbeyond, -⟩)
      · exact hhigh.not_gt hbeyond
      · exact hhigh.ne' hbeyond
    · exact (lt_nearestMagnitude_iff hden (Nat.lt_of_succ_lt hfin)).2 (.inl hlow)

theorem ofDecimal_of_near (h : x.isFinite) (hx : x.magnitude ≠ 0) (hs : d.negative = x.isNegative)
    (hd : 2 ^ 54 * |d.toFraction.toRat - gridValue x.magnitude| < gridValue x.magnitude) :
    ofDecimal d = x := by
  obtain ⟨k, hk⟩ := Nat.exists_eq_add_one.2 (Nat.pos_of_ne_zero hx)
  have hbefore := gridValue_succ_le k
  have hafter := gridValue_succ_le (k + 1)
  have hnext := gridValue_strictMono (Nat.lt_succ_self (k + 1))
  have hlow := neg_abs_le (d.toFraction.toRat - gridValue x.magnitude)
  have hhigh := le_abs_self (d.toFraction.toRat - gridValue x.magnitude)
  rw [hk] at hd hlow hhigh
  apply ofDecimal_of_between_midpoints h hk.symm hs
  · rw [midpoint]
    norm_num at hd hbefore
    linarith
  · rw [midpoint]
    norm_num at hd hafter
    linarith

theorem exists_grid_seventeen (h : x.isFinite) (hx : x.magnitude ≠ 0) :
    ∃ n : Nat, ofDecimal ⟨x.isNegative, n, x.toFraction.log10 - (16 : Nat)⟩ = x := by
  obtain ⟨n, hn⟩ := x.exists_grid_near (x.toFraction.log10 - (16 : Nat))
  have hfirst := (log10_toFraction hx).1
  have hunit := Decimal.ten_zpow_pos (x.toFraction.log10 - (16 : Nat))
  have hpower : (10 : ℚ) ^ x.toFraction.log10 =
      10 ^ 16 * 10 ^ (x.toFraction.log10 - (16 : Nat)) := by
    rw [← zpow_natCast, ← zpow_add₀ (by norm_num), add_sub_cancel]
  refine ⟨n, ofDecimal_of_near h hx rfl ?_⟩
  rw [hpower] at hfirst
  rw [Decimal.toRat_toFraction]
  change _ * |(n : ℚ) * 10 ^ (x.toFraction.log10 - (16 : Nat)) - _| < _
  generalize (10 : ℚ) ^ (x.toFraction.log10 - (16 : Nat)) = unit at hn hfirst hunit ⊢
  norm_num at hfirst ⊢
  linarith

/-- A decimal with few digits that is rounded to the number has a point of their grid beside it that is
rounded to the number too, and is not farther from it: the decimal itself, or the power of ten that the
first digit of the number stands for. -/
theorem exists_grid_point (h : x.isFinite) (hx : x.magnitude ≠ 0) {n j : Nat} (hd : ofDecimal d = x)
    (hdd : HasDigits n d.toFraction.toRat) (hj : n ≤ j + 1) :
    ∃ m : Nat, ofDecimal ⟨x.isNegative, m, x.toFraction.log10 - j⟩ = x ∧
      |m * 10 ^ (x.toFraction.log10 - j) - gridValue x.magnitude| ≤
        |d.toFraction.toRat - gridValue x.magnitude| := by
  have point (m : Nat) : (Decimal.toFraction ⟨x.isNegative, m, x.toFraction.log10 - j⟩).toRat =
      m * 10 ^ (x.toFraction.log10 - j) := Decimal.toRat_toFraction _
  rcases le_or_gt (10 ^ x.toFraction.log10) d.toFraction.toRat with hle | hlt
  · obtain ⟨m, e, hm, hvalue⟩ := hdd
    have hgrid : x.toFraction.log10 - j ≤ e := by
      have hlt : (10 : ℚ) ^ x.toFraction.log10 < 10 ^ (n + e) := by
        rw [zpow_add₀ (by norm_num), zpow_natCast]
        apply (hle.trans_eq hvalue).trans_lt
        exact mul_lt_mul_of_pos_right (by exact_mod_cast hm) (Decimal.ten_zpow_pos e)
      have := (zpow_lt_zpow_iff_right₀ (by norm_num)).1 hlt
      omega
    obtain ⟨k, hsame⟩ : ∃ k : Nat, k * 10 ^ (x.toFraction.log10 - j) = d.toFraction.toRat :=
      ⟨_, (Decimal.natCast_mul_ten_zpow m hgrid).symm.trans hvalue.symm⟩
    refine ⟨k, ofDecimal_of_between hd hd rfl ?_ ?_, ?_⟩
    · rw [point, hsame]
    · rw [point, hsame]
    · rw [hsame]
  · have hpower : ((10 ^ j : Nat) : ℚ) * 10 ^ (x.toFraction.log10 - j) =
        10 ^ x.toFraction.log10 := by
      rw [Nat.cast_pow, Nat.cast_ofNat, ← zpow_natCast, ← zpow_add₀ (by norm_num), add_sub_cancel]
    have hmid := ofDecimal_of_nearer h hd
      (e := ⟨x.isNegative, 10 ^ j, x.toFraction.log10 - j⟩) rfl
    rw [point, hpower] at hmid
    refine ⟨10 ^ j, ?_⟩
    rw [hpower]
    exact hmid (.inl ⟨hlt.le, (log10_toFraction hx).1⟩)

theorem exists_digits_of_grid (h : x.isFinite) (hx : x.magnitude ≠ 0) {i n : Nat} (hi : i < 17)
    (hn : ofDecimal ⟨x.isNegative, n, x.toFraction.log10 - i⟩ = x) :
    ∃ j ≤ i, x.shortest.digits.length ≤ j + 1 ∧
      ∀ d, ofDecimal d = x → HasDigits (j + 1) d.toFraction.toRat →
        |x.shortest.toFraction.toRat - gridValue x.magnitude| ≤
          |d.toFraction.toRat - gridValue x.magnitude| := by
  obtain ⟨j, hj, k, hk, hshortest, hnearest⟩ := exists_shortest_of_grid h hx hi hn
  have hvalue : x.shortest.toFraction.toRat = k * 10 ^ (x.toFraction.log10 - j) := by
    rw [hshortest, Decimal.toRat_toFraction]
  refine ⟨j, hj, ?_, ?_⟩
  · rw [Decimal.length_digits_le_iff, hvalue]
    exact Decimal.hasDigits_of_le (Nat.succ_pos j) (neighbour_le hx hk) _
  · intro d hd hdd
    obtain ⟨m, hm, hdist⟩ := exists_grid_point h hx hd hdd le_rfl
    rw [hvalue]
    exact (hnearest m hm).trans hdist

theorem length_digits_shortest_le_seventeen (h : x.isFinite) (hx : x.magnitude ≠ 0) :
    x.shortest.digits.length ≤ 17 := by
  obtain ⟨n, hn⟩ := exists_grid_seventeen h hx
  obtain ⟨j, hj, hlength, -⟩ := exists_digits_of_grid h hx (by decide) hn
  omega

/-- No decimal that is rounded to the number has fewer digits than the shortest one. -/
theorem length_digits_shortest_le (h : x.isFinite) (hx : x.magnitude ≠ 0) {n : Nat}
    (hd : ofDecimal d = x) (hdd : HasDigits n d.toFraction.toRat) :
    x.shortest.digits.length ≤ n := by
  cases n with
  | zero =>
      obtain ⟨m, e, hm, hvalue⟩ := hdd
      obtain rfl : m = 0 := by omega
      refine absurd ?_ hx
      rw [← hd, magnitude_ofDecimal, nearestMagnitude_eq_zero_iff d.toFraction_den_pos, hvalue,
        Nat.cast_zero, zero_mul]
      positivity
  | succ i =>
      by_cases hi : i < 17
      · obtain ⟨m, hm, -⟩ := exists_grid_point h hx hd hdd le_rfl
        obtain ⟨j, hj, hlength, -⟩ := exists_digits_of_grid h hx hi hm
        omega
      · have := length_digits_shortest_le_seventeen h hx
        omega

theorem shortest_nearest (h : x.isFinite) (hx : x.magnitude ≠ 0) (hd : ofDecimal d = x)
    (hdd : HasDigits x.shortest.digits.length d.toFraction.toRat) :
    |x.shortest.toFraction.toRat - gridValue x.magnitude| ≤
      |d.toFraction.toRat - gridValue x.magnitude| := by
  have hself := (x.shortest.length_digits_le_iff).1 le_rfl
  have hle := length_digits_shortest_le_seventeen h hx
  obtain ⟨i, hi⟩ := Nat.exists_eq_add_one.2
    (List.length_pos_iff.2 (x.shortest.digits_ne_nil (coefficient_shortest_ne_zero h hx)))
  obtain ⟨m, hm, -⟩ := exists_grid_point h hx (ofDecimal_shortest h) hself hi.le
  obtain ⟨j, hj, hlength, hnearest⟩ := exists_digits_of_grid h hx (by omega) hm
  obtain rfl : j = i := by omega
  exact hnearest d hd (hi ▸ hdd)

theorem toRat_ne_zero_of_isRounded {q : ℚ} (h : x.isFinite) (hx : x.magnitude ≠ 0)
    (hq : IsRounded q x) : q ≠ 0 := by
  rintro rfl
  have hzero : (ofParts false 0).toRat = 0 := toRat_eq_zero_iff.2 rfl
  have hle := hq.nearest h (ofParts false 0) rfl
  rw [hzero, sub_self, sub_zero, abs_zero, abs_nonpos_iff, toRat_eq_zero_iff] at hle
  exact hx hle

/-- Rounding is the only way to a number that is as near as the standard asks. -/
theorem ofDecimal_eq_iff_isRounded (h : x.isFinite) (hx : x.magnitude ≠ 0) :
    ofDecimal d = x ↔ IsRounded d.toRat x := by
  constructor
  · rintro rfl
    exact isRounded_ofDecimal d
  · intro hr
    have hround := isRounded_ofDecimal d
    have hne := toRat_ne_zero_of_isRounded h hx hr
    apply hround.unique hr
    rw [Bool.eq_iff_iff, hround.isNegative_iff hne, hr.isNegative_iff hne]

theorem abs_toRat_sub (hd : ofDecimal d = x) :
    |d.toRat - x.toRat| = |d.toFraction.toRat - gridValue x.magnitude| := by
  rw [x.toRat_eq, ← hd, isNegative_ofDecimal, Decimal.toRat, abs_signed_sub]

theorem exists_decimal_of_hasDigits {n : Nat} {q : ℚ} (hq : HasDigits n |q|) :
    ∃ d : Decimal, d.toRat = q ∧ HasDigits n d.toFraction.toRat := by
  obtain ⟨m, e, hm, hvalue⟩ := hq
  refine ⟨⟨decide (q < 0), m, e⟩, ?_, m, e, hm, Decimal.toRat_toFraction _⟩
  rw [Decimal.toRat, Decimal.toRat_toFraction, ← hvalue]
  rcases lt_or_ge q 0 with hneg | hnonneg
  · simp [signed, hneg, abs_of_neg hneg]
  · simp [signed, hnonneg.not_gt, abs_of_nonneg hnonneg]

theorem isShortest_shortest (h : x.isFinite) (hx : x.magnitude ≠ 0) :
    IsShortest x x.shortest.digits.length x.shortest.toRat := by
  have hself := ofDecimal_shortest h
  refine ⟨?_, ?_, ?_, ?_⟩
  · rw [Decimal.abs_toRat, ← Decimal.length_digits_le_iff]
  · exact (ofDecimal_eq_iff_isRounded h hx).1 hself
  · intro m hm r hr hround
    obtain ⟨d, rfl, hdd⟩ := exists_decimal_of_hasDigits hr
    exact hm.not_ge
      (length_digits_shortest_le h hx ((ofDecimal_eq_iff_isRounded h hx).2 hround) hdd)
  · intro r hr hround
    obtain ⟨d, rfl, hdd⟩ := exists_decimal_of_hasDigits hr
    have hd := (ofDecimal_eq_iff_isRounded h hx).2 hround
    rw [abs_toRat_sub hself, abs_toRat_sub hd]
    exact shortest_nearest h hx hd hdd

end ExprLexer.Binary64

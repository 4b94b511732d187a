import ExprLexer.Binary64.Rounding
import ExprLexer.Proofs.Binary64.Nearest
import ExprLexer.Proofs.Binary64.Value

namespace ExprLexer.Binary64

structure IsRounded (q : ℚ) (x : Binary64) : Prop where
  isNegative_iff : q ≠ 0 → (x.isNegative ↔ q < 0)
  notNaN : x.isNaN = false
  isInfinite_iff : x.isInfinite ↔ (2 : ℚ) ^ 1024 - 2 ^ 970 ≤ |q|
  nearest : x.isFinite → ∀ y : Binary64, y.isFinite → |x.toRat - q| ≤ |y.toRat - q|
  even_of_tie : x.isFinite → ∀ y : Binary64, y.isFinite → y.toRat ≠ x.toRat →
    |y.toRat - q| = |x.toRat - q| → x.significand % 2 = 0

variable {v : Fraction} (hd : 0 < v.den)

include hd

theorem le_midpoint (hfin : nearestMagnitude v < infinity) :
    v.toRat ≤ midpoint (nearestMagnitude v) ∧
      (v.toRat = midpoint (nearestMagnitude v) → nearestMagnitude v % 2 = 0) := by
  have h := mt (lt_nearestMagnitude_iff hd hfin).2 (lt_irrefl _)
  rw [RoundsBeyond, not_or, not_lt, not_and] at h
  exact ⟨h.1, fun he => by have := h.2 he.symm; omega⟩

theorem midpoint_le {m : Nat} (hm : m + 1 = nearestMagnitude v) :
    midpoint m ≤ v.toRat ∧ (midpoint m = v.toRat → nearestMagnitude v % 2 = 0) := by
  have hlt : m < nearestMagnitude v := hm ▸ Nat.lt_succ_self m
  have h := (lt_nearestMagnitude_iff hd (hlt.trans_le (nearestMagnitude_le_infinity v))).1 hlt
  rcases h with h | ⟨h, hodd⟩
  · exact ⟨h.le, fun he => absurd he h.ne⟩
  · exact ⟨h.le, fun _ => by omega⟩

/-- No magnitude is nearer than the one that a value is rounded to, and an equally near one lies
across a middle. -/
theorem nearestMagnitude_nearest (hfin : nearestMagnitude v < infinity) (k : Nat)
    (hk : k ≠ nearestMagnitude v) :
    |gridValue (nearestMagnitude v) - v.toRat| ≤ |gridValue k - v.toRat| ∧
      (|gridValue k - v.toRat| = |gridValue (nearestMagnitude v) - v.toRat| →
        nearestMagnitude v % 2 = 0) := by
  rcases lt_or_gt_of_ne hk with h | h
  · obtain ⟨m, hm⟩ := Nat.exists_eq_add_one.2 (Nat.zero_lt_of_lt h)
    obtain ⟨hle, htie⟩ := midpoint_le hd hm.symm
    have hgrid : gridValue k ≤ gridValue m := gridValue_strictMono.monotone (by omega)
    have hstep := gridValue_strictMono (Nat.lt_succ_self m)
    rw [midpoint, Nat.succ_eq_add_one, ← hm] at *
    have hside : 0 ≤ v.toRat - gridValue k := by linarith
    rw [abs_sub_comm (gridValue k), abs_of_nonneg hside]
    refine ⟨abs_le.2 ⟨by linarith, by linarith⟩, fun he => htie ?_⟩
    rcases abs_cases (gridValue (nearestMagnitude v) - v.toRat) with ⟨ha, -⟩ | ⟨ha, -⟩ <;> linarith
  · obtain ⟨hle, htie⟩ := le_midpoint hd hfin
    have hgrid : gridValue (nearestMagnitude v + 1) ≤ gridValue k :=
      gridValue_strictMono.monotone h
    have hstep := gridValue_strictMono (Nat.lt_succ_self (nearestMagnitude v))
    rw [midpoint, Nat.succ_eq_add_one] at *
    have hside : 0 ≤ gridValue k - v.toRat := by linarith
    rw [abs_of_nonneg hside]
    refine ⟨abs_le.2 ⟨by linarith, by linarith⟩, fun he => htie ?_⟩
    rcases abs_cases (gridValue (nearestMagnitude v) - v.toRat) with ⟨ha, -⟩ | ⟨ha, -⟩ <;> linarith

theorem nearestMagnitude_eq_zero_iff :
    nearestMagnitude v = 0 ↔ v.toRat ≤ 2 ^ (-1075 : ℤ) := by
  rw [← not_iff_not, not_le, ← ne_eq, ← Nat.pos_iff_ne_zero,
    lt_nearestMagnitude_iff_of_even hd (by decide) rfl, midpoint_zero]

theorem nearestMagnitude_lt_binade_iff :
    nearestMagnitude v < binade ↔ v.toRat < 2 ^ (-1022 : ℤ) - 2 ^ (-1075 : ℤ) := by
  rw [← not_iff_not, not_lt, not_lt, ← midpoint_last_subnormal,
    ← lt_nearestMagnitude_iff_of_odd hd (by decide) rfl]
  exact ⟨fun h => Nat.lt_of_lt_of_le (by decide) h, fun h => Nat.le_of_pred_lt h⟩

theorem nearestMagnitude_eq_infinity_iff :
    nearestMagnitude v = infinity ↔ (2 : ℚ) ^ 1024 - 2 ^ 970 ≤ v.toRat := by
  have hle := nearestMagnitude_le_infinity v
  rw [← midpoint_last_finite, ← lt_nearestMagnitude_iff_of_odd hd (by decide) rfl]
  exact ⟨fun h => Nat.lt_of_lt_of_le (by decide) h.ge,
    fun h => le_antisymm hle (Nat.le_of_pred_lt h)⟩

omit hd

variable (d : Decimal)

theorem nearestMagnitude_lt_signUnit (v : Fraction) : nearestMagnitude v < signUnit :=
  (nearestMagnitude_le_infinity v).trans_lt infinity_lt_signUnit

@[simp]
theorem magnitude_ofDecimal : (ofDecimal d).magnitude = nearestMagnitude d.toFraction :=
  magnitude_ofParts _ (nearestMagnitude_lt_signUnit _)

@[simp]
theorem isNegative_ofDecimal : (ofDecimal d).isNegative = d.negative :=
  isNegative_ofParts _ (nearestMagnitude_lt_signUnit _)

theorem toRat_ofDecimal : (ofDecimal d).toRat =
    signed d.negative (gridValue (nearestMagnitude d.toFraction)) := by
  rw [toRat_eq, isNegative_ofDecimal, magnitude_ofDecimal]

theorem gridValue_nearestMagnitude_zero {v : Fraction} (hd : 0 < v.den) (h : v.toRat = 0) :
    gridValue (nearestMagnitude v) = 0 := by
  rw [(nearestMagnitude_eq_zero_iff hd).2 (by rw [h]; positivity), gridValue_zero]

theorem isRounded_ofDecimal : IsRounded d.toRat (ofDecimal d) := by
  have hd := d.toFraction_den_pos
  have hnonneg := d.toFraction.toRat_nonneg
  have dist : |(ofDecimal d).toRat - d.toRat| =
      |gridValue (nearestMagnitude d.toFraction) - d.toFraction.toRat| := by
    rw [toRat_ofDecimal, Decimal.toRat, abs_signed_sub]
  have near (y : Binary64) :
      |gridValue y.magnitude - d.toFraction.toRat| ≤ |y.toRat - d.toRat| := by
    rw [y.toRat_eq]
    exact abs_sub_le_abs_signed_sub _ _ (gridValue_nonneg _) hnonneg
  have nearest (hfin : (ofDecimal d).isFinite) (y : Binary64) :
      |(ofDecimal d).toRat - d.toRat| ≤ |gridValue y.magnitude - d.toFraction.toRat| := by
    rw [dist]
    by_cases hy : y.magnitude = nearestMagnitude d.toFraction
    · rw [hy]
    · exact (nearestMagnitude_nearest hd (by simpa [isFinite] using hfin) _ hy).1
  refine ⟨?_, ?_, ?_, ?_, ?_⟩
  · intro hne
    have hpos : 0 < d.toFraction.toRat := by
      apply lt_of_le_of_ne hnonneg
      rintro h
      exact hne (by rw [← abs_eq_zero, d.abs_toRat, ← h])
    cases h : d.negative <;> simp [Decimal.toRat, h, signed, hpos, hpos.le]
  · simp [isNaN, nearestMagnitude_le_infinity]
  · rw [d.abs_toRat, ← nearestMagnitude_eq_infinity_iff hd]
    simp [isInfinite]
  · intro hfin y _
    exact (nearest hfin y).trans (near y)
  · intro hfin y _ hne htie
    rw [significand_mod_two, magnitude_ofDecimal]
    have htie' := le_antisymm ((near y).trans_eq htie) (nearest hfin y)
    by_cases hy : y.magnitude = nearestMagnitude d.toFraction
    · -- the same magnitude with the other sign is as near only where the signs do not matter
      apply absurd _ hne
      rw [dist, y.toRat_eq, Decimal.toRat, hy] at htie
      rw [y.toRat_eq, toRat_ofDecimal, hy]
      rcases eq_sign_of_abs_signed_sub (gridValue_nonneg _) hnonneg htie with h | h | h
      · rw [h]
      · simp [h, signed]
      · simp [gridValue_nearestMagnitude_zero hd h, signed]
    · rw [dist] at htie'
      exact (nearestMagnitude_nearest hd (by simpa [isFinite] using hfin) _ hy).2 htie'

theorem isFinite_iff (x : Binary64) : x.isFinite ↔ x.isNaN = false ∧ ¬ x.isInfinite := by
  simp only [isFinite, isNaN, isInfinite, decide_eq_true_eq, decide_eq_false_iff_not]
  omega

theorem isFinite_of_zero {x : Binary64} (h : x.magnitude = 0) : x.isFinite := by
  simp [isFinite, h, infinity]

theorem abs_sub_lt_of_between {a b c q : ℚ} (hab : a < b) (hbc : b < c)
    (h : |a - q| = |c - q|) : |b - q| < |a - q| := by
  rcases abs_eq_abs.1 h with h | h
  · linarith
  · have hside : a - q ≤ 0 := by linarith
    rw [abs_of_nonpos hside, abs_lt]
    constructor <;> linarith

/-- Of two magnitudes with the same sign as near to a number, one is odd or another is nearer. -/
theorem IsRounded.not_magnitude_lt {q : ℚ} {x y : Binary64} (hx : IsRounded q x)
    (hy : IsRounded q y) (hs : x.isNegative = y.isNegative) : ¬ x.magnitude < y.magnitude := by
  intro hlt
  have hyfin : y.isFinite := by
    rw [isFinite_iff, hy.isInfinite_iff, ← hx.isInfinite_iff]
    refine ⟨hy.notNaN, fun hinf => ?_⟩
    have hm : x.magnitude = infinity := by simpa [isInfinite] using hinf
    have hn := hy.notNaN
    simp only [isNaN, decide_eq_false_iff_not] at hn
    omega
  have hn : y.magnitude < infinity := by simpa [isFinite] using hyfin
  have hxfin : x.isFinite := decide_eq_true (hlt.trans hn)
  have hstrict := gridValue_strictMono hlt
  have hne : x.toRat ≠ y.toRat := by
    rw [x.toRat_eq, y.toRat_eq, hs]
    cases y.isNegative <;> simp [signed, hstrict.ne]
  have hdist := le_antisymm (hx.nearest hxfin y hyfin) (hy.nearest hyfin x hxfin)
  have hxeven := hx.even_of_tie hxfin y hyfin hne.symm hdist.symm
  have hyeven := hy.even_of_tie hyfin x hxfin hne hdist
  rw [significand_mod_two] at hxeven hyeven
  -- between two even magnitudes stands a third one
  have hbetween : x.magnitude + 1 < y.magnitude := by omega
  have hz : x.magnitude + 1 < signUnit := hbetween.trans (hn.trans infinity_lt_signUnit)
  have hnearer := hx.nearest hxfin (ofParts x.isNegative (x.magnitude + 1))
    (by simp [isFinite, hz, hbetween.trans hn])
  have hlow := gridValue_strictMono (Nat.lt_succ_self x.magnitude)
  have hhigh := gridValue_strictMono hbetween
  rw [x.toRat_eq, y.toRat_eq, ← hs, abs_signed_sub_left, abs_signed_sub_left] at hdist
  rw [toRat_eq, toRat_eq, isNegative_ofParts _ hz, magnitude_ofParts _ hz, abs_signed_sub_left,
    abs_signed_sub_left] at hnearer
  exact hnearer.not_gt (abs_sub_lt_of_between hlow hhigh hdist)

theorem IsRounded.unique {q : ℚ} {x y : Binary64} (hx : IsRounded q x) (hy : IsRounded q y)
    (hs : x.isNegative = y.isNegative) : x = y :=
  ext_parts hs (le_antisymm (not_lt.1 (hy.not_magnitude_lt hx hs.symm))
    (not_lt.1 (hx.not_magnitude_lt hy hs)))

end ExprLexer.Binary64

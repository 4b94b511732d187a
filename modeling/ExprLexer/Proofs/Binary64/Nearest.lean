import ExprLexer.Proofs.Binary64.Grid

namespace ExprLexer.Binary64

variable {v w : Fraction}

/-- Rounding takes place in one binade, on its grid of significands. -/
theorem exists_scaled (hn : 0 < v.num) (hd : 0 < v.den) : ∃ (s : Nat) (t : Fraction),
    0 < t.den ∧ v.toRat = t.toRat * 2 ^ (s - 1074 : ℤ) ∧ (s = 0 ∨ binade ≤ t.floor) ∧
      t.floor < 2 * binade ∧ nearestMagnitude v = min infinity (s * binade + t.roundHalfEven) := by
  have hlog := Fraction.log2_eq_log hn hd
  have hpos : 0 < v.toRat := (Fraction.toRat_pos_iff hd).2 hn
  have hle := Int.zpow_log_le_self one_lt_two hpos
  have hlt := Int.lt_zpow_succ_log_self one_lt_two v.toRat
  generalize Int.log 2 v.toRat = e at hlog hle hlt
  push_cast at hle hlt
  have hfinest : 0 ≤ max (e - 52) (-1074) + 1074 := by omega
  obtain ⟨s, hs⟩ := Int.eq_ofNat_of_zero_le hfinest
  have hscale : max (e - 52) (-1074) = s - 1074 := by omega
  have hden := Fraction.den_scale_pos hd two_pos (-(s - 1074 : ℤ))
  have hvalue : (v.scale 2 (-(s - 1074 : ℤ))).toRat * 2 ^ (s - 1074 : ℤ) = v.toRat := by
    rw [Fraction.toRat_scale _ two_pos, mul_assoc, Nat.cast_two, ← zpow_add₀ two_ne_zero]
    simp
  have hfloor := Fraction.floor_le hden
  have hceil := Fraction.lt_floor_add_one hden
  have hunit : (0 : ℚ) < 2 ^ (s - 1074 : ℤ) := by positivity
  refine ⟨s, v.scale 2 (-(s - 1074 : ℤ)), hden, hvalue.symm, ?_, ?_, ?_⟩
  · by_cases h : s = 0
    · exact .inl h
    · right
      have he : e = 52 + (s - 1074 : ℤ) := by omega
      rw [← hvalue, he, zpow_add₀ two_ne_zero, mul_le_mul_iff_left₀ hunit] at hle
      have hbinade : (2 : ℚ) ^ (52 : ℤ) = binade := by norm_num [binade]
      have hlow := hle.trans_lt hceil
      rw [hbinade] at hlow
      exact Nat.lt_succ_iff.1 (by exact_mod_cast hlow)
  · have he : e + 1 ≤ 53 + (s - 1074 : ℤ) := by omega
    have hbound := hlt.trans_le (zpow_le_zpow_right₀ one_le_two he)
    rw [← hvalue, zpow_add₀ two_ne_zero, mul_lt_mul_iff_left₀ hunit] at hbound
    have hbinade : (2 : ℚ) ^ (53 : ℤ) = (2 * binade : Nat) := by norm_num [binade]
    have hhigh := hfloor.trans_lt hbound
    rw [hbinade] at hhigh
    exact_mod_cast hhigh
  · rw [nearestMagnitude, if_neg hn.ne', hlog, hscale]
    simp

/-- The rule of rounding: it passes a magnitude if the value lies past the middle between it and the
next one, or in the middle and the magnitude is odd. -/
theorem lt_nearestMagnitude_iff (hd : 0 < v.den) {m : Nat} (hm : m < infinity) :
    m < nearestMagnitude v ↔ RoundsBeyond v.toRat m := by
  rcases Nat.eq_zero_or_pos v.num with hn | hn
  · have hzero : v.toRat ≤ gridValue 0 := by simp [Fraction.toRat, hn]
    rw [nearestMagnitude, if_pos hn]
    exact iff_of_false (Nat.not_lt_zero m)
      (not_roundsBeyond_of_le_gridValue hzero (Nat.zero_le m))
  · obtain ⟨s, t, ht, hvalue, hs, hlt, hround⟩ := exists_scaled hn hd
    have hunit : (0 : ℚ) < 2 ^ (s - 1074 : ℤ) := by positivity
    have hlow : gridValue (s * binade + t.floor) = t.floor * 2 ^ (s - 1074 : ℤ) :=
      gridValue_add s hs hlt.le
    have hhigh : gridValue (s * binade + t.floor + 1) = (t.floor + 1) * 2 ^ (s - 1074 : ℤ) := by
      rw [Nat.add_assoc, gridValue_add s (by omega) hlt]
      push_cast
      rfl
    have hfrom := t.floor_le_roundHalfEven
    have hto := t.roundHalfEven_le
    rw [hround, lt_min_iff, and_iff_right hm]
    rcases lt_trichotomy m (s * binade + t.floor) with h | rfl | h
    · refine iff_of_true (by omega) (roundsBeyond_of_gridValue_le ?_ h)
      rw [hlow, hvalue, mul_le_mul_iff_left₀ hunit]
      exact Fraction.floor_le ht
    · have hmid : midpoint (s * binade + t.floor) =
          (t.floor + 1 / 2) * 2 ^ (s - 1074 : ℤ) := by
        rw [midpoint, hlow, hhigh]
        ring
      have hparity : (s * binade + t.floor) % 2 = t.floor % 2 := by
        have heven : binade = 2 * (binade / 2) := rfl
        rw [heven, Nat.mul_left_comm, Nat.mul_add_mod]
      rw [RoundsBeyond, hmid, hvalue, hparity, mul_lt_mul_iff_left₀ hunit, mul_left_inj' hunit.ne',
        ← Fraction.floor_lt_roundHalfEven_iff ht, Nat.add_lt_add_iff_left]
    · refine iff_of_false (by omega) (not_roundsBeyond_of_le_gridValue ?_ h)
      rw [hhigh, hvalue, mul_le_mul_iff_left₀ hunit]
      exact (Fraction.lt_floor_add_one ht).le

theorem lt_nearestMagnitude_iff_of_odd (hd : 0 < v.den) {m : Nat} (hm : m < infinity)
    (hodd : m % 2 = 1) : m < nearestMagnitude v ↔ midpoint m ≤ v.toRat := by
  rw [lt_nearestMagnitude_iff hd hm, RoundsBeyond, and_iff_left hodd, le_iff_lt_or_eq]

theorem lt_nearestMagnitude_iff_of_even (hd : 0 < v.den) {m : Nat} (hm : m < infinity)
    (heven : m % 2 = 0) : m < nearestMagnitude v ↔ midpoint m < v.toRat := by
  rw [lt_nearestMagnitude_iff hd hm, RoundsBeyond, heven]
  simp

theorem nearestMagnitude_le_infinity (v : Fraction) : nearestMagnitude v ≤ infinity := by
  rw [nearestMagnitude]
  split
  · exact Nat.zero_le _
  · exact Nat.min_le_left _ _

theorem nearestMagnitude_mono (hv : 0 < v.den) (hw : 0 < w.den) (h : v.toRat ≤ w.toRat) :
    nearestMagnitude v ≤ nearestMagnitude w := by
  by_contra hlt
  rw [not_le] at hlt
  have hm := hlt.trans_le (nearestMagnitude_le_infinity v)
  have := (lt_nearestMagnitude_iff hw hm).2 (((lt_nearestMagnitude_iff hv hm).1 hlt).mono h)
  exact lt_irrefl _ this

theorem nearestMagnitude_congr (hv : 0 < v.den) (hw : 0 < w.den) (h : v.toRat = w.toRat) :
    nearestMagnitude v = nearestMagnitude w :=
  le_antisymm (nearestMagnitude_mono hv hw h.le) (nearestMagnitude_mono hw hv h.ge)

theorem nearestMagnitude_gridValue (hv : 0 < v.den) {m : Nat} (hm : m ≤ infinity)
    (h : v.toRat = gridValue m) : nearestMagnitude v = m := by
  apply le_antisymm
  · by_contra hlt
    rw [not_le] at hlt
    have hfin := hlt.trans_le (nearestMagnitude_le_infinity v)
    exact not_roundsBeyond_of_le_gridValue h.le le_rfl ((lt_nearestMagnitude_iff hv hfin).1 hlt)
  · by_contra hlt
    rw [not_le] at hlt
    have hfin := hlt.trans_le hm
    exact lt_irrefl _ ((lt_nearestMagnitude_iff hv hfin).2 (roundsBeyond_of_gridValue_le h.ge hlt))

end ExprLexer.Binary64

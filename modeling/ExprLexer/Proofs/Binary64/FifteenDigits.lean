import ExprLexer.Proofs.Binary64.FewestDigits

namespace ExprLexer.Binary64

open Decimal (HasDigits)

variable {x : Binary64} {d e : Decimal}

/-- Around a number with a full significand, fifteen digits tell more than its neighbours do. -/
theorem gridValue_width {k : Nat} (hk : binade ≤ k + 1) :
    10 ^ 15 * (gridValue (k + 2) - gridValue k) ≤ gridValue k := by
  obtain ⟨s, n, rfl, hs, hn⟩ := exists_significand k
  have hunit : (0 : ℚ) < 2 ^ (s - 1074 : ℤ) := by positivity
  have hlow := gridValue_add s hs hn.le
  have hhigh : gridValue (s * binade + n + 2) ≤ (n + 3) * 2 ^ (s - 1074 : ℤ) := by
    rcases Nat.lt_or_eq_of_le (Nat.succ_le_of_lt hn) with hlt | heq
    · rw [Nat.add_assoc, gridValue_add s (by omega) hlt]
      push_cast
      exact mul_le_mul_of_nonneg_right (by linarith) hunit.le
    · -- the significand is the last one of its binade, and the next steps are twice as long
      have hsum : s * binade + n + 2 = (s + 1) * binade + (binade + 1) := by
        rw [Nat.add_one_mul]
        omega
      have hexponent : ((s + 1 : Nat) - 1074 : ℤ) = (s - 1074 : ℤ) + 1 := by
        push_cast
        ring
      have hlast : (n : ℚ) = 2 * binade - 1 := by
        have : n + 1 = 2 * binade := heq
        rw [eq_sub_iff_add_eq]
        exact_mod_cast this
      rw [hsum, gridValue_add (s + 1) (by omega) (by decide), hexponent,
        zpow_add_one₀ two_ne_zero, hlast]
      push_cast
      exact le_of_eq (by ring)
  have hfull : (3 * 10 ^ 15 : ℚ) ≤ n := by
    have hbinade : 3 * 10 ^ 15 ≤ binade - 1 := by decide
    have hle : binade - 1 ≤ n := by
      rcases hs with rfl | hs <;> omega
    exact_mod_cast hbinade.trans hle
  calc 10 ^ 15 * (gridValue (s * binade + n + 2) - gridValue (s * binade + n))
      ≤ 10 ^ 15 * ((n + 3) * 2 ^ (s - 1074 : ℤ) - n * 2 ^ (s - 1074 : ℤ)) := by
        rw [hlow]
        gcongr
    _ = 3 * 10 ^ 15 * 2 ^ (s - 1074 : ℤ) := by ring
    _ ≤ n * 2 ^ (s - 1074 : ℤ) := mul_le_mul_of_nonneg_right hfull hunit.le
    _ = gridValue (s * binade + n) := hlow.symm

theorem toRat_between_of_ofDecimal (h : x.isFinite) {k : Nat} (hk : k + 1 = x.magnitude)
    (hd : ofDecimal d = x) :
    gridValue k < d.toFraction.toRat ∧ d.toFraction.toRat < gridValue (k + 2) := by
  have hm : nearestMagnitude d.toFraction = k + 1 := by
    rw [← magnitude_ofDecimal, hd, hk]
  have hfin : nearestMagnitude d.toFraction < infinity := by
    rw [hm, hk]
    exact of_decide_eq_true h
  have hhigh := (le_midpoint d.toFraction_den_pos hfin).1
  rw [hm] at hhigh
  exact ⟨(gridValue_lt_midpoint k).trans_le (midpoint_le d.toFraction_den_pos hm.symm).1,
    hhigh.trans_lt (midpoint_lt_gridValue (k + 1))⟩

theorem not_lt_of_fifteen_digits (h : x.isFinite) (hnormal : binade ≤ x.magnitude)
    (hd : ofDecimal d = x) (he : ofDecimal e = x) (hdd : HasDigits 15 d.toFraction.toRat)
    (hde : HasDigits 15 e.toFraction.toRat) : ¬ d.toFraction.toRat < e.toFraction.toRat := by
  intro hlt
  obtain ⟨k, hk⟩ := Nat.exists_eq_add_one.2 (binade_pos.trans_le hnormal)
  have hlow := (toRat_between_of_ofDecimal h hk.symm hd).1
  have hhigh := (toRat_between_of_ofDecimal h hk.symm he).2
  have hwidth := gridValue_width (hnormal.trans_eq hk)
  have hfar := hdd.lt_mul_sub hde hlt
  linarith

theorem toRat_eq_of_fifteen_digits (h : x.isFinite) (hnormal : binade ≤ x.magnitude)
    (hd : ofDecimal d = x) (he : ofDecimal e = x) (hdd : HasDigits 15 d.toFraction.toRat)
    (hde : HasDigits 15 e.toFraction.toRat) : d.toFraction.toRat = e.toFraction.toRat :=
  le_antisymm (not_lt.1 (not_lt_of_fifteen_digits h hnormal he hd hde hdd))
    (not_lt.1 (not_lt_of_fifteen_digits h hnormal hd he hdd hde))

/-- A decimal of fifteen digits or fewer is the shortest one of the number it is rounded to. -/
theorem toRat_shortest_of_fifteen_digits (h : x.isFinite) (hnormal : binade ≤ x.magnitude)
    (hd : ofDecimal d = x) (hdd : HasDigits 15 d.toFraction.toRat) :
    x.shortest.toFraction.toRat = d.toFraction.toRat := by
  have hx : x.magnitude ≠ 0 := (binade_pos.trans_le hnormal).ne'
  have hfew := length_digits_shortest_le h hx hd hdd
  rw [Decimal.length_digits_le_iff] at hfew
  exact toRat_eq_of_fifteen_digits h hnormal (ofDecimal_shortest h) hd hfew hdd

end ExprLexer.Binary64

import ExprLexer.Proofs.Binary64.Grid

namespace ExprLexer

def signed (negative : Bool) (q : ℚ) : ℚ := if negative then -q else q

theorem abs_signed_sub (negative : Bool) (q r : ℚ) :
    |signed negative q - signed negative r| = |q - r| := by
  cases negative with
  | false => rfl
  | true =>
      change |-q - -r| = |q - r|
      rw [neg_sub_neg, abs_sub_comm]

theorem abs_signed_sub_left (negative : Bool) (q r : ℚ) :
    |signed negative q - r| = |q - signed negative r| := by
  cases negative with
  | false => rfl
  | true =>
      change |-q - r| = |q - -r|
      rw [← abs_neg]
      ring_nf

theorem abs_sub_le_abs_signed_sub (s t : Bool) {q r : ℚ} (hq : 0 ≤ q) (hr : 0 ≤ r) :
    |q - r| ≤ |signed s q - signed t r| := by
  have hsum : |q - r| ≤ |q + r| := by
    rw [abs_of_nonneg (add_nonneg hq hr)]
    exact abs_le.2 ⟨by linarith, by linarith⟩
  cases s <;> cases t
  · exact le_rfl
  · simpa [signed] using hsum
  · have h : signed true q - signed false r = -(q + r) := by
      change -q - r = -(q + r)
      ring
    rw [h, abs_neg]
    exact hsum
  · exact (abs_signed_sub true q r).ge

theorem eq_sign_of_abs_signed_sub {s t : Bool} {q r : ℚ} (hq : 0 ≤ q) (hr : 0 ≤ r)
    (h : |signed s q - signed t r| = |q - r|) : s = t ∨ q = 0 ∨ r = 0 := by
  by_cases hst : s = t
  · exact .inl hst
  · have hsum : |signed s q - signed t r| = q + r := by
      rw [← abs_of_nonneg (add_nonneg hq hr)]
      cases s <;> cases t
      · exact absurd rfl hst
      · simp [signed]
      · rw [← abs_neg]
        simp [signed, add_comm]
      · exact absurd rfl hst
    rw [hsum] at h
    right
    rcases abs_cases (q - r) with ⟨ha, -⟩ | ⟨ha, -⟩
    · exact .inr (by linarith)
    · exact .inl (by linarith)

@[simp]
theorem abs_signed (negative : Bool) (q : ℚ) : |signed negative q| = |q| := by
  cases negative <;> simp [signed]

namespace Decimal

def toRat (d : Decimal) : ℚ := signed d.negative d.toFraction.toRat

theorem toFraction_den_pos (d : Decimal) : 0 < d.toFraction.den :=
  Fraction.den_scale_pos Nat.one_pos (by decide) _

theorem toRat_toFraction (d : Decimal) :
    d.toFraction.toRat = d.coefficient * 10 ^ d.exponent := by
  rw [toFraction, Fraction.toRat_scale _ (by decide), Fraction.toRat_ofNat]
  norm_num

theorem abs_toRat (d : Decimal) : |d.toRat| = d.toFraction.toRat := by
  rw [toRat, abs_signed, abs_of_nonneg (Fraction.toRat_nonneg _)]

end Decimal

namespace Binary64

def toRat (x : Binary64) : ℚ := signed x.isNegative x.toFraction.toRat

theorem bits_lt (x : Binary64) : x.bits.toNat < 2 * signUnit := x.bits.toNat_lt

theorem magnitude_lt (x : Binary64) : x.magnitude < signUnit := Nat.mod_lt _ (by decide)

theorem bits_eq (x : Binary64) :
    x.bits.toNat = (if x.isNegative then signUnit else 0) + x.magnitude := by
  have hlt := x.bits_lt
  rw [isNegative, magnitude]
  by_cases h : signUnit ≤ x.bits.toNat
  · have hmod : x.bits.toNat % signUnit = x.bits.toNat - signUnit := by
      rw [Nat.mod_eq_sub_mod h, Nat.mod_eq_of_lt (by omega)]
    simp only [h, decide_true, if_true, hmod]
    omega
  · simp [h, Nat.mod_eq_of_lt (not_le.1 h)]

theorem ext_parts {x y : Binary64} (hs : x.isNegative = y.isNegative)
    (hm : x.magnitude = y.magnitude) : x = y := by
  have h : x.bits.toNat = y.bits.toNat := by rw [x.bits_eq, y.bits_eq, hs, hm]
  cases x
  cases y
  exact congrArg mk (UInt64.toNat.inj h)

variable (negative : Bool) {m : Nat}

theorem bits_ofParts (h : m < signUnit) :
    (ofParts negative m).bits.toNat = (if negative then signUnit else 0) + m := by
  have hsize : 2 ^ 64 = 2 * signUnit := by decide
  cases negative <;> simp [ofParts] <;> omega

@[simp]
theorem magnitude_ofParts (h : m < signUnit) : (ofParts negative m).magnitude = m := by
  rw [magnitude, bits_ofParts negative h]
  cases negative <;> simp [Nat.mod_eq_of_lt h]

@[simp]
theorem isNegative_ofParts (h : m < signUnit) : (ofParts negative m).isNegative = negative := by
  rw [isNegative, bits_ofParts negative h]
  cases negative <;> simp [h]

theorem ofParts_self (x : Binary64) : ofParts x.isNegative x.magnitude = x :=
  ext_parts (isNegative_ofParts _ x.magnitude_lt) (magnitude_ofParts _ x.magnitude_lt)

theorem infinity_lt_signUnit : infinity < signUnit := by decide

theorem toRat_toFraction (x : Binary64) : x.toFraction.toRat = gridValue x.magnitude := by
  rw [toFraction, Fraction.toRat_scale _ two_pos, Fraction.toRat_ofNat, significand, scale,
    gridValue]
  push_cast
  rfl

theorem toRat_eq (x : Binary64) : x.toRat = signed x.isNegative (gridValue x.magnitude) := by
  rw [toRat, toRat_toFraction]

theorem abs_toRat (x : Binary64) : |x.toRat| = gridValue x.magnitude := by
  rw [toRat_eq, abs_signed, abs_of_nonneg (gridValue_nonneg _)]

theorem significand_mod_two (x : Binary64) : x.significand % 2 = x.magnitude % 2 := by
  have hbinade : binade = 2 * (binade / 2) := rfl
  rw [significand]
  split
  · rfl
  · rw [Nat.add_mod, Nat.mod_mod_of_dvd _ ⟨_, hbinade⟩]
    simp [binade]

end Binary64
end ExprLexer

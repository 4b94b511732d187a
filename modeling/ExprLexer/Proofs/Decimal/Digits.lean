import ExprLexer.Proofs.Decimal.Numeral

namespace ExprLexer.Decimal

variable (d : Decimal)

theorem toDigits_eq_digits_append :
    ∃ k, Nat.toDigits 10 d.coefficient = d.digits ++ List.replicate k '0' := by
  let reversed := (Nat.toDigits 10 d.coefficient).reverse
  refine ⟨(reversed.takeWhile (· = '0')).length, ?_⟩
  have hsplit := congrArg List.reverse (List.takeWhile_append_dropWhile (p := (· = '0'))
    (l := reversed))
  have hzeros : (reversed.takeWhile (· = '0')).reverse =
      List.replicate (reversed.takeWhile (· = '0')).length '0' := by
    apply List.eq_replicate_iff.2
    constructor
    · exact List.length_reverse
    · intro c hc
      simpa using List.all_eq_true.1 List.all_takeWhile c (List.mem_reverse.1 hc)
  rw [List.reverse_append, hzeros, List.reverse_reverse] at hsplit
  exact hsplit.symm

theorem isDigit_of_mem_digits : ∀ c ∈ d.digits, c.isDigit := by
  intro c hc
  obtain ⟨k, hk⟩ := d.toDigits_eq_digits_append
  apply Nat.isDigit_of_mem_toDigits (by decide) (le_refl 10)
  rw [hk]
  exact List.mem_append_left _ hc

theorem coefficient_eq {k : Nat}
    (hk : Nat.toDigits 10 d.coefficient = d.digits ++ List.replicate k '0') :
    d.coefficient = ofNumeral d.digits * 10 ^ k := by
  have h := congrArg ofNumeral hk
  rwa [ofNumeral_toDigits, ofNumeral_append, ofNumeral_zeros, List.length_replicate,
    Nat.add_zero] at h

theorem digits_ne_nil (h : d.coefficient ≠ 0) : d.digits ≠ [] := by
  intro hnil
  obtain ⟨k, hk⟩ := d.toDigits_eq_digits_append
  apply h
  rw [d.coefficient_eq hk, hnil, ofNumeral_nil, Nat.zero_mul]

theorem toRat_toFraction_digits : d.toFraction.toRat =
    ofNumeral d.digits * 10 ^ (d.leadingExponent + 1 - d.digits.length) := by
  obtain ⟨k, hk⟩ := d.toDigits_eq_digits_append
  have hcoefficient := d.coefficient_eq hk
  rw [toRat_toFraction]
  by_cases h : d.coefficient = 0
  · have hdigits : ofNumeral d.digits = 0 := by
      rw [hcoefficient, Nat.mul_eq_zero] at h
      exact h.resolve_right (by positivity)
    rw [h, hdigits, Nat.cast_zero, zero_mul, zero_mul]
  · have hleading : d.leadingExponent + 1 - d.digits.length = k + d.exponent := by
      rw [leadingExponent, if_neg h, hk, List.length_append, List.length_replicate]
      push_cast
      ring
    rw [hleading, zpow_add₀ (by norm_num), zpow_natCast, hcoefficient]
    push_cast
    ring

theorem leadingExponent_spec (h : d.coefficient ≠ 0) :
    10 ^ d.leadingExponent ≤ d.toFraction.toRat ∧
      d.toFraction.toRat < 10 ^ (d.leadingExponent + 1) := by
  obtain ⟨n, hn⟩ := Nat.exists_eq_add_one.2 (Nat.length_toDigits_pos (b := 10) (n := d.coefficient))
  have hunit : (0 : ℚ) < 10 ^ d.exponent := by positivity
  have hleading : d.leadingExponent = n + d.exponent := by
    rw [leadingExponent, if_neg h, hn]
    push_cast
    ring
  have hnext : d.leadingExponent + 1 = (n + 1 : Nat) + d.exponent := by
    rw [hleading]
    omega
  have hten : (10 : ℚ) ≠ 0 := by norm_num
  rw [toRat_toFraction, hnext, hleading, zpow_add₀ hten, zpow_add₀ hten, zpow_natCast, zpow_natCast,
    mul_le_mul_iff_left₀ hunit, mul_lt_mul_iff_left₀ hunit]
  constructor
  · cases n with
    | zero =>
        rw [pow_zero]
        exact_mod_cast Nat.pos_of_ne_zero h
    | succ n =>
        have hle := mt (Nat.length_toDigits_le_iff (n := d.coefficient) (b := 10) (by decide)
          (Nat.succ_pos n)).2 (by omega)
        exact_mod_cast not_lt.1 hle
  · exact_mod_cast (Nat.length_toDigits_le_iff (by decide) (Nat.succ_pos n)).1 hn.le

end ExprLexer.Decimal

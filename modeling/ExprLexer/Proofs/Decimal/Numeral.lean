import ExprLexer.Decimal.Notation
import ExprLexer.Proofs.Binary64.Value

namespace ExprLexer.Decimal

theorem ofNumeral_append (a b : List Char) :
    ofNumeral (a ++ b) = ofNumeral a * 10 ^ b.length + ofNumeral b := by
  rw [ofNumeral, Nat.ofDigitChars_append, Nat.ofDigitChars_eq_ofDigitChars_zero, Nat.mul_comm]
  rfl

@[simp]
theorem ofNumeral_nil : ofNumeral [] = 0 := rfl

@[simp]
theorem ofNumeral_zeros (n : Nat) : ofNumeral (List.replicate n '0') = 0 := by
  simp [ofNumeral]

theorem ofNumeral_zeros_append (n : Nat) (digits : List Char) :
    ofNumeral (List.replicate n '0' ++ digits) = ofNumeral digits := by
  rw [ofNumeral_append, ofNumeral_zeros, Nat.zero_mul, Nat.zero_add]

@[simp]
theorem ofNumeral_toDigits (n : Nat) : ofNumeral (Nat.toDigits 10 n) = n :=
  Nat.ofDigitChars_ten_toDigits

def pointedValue (whole fraction : List Char) : ℚ :=
  ofNumeral whole + ofNumeral fraction / 10 ^ fraction.length

theorem pointedValue_eq (whole fraction : List Char) : pointedValue whole fraction =
    ofNumeral (whole ++ fraction) * 10 ^ (-fraction.length : ℤ) := by
  have hpow : (10 : ℚ) ^ fraction.length ≠ 0 := by positivity
  rw [pointedValue, ofNumeral_append, zpow_neg, zpow_natCast]
  push_cast
  field_simp

theorem toRat_toFraction_pointed (negative : Bool) (whole fraction : List Char) :
    (toFraction ⟨negative, ofNumeral (whole ++ fraction), -fraction.length⟩).toRat =
      pointedValue whole fraction := by
  rw [toRat_toFraction, pointedValue_eq]

end ExprLexer.Decimal

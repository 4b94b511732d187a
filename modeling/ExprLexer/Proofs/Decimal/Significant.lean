import ExprLexer.Proofs.Decimal.Digits
import Mathlib.Data.List.DropRight

namespace ExprLexer.Decimal

/-- The number is written with `n` digits or fewer, and zeros that only move them. -/
def HasDigits (n : Nat) (q : ℚ) : Prop := ∃ (m : Nat) (e : ℤ), m < 10 ^ n ∧ q = m * 10 ^ e

theorem ten_zpow_pos (e : ℤ) : (0 : ℚ) < 10 ^ e := by positivity

theorem hasDigits_of_le {n m : Nat} (hn : 0 < n) (hm : m ≤ 10 ^ n) (e : ℤ) :
    HasDigits n (m * 10 ^ e) := by
  rcases hm.lt_or_eq with hlt | rfl
  · exact ⟨m, e, hlt, rfl⟩
  · refine ⟨1, n + e, Nat.one_lt_pow hn.ne' (by decide), ?_⟩
    rw [zpow_add₀ (by norm_num), zpow_natCast]
    push_cast
    ring

theorem natCast_mul_ten_zpow (m : Nat) {e f : ℤ} (h : f ≤ e) :
    (m * 10 ^ e : ℚ) = (m * 10 ^ (e - f).toNat : Nat) * 10 ^ f := by
  have hexponent : e = (e - f).toNat + f := by omega
  conv_lhs => rw [hexponent, zpow_add₀ (by norm_num), zpow_natCast]
  push_cast
  ring

theorem ten_zpow_le_sub {a b : Nat} {e : ℤ} (h : (a * 10 ^ e : ℚ) < b * 10 ^ e) :
    (10 ^ e : ℚ) ≤ b * 10 ^ e - a * 10 ^ e := by
  have hunit := ten_zpow_pos e
  rw [mul_lt_mul_iff_left₀ hunit] at h
  have hstep : (a + 1 : ℚ) ≤ b := by exact_mod_cast Nat.succ_le_of_lt (by exact_mod_cast h)
  have := mul_le_mul_of_nonneg_right hstep hunit.le
  linarith

/-- Both numbers stand on the finer of their grids, and one of them has few digits there. -/
theorem HasDigits.lt_mul_sub {n : Nat} {p q : ℚ} (hp : HasDigits n p) (hq : HasDigits n q)
    (h : p < q) : p < 10 ^ n * (q - p) := by
  obtain ⟨a, e, ha, rfl⟩ := hp
  obtain ⟨b, f, hb, rfl⟩ := hq
  have bound {m : Nat} (hm : m < 10 ^ n) (g : ℤ) : (m * 10 ^ g : ℚ) < 10 ^ n * 10 ^ g :=
    mul_lt_mul_of_pos_right (by exact_mod_cast hm) (ten_zpow_pos g)
  have hscale : (0 : ℚ) < 10 ^ n := by positivity
  rcases le_total e f with hef | hfe
  · have hstep : (10 ^ e : ℚ) ≤ b * 10 ^ f - a * 10 ^ e := by
      rw [natCast_mul_ten_zpow b hef] at h ⊢
      exact ten_zpow_le_sub h
    exact (bound ha e).trans_le (mul_le_mul_of_nonneg_left hstep hscale.le)
  · have hstep : (10 ^ f : ℚ) ≤ b * 10 ^ f - a * 10 ^ e := by
      rw [natCast_mul_ten_zpow a hfe] at h ⊢
      exact ten_zpow_le_sub h
    exact h.trans ((bound hb f).trans_le (mul_le_mul_of_nonneg_left hstep hscale.le))

theorem toNat_digit_lt {c : Char} (h : c.isDigit) : c.toNat - '0'.toNat < 10 := by
  obtain ⟨-, hle⟩ := Char.isDigit_iff_toNat.1 h
  have hnine : '9'.toNat = '0'.toNat + 9 := rfl
  omega

theorem ofNumeral_cons (c : Char) (digits : List Char) :
    ofNumeral (c :: digits) = (c.toNat - '0'.toNat) * 10 ^ digits.length + ofNumeral digits := by
  have h := ofNumeral_append [c] digits
  rw [List.singleton_append] at h
  rw [h, ofNumeral, Nat.ofDigitChars_cons, Nat.ofDigitChars_nil, Nat.mul_zero, Nat.zero_add]

theorem ofNumeral_lt {digits : List Char} (hd : ∀ c ∈ digits, c.isDigit) :
    ofNumeral digits < 10 ^ digits.length := by
  induction digits with
  | nil => exact Nat.one_pos
  | cons c digits ih =>
      have hc := toNat_digit_lt (hd c List.mem_cons_self)
      have hrest := ih fun d hd' => hd d (List.mem_cons_of_mem c hd')
      rw [ofNumeral_cons, List.length_cons, Nat.pow_succ]
      have := Nat.mul_le_mul_right (10 ^ digits.length) (Nat.succ_le_of_lt hc)
      rw [Nat.succ_mul] at this
      omega

def significant (digits : List Char) : List Char :=
  (digits.dropWhile (· = '0')).rdropWhile (· = '0')

theorem takeWhile_zero (digits : List Char) : digits.takeWhile (· = '0') =
    List.replicate (digits.takeWhile (· = '0')).length '0' := by
  rw [List.eq_replicate_iff]
  exact ⟨rfl, fun c hc => by simpa using List.mem_takeWhile_imp hc⟩

theorem rtakeWhile_zero (digits : List Char) : digits.rtakeWhile (· = '0') =
    List.replicate (digits.rtakeWhile (· = '0')).length '0' := by
  rw [List.eq_replicate_iff]
  exact ⟨rfl, fun c hc => by simpa using List.mem_rtakeWhile_imp hc⟩

theorem dropWhile_zeros (n : Nat) (digits : List Char) :
    (List.replicate n '0' ++ digits).dropWhile (· = '0') = digits.dropWhile (· = '0') :=
  List.dropWhile_append_of_pos (by simp)

theorem rdropWhile_zeros (digits : List Char) (n : Nat) :
    (digits ++ List.replicate n '0').rdropWhile (· = '0') = digits.rdropWhile (· = '0') := by
  rw [List.rdropWhile, List.rdropWhile, List.reverse_append, List.reverse_replicate, dropWhile_zeros]

theorem exists_zeros_append_significant (digits : List Char) : ∃ j k,
    digits = List.replicate j '0' ++ (significant digits ++ List.replicate k '0') := by
  refine ⟨(digits.takeWhile (· = '0')).length,
    ((digits.dropWhile (· = '0')).rtakeWhile (· = '0')).length, ?_⟩
  rw [significant, ← rtakeWhile_zero, List.rdropWhile_append_rtakeWhile, ← takeWhile_zero,
    List.takeWhile_append_dropWhile]

theorem hasDigits_ofNumeral {n : Nat} {digits : List Char} (hd : ∀ c ∈ digits, c.isDigit)
    (h : (significant digits).length ≤ n) (e : ℤ) : HasDigits n (ofNumeral digits * 10 ^ e) := by
  obtain ⟨j, k, hsplit⟩ := exists_zeros_append_significant digits
  have hvalue : ofNumeral digits = ofNumeral (significant digits) * 10 ^ k := by
    conv_lhs => rw [hsplit]
    simp [ofNumeral_append]
  have hdigits : ∀ c ∈ significant digits, c.isDigit := by
    intro c hc
    apply hd
    rw [hsplit]
    exact List.mem_append_right _ (List.mem_append_left _ hc)
  refine ⟨ofNumeral (significant digits), k + e,
    (ofNumeral_lt hdigits).trans_le (Nat.pow_le_pow_right (by decide) h), ?_⟩
  rw [hvalue, zpow_add₀ (by norm_num), zpow_natCast]
  push_cast
  ring

end ExprLexer.Decimal

import ExprLexer.Proofs.Binary64.FifteenDigits
import ExprLexer.Proofs.Decimal.Canonical
import ExprLexer.Proofs.NumberText

namespace ExprLexer

open Decimal (pointedValue)

namespace Binary64

variable {x : Binary64} {a b : List Char}

theorem isFinite_of_toRat_le {d : Decimal}
    (h : d.toFraction.toRat ≤ (2 ^ 53 - 1) * 2 ^ 971) : (ofDecimal d).isFinite := by
  have htop : (2 : ℚ) ^ 1024 = 2 ^ 970 * 2 ^ 54 := pow_add 2 970 54
  have hunit : (2 : ℚ) ^ 971 = 2 ^ 970 * 2 := pow_succ 2 970
  have hpos : (0 : ℚ) < 2 ^ 970 := by positivity
  have hne : nearestMagnitude d.toFraction ≠ infinity := by
    rw [ne_eq, nearestMagnitude_eq_infinity_iff d.toFraction_den_pos, not_le, htop]
    rw [hunit] at h
    generalize (2 : ℚ) ^ 970 = unit at h hpos
    norm_num at h ⊢
    linarith
  rw [isFinite, magnitude_ofDecimal, decide_eq_true_eq]
  exact (nearestMagnitude_le_infinity _).lt_of_ne hne

theorem binade_le_of_le_toRat {d : Decimal} (h : 2 ^ (-1022 : ℤ) ≤ d.toFraction.toRat) :
    binade ≤ (ofDecimal d).magnitude := by
  have hunit : (0 : ℚ) < 2 ^ (-1075 : ℤ) := by positivity
  rw [magnitude_ofDecimal, ← not_lt, nearestMagnitude_lt_binade_iff d.toFraction_den_pos, not_lt]
  linarith

theorem toRat_shortest_ofPointed (hda : Decimal.AreDigits a) (hdb : Decimal.AreDigits b)
    (hshort : (Decimal.significant (a ++ b)).length ≤ 15)
    (hrange : pointedValue a b = 0 ∨
      2 ^ (-1022 : ℤ) ≤ pointedValue a b ∧ pointedValue a b ≤ (2 ^ 53 - 1) * 2 ^ 971) :
    (ofPointed a b).isFinite ∧
      (ofPointed a b).shortest.toFraction.toRat = pointedValue a b := by
  rcases hrange with h | ⟨hlow, hhigh⟩
  · have hm : (ofPointed a b).magnitude = 0 := by
      rw [magnitude_ofPointed_eq_zero_iff, h]
      positivity
    refine ⟨isFinite_of_zero hm, ?_⟩
    rw [shortest_of_zero hm, Decimal.toRat_toFraction, h, Nat.cast_zero, zero_mul]
  · rw [← Decimal.toRat_toFraction_pointed false] at hlow hhigh ⊢
    have hfin := isFinite_of_toRat_le hhigh
    refine ⟨hfin, toRat_shortest_of_fifteen_digits hfin (binade_le_of_le_toRat hlow) rfl ?_⟩
    rw [Decimal.toRat_toFraction]
    exact Decimal.hasDigits_ofNumeral (hda.append hdb) hshort _

end Binary64

open Binary64

/-- A literal of at most fifteen significant digits, zero or in the range of full significands, is printed
with exactly its value. Where no exponent is needed, it is printed as it was written, but for superfluous
zeros at both ends. -/
theorem run_short_literal (name : String) {a b : List Char} (ha : a ≠ [])
    (hda : ∀ c ∈ a, c.isDigit) (hdb : ∀ c ∈ b, c.isDigit)
    (hshort : (Decimal.significant (a ++ b)).length ≤ 15)
    (hrange : pointedValue a b = 0 ∨
      2 ^ (-1022 : ℤ) ≤ pointedValue a b ∧ pointedValue a b ≤ (2 ^ 53 - 1) * 2 ^ 971) :
    ∃ (x : Binary64) (token : Token), run (pointedSource name a b) = .ok [token] ∧
      token.kind = .float ∧ token.value = some (.float x) ∧
      token.toText = "FLOAT:" ++ (Number.float x).toText ∧
      (∃ d, Decimal.read? (Number.float x).toText.toList = some d ∧ d.toRat = pointedValue a b) ∧
      (pointedValue a b = 0 ∨ 1 / 10 ^ 4 ≤ pointedValue a b ∧ pointedValue a b < 10 ^ 16 →
        (Number.float x).toText.toList = Decimal.canonical a b) := by
  obtain ⟨hfin, hvalue⟩ := toRat_shortest_ofPointed hda hdb hshort hrange
  have hs : (ofPointed a b).shortest.negative = false := by
    rw [negative_shortest hfin, isNegative_ofPointed]
  have htext : (Number.float (ofPointed a b)).toText.toList = (ofPointed a b).shortest.write := by
    rw [Number.toText, String.toList_ofList]
    exact write_of_isFinite hfin
  refine ⟨ofPointed a b, _, run_pointedSource name ha hda hdb, rfl, rfl, rfl, ?_, ?_⟩
  · obtain ⟨d, hread, hd, hdvalue⟩ := (ofPointed a b).shortest.read?_write
    refine ⟨d, by rw [htext, hread], ?_⟩
    rw [Decimal.toRat, hd, hs, hdvalue, hvalue]
    rfl
  · intro hplain
    rw [htext]
    refine Decimal.write_eq_canonical hs (Decimal.isPositional_of_toRat _ ?_) hda hdb hvalue
    rw [hvalue]
    norm_num at hplain ⊢
    exact hplain

theorem run_short_literal_trimmed : ∃ token : Token,
    run (pointedSource "calc" "007".toList "50".toList) = .ok [token] ∧
      token.toText = "FLOAT:7.5" := by
  have hvalue : pointedValue "007".toList "50".toList = 15 / 2 := by
    have hwhole : Decimal.ofNumeral "007".toList = 7 := by decide
    have hfraction : Decimal.ofNumeral "50".toList = 50 := by decide
    have hlength : "50".toList.length = 2 := by decide
    rw [pointedValue, hwhole, hfraction, hlength]
    norm_num
  have hlow : (2 : ℚ) ^ (-1022 : ℤ) ≤ 15 / 2 :=
    (zpow_le_one_of_nonpos₀ one_le_two (by decide)).trans (by norm_num)
  have hhigh : (15 / 2 : ℚ) ≤ (2 ^ 53 - 1) * 2 ^ 971 := by
    have hgreat : (15 / 2 : ℚ) ≤ 2 ^ 53 - 1 := by norm_num
    exact hgreat.trans (le_mul_of_one_le_right (by norm_num) (one_le_pow₀ one_le_two))
  obtain ⟨x, token, hrun, -, -, htext, -, hcanonical⟩ := run_short_literal "calc"
    (a := "007".toList) (b := "50".toList) (List.cons_ne_nil _ _) (List.all_eq_true.1 rfl)
    (List.all_eq_true.1 rfl) (by decide) (.inr (by rw [hvalue]; exact ⟨hlow, hhigh⟩))
  refine ⟨token, hrun, ?_⟩
  have hdigits : (Number.float x).toText.toList = "7.5".toList := by
    rw [hcanonical (.inr (by rw [hvalue]; norm_num))]
    decide
  rw [htext, String.toList_inj.1 hdigits]
  rfl

end ExprLexer

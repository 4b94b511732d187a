import ExprLexer.Proofs.Binary64.Rounded
import ExprLexer.Proofs.Decimal.Numeral
import ExprLexer.Proofs.MaximalMunch

namespace ExprLexer

open Decimal (ofNumeral pointedValue)

namespace Binary64

def ofPointed (whole fraction : List Char) : Binary64 :=
  ofDecimal ⟨false, ofNumeral (whole ++ fraction), -fraction.length⟩

variable (a b : List Char)

theorem isRounded_ofPointed : IsRounded (pointedValue a b) (ofPointed a b) := by
  have h := isRounded_ofDecimal ⟨false, ofNumeral (a ++ b), -b.length⟩
  rw [← Decimal.toRat_toFraction_pointed false]
  exact h

@[simp]
theorem isNegative_ofPointed : (ofPointed a b).isNegative = false := isNegative_ofDecimal _

theorem magnitude_ofPointed_eq_zero_iff :
    (ofPointed a b).magnitude = 0 ↔ pointedValue a b ≤ 2 ^ (-1075 : ℤ) := by
  rw [ofPointed, magnitude_ofDecimal, nearestMagnitude_eq_zero_iff (Decimal.toFraction_den_pos _),
    Decimal.toRat_toFraction_pointed]

theorem magnitude_ofPointed_lt_binade_iff : (ofPointed a b).magnitude < binade ↔
    pointedValue a b < 2 ^ (-1022 : ℤ) - 2 ^ (-1075 : ℤ) := by
  rw [ofPointed, magnitude_ofDecimal, nearestMagnitude_lt_binade_iff (Decimal.toFraction_den_pos _),
    Decimal.toRat_toFraction_pointed]

variable {a b} {c d : List Char}

theorem magnitude_ofPointed_mono (h : pointedValue a b ≤ pointedValue c d) :
    (ofPointed a b).magnitude ≤ (ofPointed c d).magnitude := by
  rw [ofPointed, ofPointed, magnitude_ofDecimal, magnitude_ofDecimal]
  apply nearestMagnitude_mono (Decimal.toFraction_den_pos _) (Decimal.toFraction_den_pos _)
  rwa [Decimal.toRat_toFraction_pointed, Decimal.toRat_toFraction_pointed]

theorem ofPointed_congr (h : pointedValue a b = pointedValue c d) :
    ofPointed a b = ofPointed c d := by
  apply ext_parts
  · rw [isNegative_ofPointed, isNegative_ofPointed]
  · exact le_antisymm (magnitude_ofPointed_mono h.le) (magnitude_ofPointed_mono h.ge)

end Binary64

open Binary64

def pointedSource (name : String) (a b : List Char) : Source :=
  ⟨name, String.ofList (a ++ '.' :: b)⟩

theorem run_pointedSource (name : String) {a b : List Char} (ha : a ≠ [])
    (hda : ∀ c ∈ a, c.isDigit) (hdb : ∀ c ∈ b, c.isDigit) :
    run (pointedSource name a b) = .ok [⟨.float, some (.float (ofPointed a b)),
      ⟨.start (pointedSource name a b), (Position.start (pointedSource name a b)).forward
        (a.length + 1 + b.length)⟩⟩] := by
  have htext : (pointedSource name a b).text.toList = a ++ '.' :: b := String.toList_ofList
  have hlength : (Lexeme.pointed a b ha hda hdb).chars.length = a.length + 1 + b.length := by
    simp [Lexeme.chars, Nat.add_assoc, Nat.add_comm 1]
  rw [(Split.Reads.lone_all (.pointed a b ha hda hdb)).run_ok htext, ← hlength]
  rfl

/-- Digits, a point and digits are one token, and its number is what they stand for, rounded. It is
infinite from half a step past the greatest finite number on, and zero up to half the least one. It
depends on what the digits stand for alone, and grows with that. -/
theorem run_pointed_literal (name : String) {a b : List Char} (ha : a ≠ [])
    (hda : ∀ c ∈ a, c.isDigit) (hdb : ∀ c ∈ b, c.isDigit) :
    ∃ x : Binary64, run (pointedSource name a b) = .ok [⟨.float, some (.float x),
        ⟨.start (pointedSource name a b), (Position.start (pointedSource name a b)).forward
          (a.length + 1 + b.length)⟩⟩] ∧
      IsRounded (pointedValue a b) x ∧ x.isNegative = false ∧
      (∀ y, IsRounded (pointedValue a b) y → y.isNegative = false → y = x) ∧
      x.isNaN = false ∧
      (x.isInfinite ↔ (2 : ℚ) ^ 1024 - 2 ^ 970 ≤ pointedValue a b) ∧
      (x.magnitude < binade ↔ pointedValue a b < 2 ^ (-1022 : ℤ) - 2 ^ (-1075 : ℤ)) ∧
      (x.magnitude = 0 ↔ pointedValue a b ≤ 2 ^ (-1075 : ℤ)) ∧
      ∀ (c d : List Char) (y : Binary64) (span : Span), c ≠ [] → (∀ e ∈ c, e.isDigit) →
        (∀ e ∈ d, e.isDigit) →
        run (pointedSource name c d) = .ok [⟨.float, some (.float y), span⟩] →
        (pointedValue a b ≤ pointedValue c d → x.magnitude ≤ y.magnitude) ∧
        (pointedValue a b = pointedValue c d → x = y) := by
  have hround := isRounded_ofPointed a b
  have hnonneg : 0 ≤ pointedValue a b := by
    rw [pointedValue]
    positivity
  refine ⟨ofPointed a b, run_pointedSource name ha hda hdb, hround, isNegative_ofPointed a b, ?_,
    hround.notNaN, ?_, magnitude_ofPointed_lt_binade_iff a b, magnitude_ofPointed_eq_zero_iff a b,
    ?_⟩
  · intro y hy hs
    exact hy.unique hround (by rw [hs, isNegative_ofPointed])
  · rw [hround.isInfinite_iff, abs_of_nonneg hnonneg]
  · intro c d y span hc hdc hdd hrun
    rw [run_pointedSource name hc hdc hdd] at hrun
    simp only [Except.ok.injEq, List.cons.injEq, Token.mk.injEq, Option.some.injEq,
      Number.float.injEq] at hrun
    obtain rfl : ofPointed c d = y := hrun.1.2.1
    exact ⟨magnitude_ofPointed_mono, ofPointed_congr⟩

theorem run_pointed_literal_tie : ∃ x : Binary64, x.isNegative = false ∧
    IsRounded (9007199254740993 + 1 / 10 ^ 20) x ∧
    ∃ span, run ⟨"tie", "9007199254740993.00000000000000000001"⟩ =
      .ok [⟨.float, some (.float x), span⟩] := by
  obtain ⟨x, hrun, hround, hs, -⟩ := run_pointed_literal "tie" (a := "9007199254740993".toList)
    (b := "00000000000000000001".toList) (List.cons_ne_nil _ _) (List.all_eq_true.1 rfl)
    (List.all_eq_true.1 rfl)
  have hvalue : pointedValue "9007199254740993".toList "00000000000000000001".toList =
      9007199254740993 + 1 / 10 ^ 20 := by
    have hwhole : ofNumeral "9007199254740993".toList = 9007199254740993 := by decide
    have hfraction : ofNumeral "00000000000000000001".toList = 1 := by decide
    have hlength : "00000000000000000001".toList.length = 20 := by decide
    rw [pointedValue, hwhole, hfraction, hlength]
    norm_num
  rw [hvalue] at hround
  exact ⟨x, hs, hround, _, hrun⟩

end ExprLexer

import ExprLexer.Binary64.Shortest
import ExprLexer.Proofs.Binary64.Rounded
import ExprLexer.Proofs.Decimal.Digits

namespace ExprLexer.Binary64

variable {x : Binary64}

theorem toRat_exactDecimal (x : Binary64) :
    x.exactDecimal.toFraction.toRat = gridValue x.magnitude := by
  rw [← toRat_toFraction, toFraction, Fraction.toRat_scale _ two_pos, Fraction.toRat_ofNat,
    Decimal.toRat_toFraction, exactDecimal]
  cases x.scale with
  | ofNat e =>
      simp only [Nat.pow_eq, Int.ofNat_eq_natCast, zpow_natCast, zpow_zero]
      push_cast
      ring
  | negSucc e =>
      have hten : (10 : ℚ) ^ (e + 1) = 5 ^ (e + 1) * 2 ^ (e + 1) := by
        rw [← mul_pow]
        norm_num
      simp only [Nat.pow_eq, zpow_negSucc, hten]
      push_cast
      field_simp

theorem negative_exactDecimal (x : Binary64) : x.exactDecimal.negative = x.isNegative := by
  rw [exactDecimal]
  cases x.scale <;> rfl

theorem ofDecimal_exactDecimal (h : x.isFinite) : ofDecimal x.exactDecimal = x := by
  have hm : x.magnitude ≤ infinity := (of_decide_eq_true h).le
  apply ext_parts
  · rw [isNegative_ofDecimal, negative_exactDecimal]
  · rw [magnitude_ofDecimal]
    exact nearestMagnitude_gridValue (Decimal.toFraction_den_pos _) hm (toRat_exactDecimal x)

/-- Whichever grid the decimal comes from, it is rounded to the number. -/
theorem ofDecimal_shortest (h : x.isFinite) : ofDecimal x.shortest = x := by
  rw [shortest]
  by_cases hzero : x.magnitude = 0
  · rw [if_pos hzero]
    apply ext_parts
    · rw [isNegative_ofDecimal]
    · rw [magnitude_ofDecimal, hzero]
      exact if_pos rfl
  · rw [if_neg hzero]
    cases hfound : (List.range 17).findSome? fun (i : Nat) =>
        (x.candidates (x.toFraction.log10 - i)).find? fun d => ofDecimal d = x with
    | none => exact ofDecimal_exactDecimal h
    | some d =>
        obtain ⟨i, -, hd⟩ := List.exists_of_findSome?_eq_some hfound
        simpa using List.find?_some hd

theorem negative_shortest (h : x.isFinite) : x.shortest.negative = x.isNegative := by
  rw [← isNegative_ofDecimal x.shortest, ofDecimal_shortest h]

theorem nearestMagnitude_shortest (h : x.isFinite) :
    nearestMagnitude x.shortest.toFraction = x.magnitude := by
  rw [← magnitude_ofDecimal, ofDecimal_shortest h]

theorem shortest_of_zero (h : x.magnitude = 0) : x.shortest = ⟨x.isNegative, 0, 0⟩ := if_pos h

theorem coefficient_shortest_ne_zero (h : x.isFinite) (hx : x.magnitude ≠ 0) :
    x.shortest.coefficient ≠ 0 := by
  intro hzero
  apply hx
  rw [← nearestMagnitude_shortest h, nearestMagnitude_eq_zero_iff (Decimal.toFraction_den_pos _),
    Decimal.toRat_toFraction, hzero, Nat.cast_zero, zero_mul]
  positivity

theorem leadingExponent_shortest_lt_iff {k : Int} {m : Nat}
    (hm : nearestMagnitude (Decimal.toFraction ⟨false, 1, k⟩) = m)
    (hk : ∀ negative, (ofParts negative m).shortest.leadingExponent = k) (h : x.isFinite)
    (hx : x.magnitude ≠ 0) : x.shortest.leadingExponent < k ↔ x.magnitude < m := by
  obtain ⟨hle, hlt⟩ := x.shortest.leadingExponent_spec (coefficient_shortest_ne_zero h hx)
  have hpower : (Decimal.toFraction ⟨false, 1, k⟩).toRat = 10 ^ k := by
    rw [Decimal.toRat_toFraction, Nat.cast_one, one_mul]
  have hone : (1 : ℚ) ≤ 10 := by norm_num
  rw [← hm, ← nearestMagnitude_shortest h]
  constructor
  · intro hlead
    apply lt_of_le_of_ne
    · apply nearestMagnitude_mono (Decimal.toFraction_den_pos _) (Decimal.toFraction_den_pos _)
      rw [hpower]
      exact hlt.le.trans (zpow_le_zpow_right₀ hone hlead)
    · intro heq
      rw [nearestMagnitude_shortest h, hm] at heq
      have hself := hk x.isNegative
      rw [← heq, ofParts_self] at hself
      exact hlead.ne hself
  · intro hmag
    by_contra hlead
    apply hmag.not_ge
    apply nearestMagnitude_mono (Decimal.toFraction_den_pos _) (Decimal.toFraction_den_pos _)
    rw [hpower]
    exact (zpow_le_zpow_right₀ hone (not_lt.1 hlead)).trans hle

/-- Zero, and the numbers from the one nearest to `10^-4` up to `10^16`. -/
def IsPlain (x : Binary64) : Prop :=
  x.toRat = 0 ∨ (ofDecimal ⟨false, 1, -4⟩).toRat ≤ |x.toRat| ∧ |x.toRat| < 10 ^ 16

theorem toRat_eq_zero_iff : x.toRat = 0 ↔ x.magnitude = 0 := by
  rw [← abs_eq_zero, abs_toRat, ← gridValue_zero, gridValue_strictMono.injective.eq_iff]

theorem gridValue_ten_pow : gridValue 0x4341C37937E08000 = 10 ^ 16 := by
  norm_num [gridValue, binade]

theorem isPositional_shortest_iff (h : x.isFinite) :
    Decimal.isPositional x.shortest.leadingExponent ↔ x.IsPlain := by
  have hlow : nearestMagnitude (Decimal.toFraction ⟨false, 1, -4⟩) = 0x3F1A36E2EB1C432D := by
    decide +kernel
  have hhigh : nearestMagnitude (Decimal.toFraction ⟨false, 1, 16⟩) = 0x4341C37937E08000 := by
    decide +kernel
  rw [IsPlain, toRat_eq_zero_iff]
  by_cases hx : x.magnitude = 0
  · refine iff_of_true ?_ (.inl hx)
    rw [shortest_of_zero hx]
    rfl
  · have hfour := leadingExponent_shortest_lt_iff hlow (by decide +kernel) h hx
    have hsixteen := leadingExponent_shortest_lt_iff hhigh (by decide +kernel) h hx
    have hleast : (ofDecimal ⟨false, 1, -4⟩).toRat = gridValue 0x3F1A36E2EB1C432D := by
      rw [toRat_ofDecimal, hlow]
      rfl
    rw [or_iff_right hx, hleast, abs_toRat, ← gridValue_ten_pow, gridValue_strictMono.le_iff_le,
      gridValue_strictMono.lt_iff_lt, ← hsixteen, ← not_lt, ← hfour, Decimal.isPositional,
      Bool.and_eq_true, decide_eq_true_eq, decide_eq_true_eq]
    omega

end ExprLexer.Binary64

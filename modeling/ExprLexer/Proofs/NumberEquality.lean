import ExprLexer.Proofs.NumberText

namespace ExprLexer

namespace Binary64

variable {x y : Binary64}

theorem beq_iff : x == y ↔ x.isNaN = false ∧ y.isNaN = false ∧
    (x = y ∨ x.magnitude = 0 ∧ y.magnitude = 0) := by
  have hbits : x.bits = y.bits ↔ x = y := ⟨fun h => congrArg mk h, congrArg bits⟩
  change (!x.isNaN && !y.isNaN &&
    (x.bits == y.bits || (x.magnitude == 0 && y.magnitude == 0))) = true ↔ _
  simp only [Bool.and_eq_true, Bool.or_eq_true, Bool.not_eq_true', beq_iff_eq, and_assoc, hbits]

/-- Numbers with the same value have the same bits, unless they are the two zeros. -/
theorem eq_or_zero_of_toRat_eq (h : x.toRat = y.toRat) :
    x = y ∨ x.magnitude = 0 ∧ y.magnitude = 0 := by
  have hgrid : gridValue x.magnitude = gridValue y.magnitude := by
    rw [← abs_toRat, ← abs_toRat, h]
  have hmagnitude := gridValue_strictMono.injective hgrid
  have hdistance : |signed x.isNegative (gridValue x.magnitude) -
      signed y.isNegative (gridValue y.magnitude)| =
        |gridValue x.magnitude - gridValue y.magnitude| := by
    rw [← toRat_eq, ← toRat_eq, h, hgrid, sub_self, sub_self]
  have hzero {m : Nat} : gridValue m = 0 ↔ m = 0 := by
    rw [← gridValue_zero, gridValue_strictMono.injective.eq_iff]
  rcases eq_sign_of_abs_signed_sub (gridValue_nonneg _) (gridValue_nonneg _) hdistance with
    hs | hx | hy
  · exact .inl (ext_parts hs hmagnitude)
  · exact .inr ⟨hzero.1 hx, hmagnitude ▸ hzero.1 hx⟩
  · exact .inr ⟨hmagnitude.trans (hzero.1 hy), hzero.1 hy⟩

theorem beq_iff_value : x == y ↔ (x.isFinite ∧ y.isFinite ∧ x.toRat = y.toRat) ∨
    (x.isInfinite ∧ y.isInfinite ∧ x.isNegative = y.isNegative) := by
  rw [beq_iff]
  constructor
  · rintro ⟨hx, -, rfl | ⟨hzx, hzy⟩⟩
    · by_cases h : x.isInfinite
      · exact .inr ⟨h, h, rfl⟩
      · have hfinite := (isFinite_iff x).2 ⟨hx, h⟩
        exact .inl ⟨hfinite, hfinite, rfl⟩
    · refine .inl ⟨isFinite_of_zero hzx, isFinite_of_zero hzy, ?_⟩
      rw [toRat_eq_zero_iff.2 hzx, toRat_eq_zero_iff.2 hzy]
  · rintro (⟨hx, hy, h⟩ | ⟨hx, hy, h⟩)
    · exact ⟨((isFinite_iff x).1 hx).1, ((isFinite_iff y).1 hy).1, eq_or_zero_of_toRat_eq h⟩
    · rw [isInfinite, decide_eq_true_eq] at hx hy
      exact ⟨by simp [isNaN, hx], by simp [isNaN, hy], .inl (ext_parts h (hx.trans hy.symm))⟩

end Binary64

namespace Number

inductive OppositeZeros : Number → Number → Prop
  | zeros {x y : Binary64} (left : x.magnitude = 0) (right : y.magnitude = 0)
      (signs : x.isNegative ≠ y.isNegative) : OppositeZeros (float x) (float y)

inductive BothNaN : Number → Number → Prop
  | nans {x y : Binary64} (left : x.isNaN) (right : y.isNaN) : BothNaN (float x) (float y)

variable {a b : Number}

theorem OppositeZeros.beq (h : a.OppositeZeros b) : a == b := by
  obtain ⟨hx, hy, -⟩ := h
  have hnumber {z : Binary64} (hz : z.magnitude = 0) : z.isNaN = false :=
    ((Binary64.isFinite_iff z).1 (Binary64.isFinite_of_zero hz)).1
  exact Binary64.beq_iff.2 ⟨hnumber hx, hnumber hy, .inr ⟨hx, hy⟩⟩

theorem OppositeZeros.toText_ne (h : a.OppositeZeros b) : a.toText ≠ b.toText := by
  obtain ⟨hx, -, hs⟩ := h
  rw [ne_eq, toText_eq_iff]
  rintro (hbits | ⟨hnan, -⟩)
  · exact hs (congrArg Binary64.isNegative (congrArg Binary64.mk hbits))
  · rw [((Binary64.isFinite_iff _).1 (Binary64.isFinite_of_zero hx)).1] at hnan
    cases hnan

theorem BothNaN.not_beq (h : a.BothNaN b) : ¬ a == b := by
  obtain ⟨hx, -⟩ := h
  intro heq
  have hnumber := (Binary64.beq_iff.1 heq).1
  rw [hx] at hnumber
  cases hnumber

theorem BothNaN.toText_eq (h : a.BothNaN b) : a.toText = b.toText := by
  obtain ⟨hx, hy⟩ := h
  exact toText_eq_iff.2 (.inr ⟨hx, hy⟩)

theorem beq_int_iff {m n : Nat} : int m == int n ↔ m = n := by
  change m == n ↔ m = n
  exact beq_iff_eq

theorem beq_float_iff_alike {x y : Binary64} (hzeros : ¬ OppositeZeros (float x) (float y))
    (hnans : ¬ BothNaN (float x) (float y)) : x == y ↔ Alike (float x) (float y) := by
  rw [Binary64.beq_iff, Alike]
  constructor
  · rintro ⟨-, -, rfl | ⟨hx, hy⟩⟩
    · exact .inl rfl
    · by_cases hs : x.isNegative = y.isNegative
      · exact .inl (congrArg Binary64.bits (Binary64.ext_parts hs (hx.trans hy.symm)))
      · exact absurd (.zeros hx hy hs) hzeros
  · rintro (h | ⟨hx, hy⟩)
    · obtain rfl : x = y := congrArg Binary64.mk h
      have hx : x.isNaN = false := Bool.eq_false_iff.2 fun hx => hnans (.nans hx hx)
      exact ⟨hx, hx, .inl rfl⟩
    · exact absurd (.nans hx hy) hnans

theorem beq_iff_alike (hzeros : ¬ a.OppositeZeros b) (hnans : ¬ a.BothNaN b) :
    a == b ↔ a.Alike b := by
  match a, b with
  | int m, int n => exact beq_int_iff
  | int m, float y => exact iff_of_false Bool.false_ne_true id
  | float x, int n => exact iff_of_false Bool.false_ne_true id
  | float x, float y => exact beq_float_iff_alike hzeros hnans

/-- Numbers are equal if and only if they are written alike, but for a zero with a sign and one without,
and for two that are not a number. Whole numbers and floats are neither equal nor written alike. -/
theorem beq_iff_written_alike (a b : Number) :
    (¬ a.OppositeZeros b → ¬ a.BothNaN b → (a == b ↔ a.toText = b.toText)) ∧
    (a.OppositeZeros b → a == b ∧ a.toText ≠ b.toText) ∧
    (a.BothNaN b → ¬ a == b ∧ a.toText = b.toText) ∧
    (∀ m n : Nat, int m == int n ↔ m = n) ∧
    (∀ x y : Binary64, float x == float y ↔ (x.isFinite ∧ y.isFinite ∧ x.toRat = y.toRat) ∨
      (x.isInfinite ∧ y.isInfinite ∧ x.isNegative = y.isNegative)) ∧
    ∀ (n : Nat) (x : Binary64),
      ¬ int n == float x ∧ ¬ float x == int n ∧ (int n).toText ≠ (float x).toText := by
  refine ⟨fun hzeros hnans => ?_, fun h => ⟨h.beq, h.toText_ne⟩, fun h => ⟨h.not_beq, h.toText_eq⟩,
    fun m n => beq_int_iff, fun x y => Binary64.beq_iff_value, fun n x => ?_⟩
  · rw [toText_eq_iff]
    exact beq_iff_alike hzeros hnans
  · exact ⟨Bool.false_ne_true, Bool.false_ne_true, mt toText_eq_iff.1 id⟩

example : (int 3).toText = "3" ∧ (float ⟨0x4008000000000000⟩).toText = "3.0" ∧
    (int (10 ^ 16)).toText = "10000000000000000" ∧
    (float ⟨0x4341C37937E08000⟩).toText = "1e+16" := by
  decide +kernel

end Number
end ExprLexer

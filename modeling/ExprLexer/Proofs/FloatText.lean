import ExprLexer.Proofs.Binary64.FewestDigits
import ExprLexer.Proofs.NumberText

namespace ExprLexer

open Decimal (AreDigits IsExponent IsFixed pointedValue shownDigits)

theorem Decimal.IsFixed.count_point {whole fraction : List Char} (h : IsFixed whole fraction) :
    (whole ++ '.' :: fraction).count '.' = 1 := by
  rw [List.count_append, List.count_cons_self,
    List.count_eq_zero.2 (Lexeme.point_notMem_digits h.wholeDigits),
    List.count_eq_zero.2 (Lexeme.point_notMem_digits h.fractionDigits)]

theorem Decimal.IsFixed.e_notMem {whole fraction : List Char} (h : IsFixed whole fraction) :
    'e' ∉ whole ++ '.' :: fraction := by
  intro he
  rcases List.mem_append.1 he with he | he
  · exact absurd (h.wholeDigits 'e' he) (by decide)
  · rcases List.mem_cons.1 he with he | he
    · cases he
    · exact absurd (h.fractionDigits 'e' he) (by decide)

namespace Binary64

variable {x : Binary64}

theorem toList_toText (h : x.isFinite) : (Number.float x).toText.toList = signChars x.isNegative ++
    if Decimal.isPositional x.shortest.leadingExponent then
      Decimal.positional x.shortest.digits x.shortest.leadingExponent
    else Decimal.scientific x.shortest.digits x.shortest.leadingExponent := by
  rw [Number.toText, String.toList_ofList, Number.write, write_of_isFinite h, Decimal.write,
    negative_shortest h]
  rfl

theorem shownDigits_toText (h : x.isFinite) :
    shownDigits (Number.float x).toText.toList = x.shortest.digits := by
  rw [Number.toText, String.toList_ofList, Number.write, write_of_isFinite h,
    Decimal.shownDigits_write]

theorem exists_read?_toText (h : x.isFinite) :
    ∃ d, Decimal.read? (Number.float x).toText.toList = some d ∧ d.negative = x.isNegative ∧
      d.toFraction.toRat = x.shortest.toFraction.toRat := by
  obtain ⟨d, hread, hs, hvalue⟩ := x.shortest.read?_write
  refine ⟨d, ?_, hs.trans (negative_shortest h), hvalue⟩
  rw [Number.toText, String.toList_ofList, Number.write, write_of_isFinite h, hread]

theorem exists_fixed_toText (h : x.isFinite)
    (hp : Decimal.isPositional x.shortest.leadingExponent) : ∃ whole fraction, IsFixed whole fraction ∧
      (Number.float x).toText.toList = signChars x.isNegative ++ (whole ++ '.' :: fraction) ∧
      (Number.float x).toText.toList.count '.' = 1 ∧
      'e' ∉ (Number.float x).toText.toList ∧
      pointedValue whole fraction = x.shortest.toFraction.toRat := by
  obtain ⟨whole, fraction, hlayout, hfixed, hvalue⟩ :=
    x.shortest.isTrimmed_digits.exists_fixed x.shortest.isDigit_of_mem_digits
  have htext : (Number.float x).toText.toList =
      signChars x.isNegative ++ (whole ++ '.' :: fraction) := by
    rw [toList_toText h, if_pos hp, hlayout]
  refine ⟨whole, fraction, hfixed, htext, ?_, ?_, ?_⟩
  · rw [htext, List.count_append, hfixed.count_point]
    cases x.isNegative <;> rfl
  · rw [htext, List.mem_append, not_or]
    exact ⟨by cases x.isNegative <;> decide, hfixed.e_notMem⟩
  · rw [hvalue, ← Decimal.toRat_toFraction_digits]

theorem exists_exponent_toText (h : x.isFinite)
    (hp : ¬ Decimal.isPositional x.shortest.leadingExponent) {first : Char} {rest : List Char}
    (hd : x.shortest.digits = first :: rest) :
    ∃ places, IsExponent places x.shortest.leadingExponent ∧
      (Number.float x).toText.toList = signChars x.isNegative ++
        ((first :: if rest = [] then [] else '.' :: rest) ++
          'e' :: (if x.shortest.leadingExponent < 0 then '-' else '+') :: places) := by
  obtain ⟨places, hplaces, hexponent⟩ := Decimal.exists_exponentText x.shortest.leadingExponent
  refine ⟨places, hexponent, ?_⟩
  rw [toList_toText h, if_neg hp, hd, Decimal.scientific, Decimal.pointed_cons, hplaces]

theorem toText_of_zero (hx : x.magnitude = 0) :
    (Number.float x).toText = if x.isNegative then "-0.0" else "0.0" := by
  rw [Number.toText, Number.write, write_of_isFinite (isFinite_of_zero hx), shortest_of_zero hx]
  cases x.isNegative <;> decide

end Binary64

open Binary64

/-- The digits of the text of a finite number other than zero are at most seventeen. With them the text
is rounded to the number, with fewer no decimal is, and none with as many that is rounded to the number
is nearer to it. Either layout shows these digits. -/
theorem written_float_shortest {x : Binary64} (h : x.isFinite) (hx : x.magnitude ≠ 0) :
    ∃ (digits : List Char) (e : ℤ) (d : Decimal),
      shownDigits (Number.float x).toText.toList = digits ∧
      Decimal.read? (Number.float x).toText.toList = some d ∧
      IsShortest x digits.length d.toRat ∧
      digits.length ≤ 17 ∧
      ((Number.float x).toText.toList = signChars x.isNegative ++ Decimal.positional digits e ∨
        (Number.float x).toText.toList = signChars x.isNegative ++ Decimal.scientific digits e) ∧
      ∀ f : ℤ, shownDigits (Decimal.positional digits f) = digits ∧
        shownDigits (Decimal.scientific digits f) = digits := by
  obtain ⟨d, hread, hs, hvalue⟩ := exists_read?_toText h
  have htrim := x.shortest.isTrimmed_digits
  have hdigits := x.shortest.isDigit_of_mem_digits
  have hrat : d.toRat = x.shortest.toRat := by
    rw [Decimal.toRat, Decimal.toRat, hs, hvalue, negative_shortest h]
  refine ⟨x.shortest.digits, x.shortest.leadingExponent, d, shownDigits_toText h, hread, ?_,
    length_digits_shortest_le_seventeen h hx, ?_, fun f =>
      ⟨htrim.shownDigits_positional hdigits f, htrim.shownDigits_scientific hdigits f⟩⟩
  · rw [hrat]
    exact isShortest_shortest h hx
  · rw [toList_toText h]
    split
    · exact .inl rfl
    · exact .inr rfl

/-- The least of all numbers, `2^-1074`, has one digit: a second one would bring the decimal nearer to
it, but is not needed to tell it from its neighbours. -/
theorem written_float_shortest_least :
    ∃ d, Decimal.read? "5e-324".toList = some d ∧ IsShortest ⟨1⟩ 1 d.toRat := by
  have htext : (Number.float ⟨1⟩).toText.toList = "5e-324".toList := by decide +kernel
  have hshown : shownDigits "5e-324".toList = ['5'] := by decide
  obtain ⟨digits, e, d, hdigits, hread, hshortest, -⟩ :=
    written_float_shortest (x := ⟨1⟩) (by decide) (by decide)
  rw [htext] at hdigits hread
  obtain rfl : digits = ['5'] := hdigits.symm.trans hshown
  exact ⟨d, hread, hshortest⟩

/-- A number other than zero has a decimal with the fewest digits that is rounded to it, and is written
with a point in its place or with an exponent, by whether it lies in the range from the number nearest
to `10^-4` up to `10^16`. There is no zero too many in either layout. -/
theorem written_float_layout (x : Binary64) :
    (x.isFinite → x.magnitude ≠ 0 → ∃ (first : Char) (rest : List Char) (e : ℤ),
      AreDigits (first :: rest) ∧ first ≠ '0' ∧ (∀ c ∈ (first :: rest).getLast?, c ≠ '0') ∧
      IsShortest x (rest.length + 1) (signed x.isNegative (pointedValue [first] rest * 10 ^ e)) ∧
      (-4 ≤ e ∧ e ≤ 15 ↔
        (ofDecimal ⟨false, 1, -4⟩).toRat ≤ |x.toRat| ∧ |x.toRat| < 10 ^ 16) ∧
      (-4 ≤ e ∧ e ≤ 15 → ∃ whole fraction, IsFixed whole fraction ∧
        (Number.float x).toText.toList = signChars x.isNegative ++ (whole ++ '.' :: fraction) ∧
        (Number.float x).toText.toList.count '.' = 1 ∧
        'e' ∉ (Number.float x).toText.toList ∧
        pointedValue whole fraction = pointedValue [first] rest * 10 ^ e) ∧
      (¬ (-4 ≤ e ∧ e ≤ 15) → ∃ places, IsExponent places e ∧
        (Number.float x).toText.toList = signChars x.isNegative ++
          ((first :: if rest = [] then [] else '.' :: rest) ++
            'e' :: (if e < 0 then '-' else '+') :: places)) ∧
      ∃ d, Decimal.read? (Number.float x).toText.toList = some d ∧ d.negative = x.isNegative ∧
        d.toFraction.toRat = pointedValue [first] rest * 10 ^ e) ∧
    (x.magnitude = 0 → (Number.float x).toText = if x.isNegative then "-0.0" else "0.0") := by
  refine ⟨fun h hx => ?_, toText_of_zero⟩
  obtain ⟨d, hread, hs, hvalue⟩ := exists_read?_toText h
  have htrim := x.shortest.isTrimmed_digits
  have hdigits := x.shortest.isDigit_of_mem_digits
  have hshortest := isShortest_shortest h hx
  obtain ⟨first, rest, hcons⟩ := List.exists_cons_of_ne_nil
    (x.shortest.digits_ne_nil (coefficient_shortest_ne_zero h hx))
  have hrat : x.shortest.toFraction.toRat =
      pointedValue [first] rest * 10 ^ x.shortest.leadingExponent := by
    rw [Decimal.pointedValue_singleton, ← hcons, ← Decimal.toRat_toFraction_digits]
  have hplain : Decimal.isPositional x.shortest.leadingExponent ↔
      -4 ≤ x.shortest.leadingExponent ∧ x.shortest.leadingExponent ≤ 15 := by
    rw [Decimal.isPositional, Bool.and_eq_true, decide_eq_true_eq, decide_eq_true_eq]
  rw [Decimal.toRat, negative_shortest h, hrat, hcons] at hshortest
  rw [hcons] at htrim hdigits
  refine ⟨first, rest, x.shortest.leadingExponent, hdigits, htrim.head_ne first rfl, htrim.last_ne,
    hshortest, ?_, ?_, ?_, d, hread, hs, hvalue.trans hrat⟩
  · rw [← hplain, isPositional_shortest_iff h, IsPlain, or_iff_right (mt toRat_eq_zero_iff.1 hx)]
  · intro he
    rw [← hrat]
    exact exists_fixed_toText h (hplain.2 he)
  · intro he
    exact exists_exponent_toText h (mt hplain.1 he) hcons

example : (Number.float ⟨0x4341C37937E07FFF⟩).toText = "9999999999999998.0" ∧
    (Number.float ⟨0x4341C37937E08000⟩).toText = "1e+16" := by
  decide +kernel

end ExprLexer

import ExprLexer.Proofs.Decimal.Layout
import ExprLexer.Proofs.Decimal.Significant

namespace ExprLexer.Decimal

/-- Zeros before the whole part and after the fraction are left out, but for one if there is no other
digit on that side of the point. -/
def canonical (whole fraction : List Char) : List Char :=
  orZero (whole.dropWhile (· = '0')) ++ '.' :: orZero (fraction.rdropWhile (· = '0'))

theorem canonical_zeros (whole fraction : List Char) (m n : Nat) :
    canonical (List.replicate m '0' ++ whole) (fraction ++ List.replicate n '0') =
      canonical whole fraction := by
  rw [canonical, canonical, dropWhile_zeros, rdropWhile_zeros]

theorem pointedValue_zeros (whole fraction : List Char) (m n : Nat) :
    pointedValue (List.replicate m '0' ++ whole) (fraction ++ List.replicate n '0') =
      pointedValue whole fraction := by
  have hpow : (10 : ℚ) ^ n ≠ 0 := by positivity
  rw [pointedValue, pointedValue, ofNumeral_append, ofNumeral_append, ofNumeral_zeros,
    ofNumeral_zeros, List.length_append, List.length_replicate, pow_add]
  push_cast
  field_simp
  ring

theorem toNat_digit_inj {c d : Char} (hc : c.isDigit) (hd : d.isDigit)
    (h : c.toNat - '0'.toNat = d.toNat - '0'.toNat) : c = d := by
  have hlow := (Char.isDigit_iff_toNat.1 hc).1
  have hlow' := (Char.isDigit_iff_toNat.1 hd).1
  exact Char.toNat_inj.1 (by omega)

theorem eq_and_eq_of_mul_add {p a b c d : Nat} (ha : a < p) (hb : b < p)
    (h : c * p + a = d * p + b) : c = d ∧ a = b := by
  have hp : 0 < p := Nat.zero_lt_of_lt ha
  have hdiv := congrArg (· / p) h
  have hmod := congrArg (· % p) h
  simp only [Nat.mul_comm _ p, Nat.mul_add_div hp, Nat.mul_add_mod, Nat.div_eq_of_lt,
    Nat.mod_eq_of_lt, ha, hb, Nat.add_zero] at hdiv hmod
  exact ⟨hdiv, hmod⟩

theorem eq_of_ofNumeral_eq {a b : List Char} (ha : AreDigits a) (hb : AreDigits b)
    (hlength : a.length = b.length) (h : ofNumeral a = ofNumeral b) : a = b := by
  induction a generalizing b with
  | nil => exact (List.eq_nil_of_length_eq_zero hlength.symm).symm
  | cons c a ih =>
      cases b with
      | nil => cases hlength
      | cons d b =>
          have ha' : AreDigits a := fun e he => ha e (List.mem_cons_of_mem c he)
          have hb' : AreDigits b := fun e he => hb e (List.mem_cons_of_mem d he)
          have hlength' : a.length = b.length := Nat.succ.inj hlength
          rw [ofNumeral_cons, ofNumeral_cons, ← hlength'] at h
          have hlt : ofNumeral b < 10 ^ a.length := hlength' ▸ ofNumeral_lt hb'
          obtain ⟨hfirst, hrest⟩ := eq_and_eq_of_mul_add (ofNumeral_lt ha') hlt h
          rw [toNat_digit_inj (ha c List.mem_cons_self) (hb d List.mem_cons_self) hfirst,
            ih ha' hb' hlength' hrest]

/-- Texts that stand for the same number are the same but for zeros at their ends: filled up to the
same lengths, they have the same digits. -/
theorem canonical_eq_of_pointedValue_eq {a b c d : List Char} (ha : AreDigits a) (hb : AreDigits b)
    (hc : AreDigits c) (hd : AreDigits d) (h : pointedValue a b = pointedValue c d) :
    canonical a b = canonical c d := by
  let a' := List.replicate c.length '0' ++ a
  let b' := b ++ List.replicate d.length '0'
  let c' := List.replicate a.length '0' ++ c
  let d' := d ++ List.replicate b.length '0'
  have hwhole : a'.length = c'.length := by simp [a', c', Nat.add_comm]
  have hfraction : b'.length = d'.length := by simp [b', d', Nat.add_comm]
  have hvalue : pointedValue a' b' = pointedValue c' d' := by
    rw [pointedValue_zeros, pointedValue_zeros, h]
  rw [pointedValue_eq, pointedValue_eq, hfraction] at hvalue
  have hnumeral : ofNumeral (a' ++ b') = ofNumeral (c' ++ d') := by
    exact_mod_cast mul_right_cancel₀ (ten_zpow_pos _).ne' hvalue
  have hdigits : a' ++ b' = c' ++ d' := by
    apply eq_of_ofNumeral_eq _ _ _ hnumeral
    · exact ((areDigits_zeros _).append ha).append (hb.append (areDigits_zeros _))
    · exact ((areDigits_zeros _).append hc).append (hd.append (areDigits_zeros _))
    · exact (List.length_append).trans ((congrArg₂ _ hwhole hfraction).trans
        List.length_append.symm)
  obtain ⟨hac, hbd⟩ := List.append_inj hdigits hwhole
  calc canonical a b = canonical a' b' := (canonical_zeros a b _ _).symm
    _ = canonical c' d' := by rw [hac, hbd]
    _ = canonical c d := canonical_zeros c d _ _

theorem orZero_dropWhile {whole : List Char} (hn : whole ≠ [])
    (h : whole = ['0'] ∨ ∀ c ∈ whole.head?, c ≠ '0') :
    orZero (whole.dropWhile (· = '0')) = whole := by
  rcases h with rfl | h
  · rfl
  · obtain ⟨c, rest, rfl⟩ := List.exists_cons_of_ne_nil hn
    have hc : c ≠ '0' := h c rfl
    simp [hc, orZero]

theorem orZero_rdropWhile {fraction : List Char} (h : ∀ c ∈ fraction.getLast?, c ≠ '0') :
    orZero ((orZero fraction).rdropWhile (· = '0')) = orZero fraction := by
  cases fraction with
  | nil => rfl
  | cons c rest =>
      have hself : (c :: rest).rdropWhile (· = '0') = c :: rest := by
        rw [List.rdropWhile_eq_self_iff]
        intro hn
        simpa using h _ (List.getLast?_eq_some_getLast hn)
      exact congrArg orZero hself

/-- Digits without a zero at either end. There are none for zero, whose place is that of the ones. -/
structure IsTrimmed (digits : List Char) (leading : Int) : Prop where
  head_ne : ∀ c ∈ digits.head?, c ≠ '0'
  last_ne : ∀ c ∈ digits.getLast?, c ≠ '0'
  zero : digits = [] → leading = 0

theorem getLast?_digits (d : Decimal) : ∀ c ∈ d.digits.getLast?, c ≠ '0' := by
  intro c hc
  have hdigits : d.digits = (Nat.toDigits 10 d.coefficient).rdropWhile (· = '0') := rfl
  rw [hdigits] at hc
  have hn := List.ne_nil_of_mem (List.mem_of_getLast? hc)
  have hlast := List.rdropWhile_last_not (· = '0') (Nat.toDigits 10 d.coefficient) hn
  rw [List.getLast?_eq_some_getLast hn] at hc
  obtain rfl := Option.some.inj hc
  simpa using hlast

theorem head?_toDigits {n : Nat} (hn : n ≠ 0) : ∀ c ∈ (Nat.toDigits 10 n).head?, c ≠ '0' := by
  rintro c hc rfl
  obtain ⟨rest, hrest⟩ := List.head?_eq_some_iff.1 hc
  have hlength := Fraction.length_toDigits n
  have hvalue := ofNumeral_toDigits n
  have hdigits := areDigits_toDigits n
  rw [hrest] at hlength hvalue hdigits
  have hlt := ofNumeral_lt fun d hd => hdigits d (List.mem_cons_of_mem '0' hd)
  rw [ofNumeral_cons, Nat.sub_self, Nat.zero_mul, Nat.zero_add] at hvalue
  rw [hvalue, Nat.succ.inj hlength] at hlt
  exact absurd (Nat.pow_log_le_self 10 hn) hlt.not_ge

theorem isTrimmed_digits (d : Decimal) : IsTrimmed d.digits d.leadingExponent := by
  by_cases h : d.coefficient = 0
  · have hdigits : d.digits = [] := by
      rw [digits, h]
      rfl
    refine ⟨?_, d.getLast?_digits, fun _ => if_pos h⟩
    rw [hdigits]
    exact nofun
  · refine ⟨?_, d.getLast?_digits, fun hnil => absurd hnil (d.digits_ne_nil h)⟩
    obtain ⟨k, hk⟩ := d.toDigits_eq_digits_append
    intro c hc
    apply head?_toDigits h
    rw [hk, List.head?_append, Option.mem_def.1 hc]
    rfl

variable {digits : List Char} {leading : Int} (h : IsTrimmed digits leading)

include h

theorem IsTrimmed.whole :
    let whole := ((List.replicate (-leading).toNat '0' ++ digits).take (leading.toNat + 1)).rightpad
      (leading.toNat + 1) '0'
    whole ≠ [] ∧ (whole = ['0'] ∨ ∀ c ∈ whole.head?, c ≠ '0') := by
  rcases lt_or_ge leading 0 with hneg | hnonneg
  · obtain ⟨k, hk⟩ := Nat.exists_eq_add_one.2 (by omega : 0 < (-leading).toNat)
    have hwidth : leading.toNat = 0 := by omega
    simp [hk, hwidth, List.replicate_succ, List.rightpad]
  · have hpad : (-leading).toNat = 0 := by omega
    cases digits with
    | nil => simp [h.zero rfl, List.rightpad]
    | cons c rest => simpa [hpad, List.rightpad] using .inr (h.head_ne c rfl)

theorem IsTrimmed.fraction : ∀ c ∈ ((List.replicate (-leading).toNat '0' ++ digits).drop
    (leading.toNat + 1)).getLast?, c ≠ '0' := by
  intro c hc
  cases digits with
  | nil => simp [h.zero rfl] at hc
  | cons d rest =>
      rw [List.getLast?_drop] at hc
      split at hc
      · cases hc
      · apply h.last_ne
        simpa [List.getLast?_append] using hc

theorem IsTrimmed.sides (hd : AreDigits digits) {whole fraction : List Char} (hw : AreDigits whole)
    (htext : positional digits leading = whole ++ '.' :: fraction) :
    (whole ≠ [] ∧ (whole = ['0'] ∨ ∀ c ∈ whole.head?, c ≠ '0')) ∧
      ∃ rest, fraction = orZero rest ∧ ∀ c ∈ rest.getLast?, c ≠ '0' := by
  let padded := List.replicate (-leading).toNat '0' ++ digits
  let width := leading.toNat + 1
  have hdigits : AreDigits ((padded.take width).rightpad width '0') := by
    have hpadded : AreDigits padded := (areDigits_zeros _).append hd
    exact AreDigits.append (fun c hc => hpadded c (List.mem_of_mem_take hc)) (areDigits_zeros _)
  obtain ⟨rfl, rfl⟩ := Lexeme.digits_point_unique hdigits hw htext
  exact ⟨h.whole, _, rfl, h.fraction⟩

/-- There is no zero too many in the layout of trimmed digits. -/
theorem IsTrimmed.positional_eq_canonical (hd : AreDigits digits) {whole fraction : List Char}
    (hw : AreDigits whole) (htext : positional digits leading = whole ++ '.' :: fraction) :
    positional digits leading = canonical whole fraction := by
  obtain ⟨⟨hne, hhead⟩, rest, rfl, hlast⟩ := h.sides hd hw htext
  rw [htext, canonical, orZero_dropWhile hne hhead, orZero_rdropWhile hlast]

omit h

theorem isPositional_of_toRat (d : Decimal) (h : d.toFraction.toRat = 0 ∨
    10 ^ (-4 : ℤ) ≤ d.toFraction.toRat ∧ d.toFraction.toRat < 10 ^ (16 : ℤ)) :
    isPositional d.leadingExponent := by
  have hten : (1 : ℚ) < 10 := by norm_num
  by_cases hzero : d.coefficient = 0
  · rw [leadingExponent, if_pos hzero]
    rfl
  · obtain ⟨hle, hlt⟩ := d.leadingExponent_spec hzero
    rcases h with h | ⟨hlow, hhigh⟩
    · rw [h] at hle
      exact absurd hle (ten_zpow_pos _).not_ge
    · have hmin := (zpow_lt_zpow_iff_right₀ hten).1 (hlow.trans_lt hlt)
      have hmax := (zpow_lt_zpow_iff_right₀ hten).1 (hle.trans_lt hhigh)
      simp only [isPositional, Bool.and_eq_true, decide_eq_true_eq]
      omega

theorem write_eq_canonical {d : Decimal} (hs : d.negative = false)
    (hlayout : isPositional d.leadingExponent) {a b : List Char} (ha : AreDigits a)
    (hb : AreDigits b) (h : d.toFraction.toRat = pointedValue a b) : d.write = canonical a b := by
  obtain ⟨whole, fraction, htext, -, hw, hf, hvalue⟩ :=
    exists_positional d.isDigit_of_mem_digits d.leadingExponent
  rw [← toRat_toFraction_digits, h] at hvalue
  rw [write, hs, if_neg Bool.false_ne_true, if_pos hlayout, List.nil_append,
    d.isTrimmed_digits.positional_eq_canonical d.isDigit_of_mem_digits hw htext]
  exact canonical_eq_of_pointedValue_eq hw hf ha hb hvalue

end ExprLexer.Decimal

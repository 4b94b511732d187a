import ExprLexer.Proofs.Decimal.Canonical

namespace ExprLexer.Decimal

variable {digits : List Char} {leading : Int}

theorem toNat_digit_pos {c : Char} (hc : c.isDigit) (h : c ≠ '0') : 0 < c.toNat - '0'.toNat := by
  rw [Nat.pos_iff_ne_zero]
  intro hzero
  exact h (toNat_digit_inj hc rfl (hzero.trans (Nat.sub_self _).symm))

theorem ten_pow_le_ofNumeral {c : Char} (hc : c.isDigit) (h : c ≠ '0') (digits : List Char) :
    10 ^ digits.length ≤ ofNumeral (c :: digits) := by
  have := Nat.mul_le_mul_right (10 ^ digits.length) (toNat_digit_pos hc h)
  rw [ofNumeral_cons]
  omega

theorem not_ten_dvd_ofNumeral (hd : AreDigits digits) {c : Char} (hc : c ∈ digits.getLast?)
    (h : c ≠ '0') : ¬ 10 ∣ ofNumeral digits := by
  obtain ⟨front, rfl⟩ := List.getLast?_eq_some_iff.1 hc
  have hdigit := hd c (by simp)
  have hlast : ofNumeral [c] = c.toNat - '0'.toNat := by
    rw [ofNumeral_cons, ofNumeral_nil, List.length_nil, pow_zero, mul_one, add_zero]
  have hpos := toNat_digit_pos hdigit h
  have hlt := toNat_digit_lt hdigit
  rw [ofNumeral_append, hlast, List.length_singleton, pow_one]
  omega

theorem exponent_le_of_not_ten_dvd {k m : Nat} {e f : Int} (hk : ¬ 10 ∣ k)
    (h : (k * 10 ^ f : ℚ) = m * 10 ^ e) : e ≤ f := by
  by_contra hcoarse
  obtain ⟨j, hj⟩ := Nat.exists_eq_add_one.2 (by omega : 0 < (e - f).toNat)
  rw [natCast_mul_ten_zpow m (not_le.1 hcoarse).le, mul_left_inj' (ten_zpow_pos f).ne'] at h
  apply hk
  rw [Nat.cast_inj.1 h, hj, pow_succ]
  exact ⟨m * 10 ^ j, by ring⟩

theorem IsTrimmed.length_le (h : IsTrimmed digits leading) (hd : AreDigits digits) {n m : Nat}
    (hm : m < 10 ^ n) {e f : Int} (hvalue : (ofNumeral digits * 10 ^ f : ℚ) = m * 10 ^ e) :
    digits.length ≤ n := by
  cases digits with
  | nil => exact Nat.zero_le n
  | cons c rest =>
      have hlast := List.getLast?_eq_some_getLast (List.cons_ne_nil c rest)
      have hfine := exponent_le_of_not_ten_dvd
        (not_ten_dvd_ofNumeral hd hlast (h.last_ne _ hlast)) hvalue
      rw [natCast_mul_ten_zpow _ hfine, mul_left_inj' (ten_zpow_pos e).ne'] at hvalue
      have hlow := ten_pow_le_ofNumeral (hd c List.mem_cons_self) (h.head_ne c rfl) rest
      have hle : ofNumeral (c :: rest) ≤ m := by
        rw [← Nat.cast_inj.1 hvalue]
        exact Nat.le_mul_of_pos_right _ (by positivity)
      exact (Nat.pow_lt_pow_iff_right (by decide)).1 ((hlow.trans hle).trans_lt hm)

/-- A decimal has as few digits as any number with its value. -/
theorem length_digits_le_iff (d : Decimal) {n : Nat} :
    d.digits.length ≤ n ↔ HasDigits n d.toFraction.toRat := by
  constructor
  · intro h
    exact ⟨ofNumeral d.digits, d.leadingExponent + 1 - d.digits.length,
      (ofNumeral_lt d.isDigit_of_mem_digits).trans_le (Nat.pow_le_pow_right (by decide) h),
      d.toRat_toFraction_digits⟩
  · rintro ⟨m, e, hm, hvalue⟩
    rw [d.toRat_toFraction_digits] at hvalue
    exact d.isTrimmed_digits.length_le d.isDigit_of_mem_digits hm hvalue

/-- The digits before any exponent, without the zeros at both ends. -/
def shownDigits (text : List Char) : List Char :=
  significant ((text.takeWhile (· ≠ 'e')).filter Char.isDigit)

theorem shownDigits_signed (negative : Bool) (text : List Char) :
    shownDigits ((if negative then ['-'] else []) ++ text) = shownDigits text := by
  cases negative <;> rfl

theorem IsTrimmed.significant_zeros (h : IsTrimmed digits leading) (j k : Nat) :
    significant (List.replicate j '0' ++ (digits ++ List.replicate k '0')) = digits := by
  have hback : (digits ++ List.replicate k '0').rdropWhile (· = '0') = digits := by
    rw [rdropWhile_zeros]
    exact List.rdropWhile_eq_self_iff.2 fun hn => by
      simpa using h.last_ne _ (List.getLast?_eq_some_getLast hn)
  rw [significant, dropWhile_zeros]
  cases digits with
  | nil =>
      have hzeros : (List.replicate k '0').dropWhile (· = '0') = [] :=
        List.dropWhile_eq_nil_iff.2 (by simp)
      rw [List.nil_append, hzeros]
      rfl
  | cons c rest =>
      have hc : c ≠ '0' := h.head_ne c rfl
      rw [List.cons_append, List.dropWhile_cons_of_neg (by simpa using hc), ← List.cons_append, hback]

theorem AreDigits.filter (hd : AreDigits digits) : digits.filter Char.isDigit = digits :=
  List.filter_eq_self.2 hd

theorem shownDigits_append {front rest : List Char} (hf : 'e' ∉ front)
    (hr : ∀ c ∈ rest.head?, c = 'e') :
    shownDigits (front ++ rest) = significant (front.filter Char.isDigit) := by
  have hother : ∀ c ∈ front, decide (c ≠ 'e') := fun c hc =>
    decide_eq_true (ne_of_mem_of_not_mem hc hf)
  rw [shownDigits, (Text.split_front hother rest (by simpa using hr)).1]

theorem IsTrimmed.shownDigits_positional (h : IsTrimmed digits leading) (hd : AreDigits digits)
    (e : Int) : shownDigits (positional digits e) = digits := by
  obtain ⟨whole, fraction, k, htext, -, hparts⟩ := exists_positional_zeros digits e
  have hall : AreDigits (whole ++ fraction) := hparts ▸ hd.zeros_around _ k
  have he : 'e' ∉ whole ++ '.' :: fraction := by
    intro he
    have hmem : 'e' ∈ whole ++ fraction := by simpa using he
    exact absurd (hall 'e' hmem) (by decide)
  have hfilter : (whole ++ '.' :: fraction).filter Char.isDigit = whole ++ fraction := by
    rw [List.filter_append, List.filter_cons_of_neg (by decide), ← List.filter_append, hall.filter]
  rw [htext, ← List.append_nil (whole ++ '.' :: fraction), shownDigits_append he (by simp), hfilter,
    hparts, h.significant_zeros]

theorem filter_pointed (hd : AreDigits digits) : (pointed digits).filter Char.isDigit = digits := by
  match digits, hd with
  | [], _ => rfl
  | [c], hd => exact hd.filter
  | first :: second :: rest, hd =>
      have hpoint : ('.' :: second :: rest).filter Char.isDigit =
          (second :: rest).filter Char.isDigit := List.filter_cons_of_neg (by decide)
      rw [pointed, List.filter_cons_of_pos (hd first List.mem_cons_self), hpoint,
        ← List.filter_cons_of_pos (hd first List.mem_cons_self), hd.filter]

theorem IsTrimmed.shownDigits_scientific (h : IsTrimmed digits leading) (hd : AreDigits digits)
    (e : Int) : shownDigits (scientific digits e) = digits := by
  have hself := h.significant_zeros 0 0
  rw [List.replicate_zero, List.nil_append, List.append_nil] at hself
  rw [scientific, shownDigits_append (e_notMem_pointed hd) (by simp), filter_pointed hd, hself]

theorem shownDigits_write (d : Decimal) : shownDigits d.write = d.digits := by
  rw [write, shownDigits_signed]
  split
  · exact d.isTrimmed_digits.shownDigits_positional d.isDigit_of_mem_digits _
  · exact d.isTrimmed_digits.shownDigits_scientific d.isDigit_of_mem_digits _

/-- Digits on both sides of the point, without a zero at either end unless it stands alone there. -/
structure IsFixed (whole fraction : List Char) : Prop where
  wholeDigits : AreDigits whole
  fractionDigits : AreDigits fraction
  whole_ne_nil : whole ≠ []
  fraction_ne_nil : fraction ≠ []
  whole_head : whole = ['0'] ∨ ∀ c ∈ whole.head?, c ≠ '0'
  fraction_last : fraction = ['0'] ∨ ∀ c ∈ fraction.getLast?, c ≠ '0'

theorem IsTrimmed.exists_fixed (h : IsTrimmed digits leading) (hd : AreDigits digits) :
    ∃ whole fraction, positional digits leading = whole ++ '.' :: fraction ∧
      IsFixed whole fraction ∧
      pointedValue whole fraction = ofNumeral digits * 10 ^ (leading + 1 - digits.length) := by
  obtain ⟨whole, fraction, htext, hne, hw, hf, hvalue⟩ := exists_positional hd leading
  obtain ⟨⟨-, hhead⟩, rest, hrest, hlast⟩ := h.sides hd hw htext
  refine ⟨whole, fraction, htext, ⟨hw, hf, hne, ?_, hhead, ?_⟩, hvalue⟩
  · rw [hrest]
    cases rest <;> exact List.cons_ne_nil _ _
  · rw [hrest]
    cases rest with
    | nil => exact .inl rfl
    | cons c more => exact .inr hlast

/-- The digits of an exponent, two of them or as many as it has. -/
structure IsExponent (places : List Char) (e : Int) : Prop where
  areDigits : AreDigits places
  value : ofNumeral places = e.natAbs
  two_le_length : 2 ≤ places.length
  head_ne : 2 < places.length → ∀ c ∈ places.head?, c ≠ '0'

theorem exists_exponentText (e : Int) : ∃ places,
    exponentText e = (if e < 0 then '-' else '+') :: places ∧ IsExponent places e := by
  refine ⟨(Nat.toDigits 10 e.natAbs).leftpad 2 '0', rfl,
    areDigits_leftpad 2 (areDigits_toDigits _), ?_, ?_, ?_⟩
  · rw [ofNumeral_leftpad, ofNumeral_toDigits]
  · rw [List.length_leftpad]
    exact Nat.le_max_left _ _
  · intro hlong
    rw [List.length_leftpad] at hlong
    have hlength : 2 < (Nat.toDigits 10 e.natAbs).length := by omega
    rw [List.leftpad, Nat.sub_eq_zero_of_le hlength.le]
    apply head?_toDigits
    intro hzero
    rw [hzero] at hlength
    exact absurd hlength (by decide)

theorem pointed_cons (first : Char) (rest : List Char) :
    pointed (first :: rest) = first :: if rest = [] then [] else '.' :: rest := by
  cases rest <;> rfl

theorem pointedValue_singleton (first : Char) (rest : List Char) (e : Int) :
    pointedValue [first] rest * 10 ^ e =
      ofNumeral (first :: rest) * 10 ^ (e + 1 - (first :: rest).length) := by
  have hexponent : e + 1 - (first :: rest).length = -(rest.length : ℤ) + e := by
    rw [List.length_cons]
    push_cast
    ring
  rw [pointedValue_eq, mul_assoc, ← zpow_add₀ (by norm_num), hexponent]
  rfl

end ExprLexer.Decimal

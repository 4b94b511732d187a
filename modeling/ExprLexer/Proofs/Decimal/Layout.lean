import ExprLexer.Proofs.Decimal.Digits
import ExprLexer.Proofs.Lexeme

namespace ExprLexer.Decimal

def AreDigits (text : List Char) : Prop := ∀ c ∈ text, c.isDigit

theorem AreDigits.append {a b : List Char} (ha : AreDigits a) (hb : AreDigits b) :
    AreDigits (a ++ b) := by
  intro c hc
  rcases List.mem_append.1 hc with h | h
  · exact ha c h
  · exact hb c h

theorem areDigits_zeros (n : Nat) : AreDigits (List.replicate n '0') := by
  intro c hc
  rw [List.eq_of_mem_replicate hc]
  rfl

theorem AreDigits.zeros_around {digits : List Char} (hd : AreDigits digits) (j k : Nat) :
    AreDigits (List.replicate j '0' ++ (digits ++ List.replicate k '0')) :=
  (areDigits_zeros j).append (hd.append (areDigits_zeros k))

theorem areDigits_toDigits (n : Nat) : AreDigits (Nat.toDigits 10 n) :=
  fun _ => Nat.isDigit_of_mem_toDigits (by decide) (le_refl 10)

theorem isNumeral_iff {text : List Char} : isNumeral text ↔ text ≠ [] ∧ AreDigits text := by
  simp [isNumeral, AreDigits]

theorem exists_positional_zeros (digits : List Char) (leading : Int) : ∃ whole fraction k,
    positional digits leading = whole ++ '.' :: fraction ∧ whole.length = leading.toNat + 1 ∧
      whole ++ fraction =
        List.replicate (-leading).toNat '0' ++ (digits ++ List.replicate k '0') := by
  let padded := List.replicate (-leading).toNat '0' ++ digits
  let width := leading.toNat + 1
  rcases le_or_gt padded.length width with h | h
  · refine ⟨padded ++ List.replicate (width - padded.length) '0', ['0'],
      width - padded.length + 1, ?_, ?_, ?_⟩
    · change (padded.take width).rightpad width '0' ++ '.' :: orZero (padded.drop width) = _
      rw [List.take_of_length_le h, List.drop_of_length_le h]
      rfl
    · rw [List.length_append, List.length_replicate, Nat.add_sub_cancel' h]
    · rw [List.append_assoc, ← List.replicate_succ', List.append_assoc]
  · refine ⟨padded.take width, padded.drop width, 0, ?_, List.length_take_of_le h.le, ?_⟩
    · change (padded.take width).rightpad width '0' ++ '.' :: orZero (padded.drop width) = _
      have hfull : (padded.take width).rightpad width '0' = padded.take width := by
        simp [List.rightpad, h.le]
      have hdrop : orZero (padded.drop width) = padded.drop width := by
        cases hrest : padded.drop width with
        | nil => exact absurd (List.drop_eq_nil_iff.1 hrest) (not_le.2 h)
        | cons c rest => rfl
      rw [hfull, hdrop]
    · rw [List.take_append_drop, List.replicate_zero, List.append_nil]

variable {digits : List Char} (hd : AreDigits digits) (leading : Int)

include hd

theorem exists_positional : ∃ whole fraction, positional digits leading = whole ++ '.' :: fraction ∧
    whole ≠ [] ∧ AreDigits whole ∧ AreDigits fraction ∧
    pointedValue whole fraction = ofNumeral digits * 10 ^ (leading + 1 - digits.length) := by
  obtain ⟨whole, fraction, k, htext, hwidth, hparts⟩ := exists_positional_zeros digits leading
  have hall : AreDigits (whole ++ fraction) := hparts ▸ hd.zeros_around _ k
  have hlength := congrArg List.length hparts
  simp only [List.length_append, List.length_replicate] at hlength
  have hexponent : leading + 1 - digits.length = k + -(fraction.length : ℤ) := by omega
  refine ⟨whole, fraction, htext, List.ne_nil_of_length_eq_add_one hwidth,
    fun c hc => hall c (List.mem_append_left _ hc),
    fun c hc => hall c (List.mem_append_right _ hc), ?_⟩
  rw [pointedValue_eq, hparts, ofNumeral_append, ofNumeral_append, ofNumeral_zeros, ofNumeral_zeros,
    List.length_replicate, hexponent, zpow_add₀ (by norm_num), zpow_natCast]
  push_cast
  ring

omit hd

/-- The digits in front of an exponent are a number literal that does not go on with it. -/
theorem exists_lexeme_pointed (hn : digits ≠ []) (hd : AreDigits digits) : ∃ x : Lexeme,
    x.chars = pointed digits ∧ ∀ rest, x.EndsBefore ('e' :: rest) := by
  match digits, hn, hd with
  | [c], _, hd => exact ⟨.whole [c] (by simp) hd, rfl, by simp [Lexeme.EndsBefore]⟩
  | first :: second :: rest, _, hd =>
      have hfirst : AreDigits [first] := by
        intro c hc
        rw [List.mem_singleton.1 hc]
        exact hd first List.mem_cons_self
      exact ⟨.pointed [first] (second :: rest) (by simp) hfirst
        (fun c hc => hd c (List.mem_cons_of_mem first hc)), rfl, by simp [Lexeme.EndsBefore]⟩

theorem e_notMem_pointed (hd : AreDigits digits) : 'e' ∉ pointed digits := by
  intro he
  match digits, hd with
  | [], _ => cases he
  | [c], hd => exact absurd (hd 'e' he) (by decide)
  | first :: second :: rest, hd =>
      rw [pointed, List.mem_cons, List.mem_cons] at he
      rcases he with rfl | he | he
      · exact absurd (hd 'e' List.mem_cons_self) (by decide)
      · cases he
      · exact absurd (hd 'e' (List.mem_cons_of_mem first he)) (by decide)

theorem areDigits_leftpad (n : Nat) (hd : AreDigits digits) : AreDigits (digits.leftpad n '0') :=
  (areDigits_zeros _).append hd

theorem ofNumeral_leftpad (digits : List Char) (n : Nat) :
    ofNumeral (digits.leftpad n '0') = ofNumeral digits := by
  rw [List.leftpad, ofNumeral_zeros_append]

theorem readExponent?_exponentText (e : Int) : readExponent? ('e' :: exponentText e) = some e := by
  let places := (Nat.toDigits 10 e.natAbs).leftpad 2 '0'
  have hnumeral : isNumeral places := by
    rw [isNumeral_iff]
    refine ⟨?_, areDigits_leftpad 2 (areDigits_toDigits _)⟩
    intro hnil
    have hlength := congrArg List.length hnil
    rw [List.length_leftpad, List.length_nil] at hlength
    omega
  have hvalue : ofNumeral places = e.natAbs := by
    rw [ofNumeral_leftpad, ofNumeral_toDigits]
  by_cases h : e < 0
  · rw [exponentText, if_pos h]
    change (if isNumeral places then some (-(ofNumeral places : Int)) else none) = some e
    rw [if_pos hnumeral, hvalue]
    congr 1
    omega
  · rw [exponentText, if_neg h]
    change (if isNumeral places then some (ofNumeral places : Int) else none) = some e
    rw [if_pos hnumeral, hvalue]
    congr 1
    omega

theorem readUnsigned?_scientific (negative : Bool) (hn : digits ≠ []) (hd : AreDigits digits) :
    readUnsigned? negative (scientific digits leading) =
      some ⟨negative, ofNumeral digits, leading + 1 - digits.length⟩ := by
  have hstop : ∀ c ∈ ('e' :: exponentText leading).head?, c.isDigit = false := by simp
  match digits, hn, hd with
  | [c], _, hd =>
      have hs := Text.split_front hd _ hstop
      simp only [readUnsigned?, scientific, pointed, hs, splitFraction]
      simp [readExponent?_exponentText]
  | first :: second :: rest, _, hd =>
      have hfirst : AreDigits [first] := fun c hc =>
        hd c (List.mem_cons.2 (.inl (List.mem_singleton.1 hc)))
      have hs := Text.split_front hfirst
        ('.' :: (second :: rest ++ 'e' :: exponentText leading)) (by simp)
      have hf := Text.split_front (fun c hc => hd c (List.mem_cons_of_mem first hc))
        _ hstop
      have htext : scientific (first :: second :: rest) leading =
          [first] ++ '.' :: (second :: rest ++ 'e' :: exponentText leading) := rfl
      simp only [htext, readUnsigned?, hs, splitFraction, hf, readExponent?_exponentText]
      simp

theorem isDigit_head_scientific (hn : digits ≠ []) (hd : AreDigits digits) :
    ∀ c ∈ (scientific digits leading).head?, c.isDigit := by
  match digits, hn, hd with
  | [c], _, hd => simpa [scientific, pointed] using hd c
  | first :: second :: rest, _, hd => simpa [scientific, pointed] using hd first

theorem read?_signed (negative : Bool) {text : List Char} (h : ∀ c ∈ text.head?, c ≠ '-') :
    read? ((if negative then ['-'] else []) ++ text) = readUnsigned? negative text := by
  cases negative with
  | true => rfl
  | false =>
      change read? text = readUnsigned? false text
      cases text with
      | nil => rfl
      | cons c rest =>
          rw [read?.eq_def]
          split
          · rename_i heq
            exact absurd (List.cons.inj heq).1 (h c rfl)
          · rfl

theorem exists_read?_write (d : Decimal) (h : isPositional d.leadingExponent = false)
    (hne : d.coefficient ≠ 0) : ∃ e, read? d.write = some e ∧ e.negative = d.negative ∧
      e.toFraction.toRat = d.toFraction.toRat := by
  have hhead : ∀ c ∈ (scientific d.digits d.leadingExponent).head?, c ≠ '-' := by
    rintro c hc rfl
    exact absurd (isDigit_head_scientific _ (d.digits_ne_nil hne) d.isDigit_of_mem_digits _ hc)
      (by decide)
  refine ⟨⟨d.negative, ofNumeral d.digits, d.leadingExponent + 1 - d.digits.length⟩, ?_, rfl, ?_⟩
  · rw [write, h, if_neg Bool.false_ne_true, read?_signed _ hhead]
    exact readUnsigned?_scientific _ _ (d.digits_ne_nil hne) d.isDigit_of_mem_digits
  · rw [toRat_toFraction, toRat_toFraction_digits d]

end ExprLexer.Decimal

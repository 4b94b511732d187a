import ExprLexer.Proofs.Binary64.Shortest
import ExprLexer.Proofs.Decimal.Layout
import ExprLexer.Proofs.FloatLiteral

namespace ExprLexer

def signChars (negative : Bool) : List Char := if negative then ['-'] else []

def signTokens (negative : Bool) (p : Position) : List Token :=
  if negative then [⟨.minus, none, p, p.forward 1⟩] else []

namespace Split

def signed (negative : Bool) (s : Split) : Split :=
  if negative then .piece .empty (.symbol '-' .minus (by decide)) s else s

variable (negative : Bool) (s : Split)

@[simp]
theorem chars_signed : (s.signed negative).chars = signChars negative ++ s.chars := by
  cases negative <;> rfl

theorem tokensAt_signed (p : Position) : (s.signed negative).tokensAt p =
    signTokens negative p ++ s.tokensAt (p.forward (signChars negative).length) := by
  cases negative <;> rfl

variable {s}

theorem Reads.signed {text following : List Char} (h : s.Reads text following) :
    (s.signed negative).Reads (signChars negative ++ text) following := by
  cases negative with
  | false => exact h
  | true => exact ⟨congrArg (List.cons '-') h.chars_append, ⟨trivial, h.maximal⟩, h.stops⟩

theorem refusalAt_of_ne (s : Split) (p : Position) {c : Char} (hc : c ≠ '\n') :
    s.refusalAt p c = ⟨.illegalCharacter c, p.forward s.chars.length,
      p.forward (s.chars.length + 1)⟩ := by
  have hstop (q : Position) : q.advance (some c) = q.forward 1 :=
    q.advance_of_ne (by simpa using hc)
  rw [refusalAt, hstop, Position.forward_forward]

end Split

namespace Binary64

def writtenSource (name : String) (x : Binary64) : Source := ⟨name, (Number.float x).toText⟩

variable (name : String) {x : Binary64}

theorem toList_writtenSource : (x.writtenSource name).text.toList = x.write :=
  String.toList_ofList

theorem write_of_isFinite (h : x.isFinite) : x.write = x.shortest.write := by
  obtain ⟨hnan, hinf⟩ := (isFinite_iff x).1 h
  rw [write, hnan, if_neg Bool.false_ne_true, if_neg hinf]

theorem run_writtenSource_nan (h : x.isNaN) : run (x.writtenSource name) =
    .error ⟨.illegalCharacter 'N', .start (x.writtenSource name),
      (Position.start (x.writtenSource name)).forward 1⟩ := by
  have hreads : (Split.last .empty).Reads ['N', 'a', 'N'] ['N', 'a', 'N'] :=
    ⟨rfl, trivial, isIllegal_head rfl _⟩
  have htext : (x.writtenSource name).text.toList = ['N', 'a', 'N'] := by
    rw [toList_writtenSource, write, if_pos h]
  rw [hreads.run_error htext, Split.refusalAt_of_ne _ _ (by decide)]
  rfl

theorem run_writtenSource_infinite (h : x.isInfinite) : run (x.writtenSource name) =
    .error ⟨.illegalCharacter 'i',
      (Position.start (x.writtenSource name)).forward (signChars x.isNegative).length,
      (Position.start (x.writtenSource name)).forward ((signChars x.isNegative).length + 1)⟩ := by
  have hreads : (Split.last .empty).Reads ['i', 'n', 'f'] ['i', 'n', 'f'] :=
    ⟨rfl, trivial, isIllegal_head rfl _⟩
  have hnan : x.isNaN = false := by
    have hm : x.magnitude = infinity := of_decide_eq_true h
    exact decide_eq_false hm.le.not_gt
  have htext : (x.writtenSource name).text.toList =
      signChars x.isNegative ++ ['i', 'n', 'f'] := by
    rw [toList_writtenSource, write, hnan, if_neg Bool.false_ne_true, if_pos h]
    rfl
  have hempty : (Split.last .empty).chars = [] := rfl
  rw [(hreads.signed x.isNegative).run_error htext, Split.refusalAt_of_ne _ _ (by decide),
    Split.chars_signed, hempty, List.append_nil]

theorem exists_pointed_write (h : x.isFinite) (hx : x.IsPlain) : ∃ whole fraction,
    x.write = signChars x.isNegative ++ (whole ++ '.' :: fraction) ∧ whole ≠ [] ∧
      (∀ c ∈ whole, c.isDigit) ∧ (∀ c ∈ fraction, c.isDigit) ∧
      ofPointed whole fraction = ofParts false x.magnitude := by
  obtain ⟨whole, fraction, htext, hne, hwhole, hfraction, hvalue⟩ :=
    Decimal.exists_positional x.shortest.isDigit_of_mem_digits x.shortest.leadingExponent
  refine ⟨whole, fraction, ?_, hne, hwhole, hfraction, ?_⟩
  · rw [write_of_isFinite h, Decimal.write, if_pos ((isPositional_shortest_iff h).2 hx), htext,
      negative_shortest h]
    rfl
  · rw [← Decimal.toRat_toFraction_digits] at hvalue
    apply ext_parts
    · rw [isNegative_ofPointed, isNegative_ofParts _ x.magnitude_lt]
    · rw [magnitude_ofParts _ x.magnitude_lt, ← nearestMagnitude_shortest h, ofPointed,
        magnitude_ofDecimal]
      apply nearestMagnitude_congr (Decimal.toFraction_den_pos _) (Decimal.toFraction_den_pos _)
      rw [Decimal.toRat_toFraction_pointed, hvalue]

theorem run_writtenSource_plain (h : x.isFinite) (hx : x.IsPlain) : run (x.writtenSource name) =
    .ok (signTokens x.isNegative (.start (x.writtenSource name)) ++
      [⟨.float, some (.float (ofParts false x.magnitude)),
        (Position.start (x.writtenSource name)).forward (signChars x.isNegative).length,
        (Position.start (x.writtenSource name)).forward x.write.length⟩]) := by
  obtain ⟨whole, fraction, htext, hne, hwhole, hfraction, hvalue⟩ := exists_pointed_write h hx
  let literal : Lexeme := .pointed whole fraction hne hwhole hfraction
  have hreads := (Split.Reads.lone_all literal).signed x.isNegative
  have hchars : x.write = signChars x.isNegative ++ literal.chars := htext
  rw [hreads.run_ok ((toList_writtenSource name).trans hchars), Split.tokensAt_signed, ← hvalue,
    hchars, List.length_append, ← Position.forward_forward]
  rfl

theorem exists_scientific_write (h : x.isFinite) (hx : ¬ x.IsPlain) :
    ∃ (literal : Lexeme) (exponent : List Char),
      x.write = signChars x.isNegative ++ (literal.chars ++ 'e' :: exponent) ∧
      'e' ∉ signChars x.isNegative ++ literal.chars ∧ literal.EndsBefore ('e' :: exponent) := by
  have hdigits := x.shortest.isDigit_of_mem_digits
  have hm : x.magnitude ≠ 0 := fun hzero => hx (.inl (toRat_eq_zero_iff.2 hzero))
  have hne := x.shortest.digits_ne_nil (coefficient_shortest_ne_zero h hm)
  obtain ⟨literal, hchars, hend⟩ := Decimal.exists_lexeme_pointed hne hdigits
  refine ⟨literal, Decimal.exponentText x.shortest.leadingExponent, ?_, ?_, hend _⟩
  · rw [write_of_isFinite h, Decimal.write, if_neg (mt (isPositional_shortest_iff h).1 hx), hchars,
      negative_shortest h]
    rfl
  · rw [List.mem_append, not_or, hchars]
    refine ⟨?_, Decimal.e_notMem_pointed hdigits⟩
    cases x.isNegative <;> decide

theorem exists_read?_write (h : x.isFinite) (hx : ¬ x.IsPlain) : ∃ d,
    Decimal.read? x.write = some d ∧ d.negative = x.isNegative ∧ ofDecimal d = x := by
  have hm : x.magnitude ≠ 0 := fun hzero => hx (.inl (toRat_eq_zero_iff.2 hzero))
  have hlayout : Decimal.isPositional x.shortest.leadingExponent = false :=
    Bool.eq_false_iff.2 (mt (isPositional_shortest_iff h).1 hx)
  obtain ⟨d, hread, hs, hvalue⟩ :=
    x.shortest.exists_read?_write hlayout (coefficient_shortest_ne_zero h hm)
  rw [negative_shortest h] at hs
  refine ⟨d, by rw [write_of_isFinite h, hread], hs, ?_⟩
  apply ext_parts
  · rw [isNegative_ofDecimal, hs]
  · rw [magnitude_ofDecimal, ← nearestMagnitude_shortest h]
    exact nearestMagnitude_congr d.toFraction_den_pos (Decimal.toFraction_den_pos _) hvalue

end Binary64

open Binary64

/-- A plain number comes back from its text as one token, after a minus if there is a sign. In the
text of any other finite number the `e` of the exponent is refused, after a part that would be
accepted, and the decimal that is written there is still rounded to the number. In the text of what
is no finite number the first letter is refused. -/
theorem run_written_float (name : String) (x : Binary64) :
    (x.isFinite → x.IsPlain → x.isNegative = false → run (x.writtenSource name) =
      .ok [⟨.float, some (.float x), .start (x.writtenSource name),
        (Position.start (x.writtenSource name)).forward x.write.length⟩]) ∧
    (x.isFinite → x.IsPlain → x.isNegative → run (x.writtenSource name) =
      .ok [⟨.minus, none, .start (x.writtenSource name),
          (Position.start (x.writtenSource name)).forward 1⟩,
        ⟨.float, some (.float (ofParts false x.magnitude)),
          (Position.start (x.writtenSource name)).forward 1,
          (Position.start (x.writtenSource name)).forward x.write.length⟩]) ∧
    (x.isFinite → ¬ x.IsPlain → ∃ mantissa exponent,
      (x.writtenSource name).text.toList = mantissa ++ 'e' :: exponent ∧ 'e' ∉ mantissa ∧
      run (x.writtenSource name) = .error ⟨.illegalCharacter 'e',
        (Position.start (x.writtenSource name)).forward mantissa.length,
        (Position.start (x.writtenSource name)).forward (mantissa.length + 1)⟩ ∧
      (∃ tokens, run ⟨name, String.ofList mantissa⟩ = .ok tokens) ∧
      ∃ d, Decimal.read? (x.writtenSource name).text.toList = some d ∧
        d.negative = x.isNegative ∧ IsRounded d.toRat x) ∧
    (x.isInfinite → run (x.writtenSource name) = .error ⟨.illegalCharacter 'i',
      (Position.start (x.writtenSource name)).forward (if x.isNegative then 1 else 0),
      (Position.start (x.writtenSource name)).forward (if x.isNegative then 2 else 1)⟩) ∧
    (x.isNaN → run (x.writtenSource name) = .error ⟨.illegalCharacter 'N',
      .start (x.writtenSource name), (Position.start (x.writtenSource name)).forward 1⟩) := by
  refine ⟨?_, ?_, ?_, ?_, run_writtenSource_nan name⟩
  · intro h hx hs
    have hself : ofParts false x.magnitude = x := hs ▸ ofParts_self x
    rw [run_writtenSource_plain name h hx, hs, hself]
    rfl
  · intro h hx hs
    rw [run_writtenSource_plain name h hx, hs]
    rfl
  · intro h hx
    obtain ⟨literal, exponent, htext, he, hend⟩ := exists_scientific_write h hx
    obtain ⟨d, hread, hs, hround⟩ := exists_read?_write h hx
    have hreads := (Split.Reads.lone hend (isIllegal_head rfl exponent)).signed x.isNegative
    have hmantissa := (Split.Reads.lone_all literal).signed x.isNegative
    refine ⟨signChars x.isNegative ++ literal.chars, exponent, ?_, he, ?_, ?_, d, ?_, hs, ?_⟩
    · rw [toList_writtenSource, htext, List.append_assoc]
    · rw [hreads.run_error ((toList_writtenSource name).trans htext),
        Split.refusalAt_of_ne _ _ (by decide), Split.chars_signed, Split.chars_lone]
    · exact ⟨_, hmantissa.run_ok String.toList_ofList⟩
    · rw [toList_writtenSource, hread]
    · rw [← hround]
      exact isRounded_ofDecimal d
  · intro h
    rw [run_writtenSource_infinite name h]
    cases x.isNegative <;> rfl

end ExprLexer

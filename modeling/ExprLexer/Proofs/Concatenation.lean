import ExprLexer.Proofs.Refusal
import ExprLexer.Proofs.Resumption

namespace ExprLexer

def isNumberChar (c : Char) : Bool := c.isDigit || c = '.'

/-- No number can go on from the first text into the second. -/
def Apart (s t : List Char) : Prop :=
  ¬ ((∃ c ∈ s.getLast?, isNumberChar c) ∧ ∃ c ∈ t.head?, isNumberChar c)

theorem Apart.of_append {a s t : List Char} (h : Apart (a ++ s) t) : Apart s t := by
  rintro ⟨⟨c, hc, hn⟩, ht⟩
  refine h ⟨⟨c, ?_, hn⟩, ht⟩
  rw [List.getLast?_append, Option.mem_def.1 hc]
  rfl

namespace Lexeme

theorem isNumberChar_of_mem_chars {x : Lexeme} (hx : x.value.isSome) {c : Char}
    (hc : c ∈ x.chars) : isNumberChar c := by
  cases x with
  | symbol => cases hx
  | whole digits _ areDigits => simp [isNumberChar, areDigits c hc]
  | pointed digits fraction _ areDigits fractionDigits =>
      rcases List.mem_append.1 hc with h | h
      · simp [isNumberChar, areDigits c h]
      · rcases List.mem_cons.1 h with rfl | h
        · rfl
        · simp [isNumberChar, fractionDigits c h]

theorem endsBefore_of_apart {x : Lexeme} {rest : List Char} (h : Apart x.chars rest) :
    x.EndsBefore rest := by
  have hhead (hx : x.value.isSome) : ∀ c ∈ rest.head?, c.isDigit = false ∧ c ≠ '.' := by
    intro c hc
    have hlast := List.getLast?_eq_some_getLast x.chars_ne_nil
    have hnumber := isNumberChar_of_mem_chars hx (List.getLast_mem x.chars_ne_nil)
    have hc : ¬ isNumberChar c := fun hn => h ⟨⟨_, hlast, hnumber⟩, ⟨c, hc, hn⟩⟩
    simpa [isNumberChar] using hc
  cases x with
  | symbol => trivial
  | whole => exact hhead rfl
  | pointed => exact fun c hc => (hhead rfl c hc).1

end Lexeme

def Gap.append (g h : Gap) : Gap :=
  ⟨g.chars ++ h.chars, List.forall_mem_append.2 ⟨g.areBlank, h.areBlank⟩⟩

namespace Split

/-- The gaps at the seam become one. -/
def append : Split → Split → Split
  | last g, last h => last (g.append h)
  | last g, piece h x t => piece (g.append h) x t
  | piece g x s, t => piece g x (s.append t)

variable (s t : Split)

@[simp]
theorem chars_append : (s.append t).chars = s.chars ++ t.chars := by
  induction s with
  | last g => cases t <;> simp [append, chars, Gap.append]
  | piece g x s ih => simp [append, chars, ih]

theorem tokensAt_append (p : Position) : (s.append t).tokensAt p =
    s.tokensAt p ++ t.tokensAt (p.forward s.chars.length) := by
  induction s generalizing p with
  | last g =>
      cases t with
      | last h => rfl
      | piece h x t => simp [append, tokensAt, chars, Gap.append, Nat.add_assoc]
  | piece g x s ih => simp [append, tokensAt, ih, chars, Nat.add_assoc]

variable {s t}

theorem IsMaximal.append {following : List Char} (hs : s.IsMaximal []) (ht : t.IsMaximal following)
    (hseam : Apart s.chars (t.chars ++ following)) : (s.append t).IsMaximal following := by
  induction s with
  | last g =>
      cases t with
      | last h => trivial
      | piece h x t => exact ht
  | piece g x s ih =>
      rw [chars, ← List.append_assoc] at hseam
      refine ⟨?_, ih hs.2 hseam.of_append⟩
      rw [chars_append, List.append_assoc]
      cases hchars : s.chars with
      | nil =>
          -- the lexeme stands at the seam
          rw [hchars, List.append_nil] at hseam
          exact Lexeme.endsBefore_of_apart hseam.of_append
      | cons c rest => exact hs.1.mono (by simp [hchars])

theorem Reads.append {a b following : List Char} (hs : s.Reads a []) (ht : t.Reads b following)
    (hseam : Apart a b) : (s.append t).Reads (a ++ b) following := by
  obtain ⟨rfl, hmax⟩ := reads_all_iff.1 hs
  rw [ht.chars_append] at hseam ⊢
  exact ⟨by simp, hmax.append ht.maximal hseam, ht.stops⟩

end Split

/-- After an accepted text that no number goes on from, a text is scanned as it is alone: its tokens
come after those of the first, as many characters to the right as the first has, or it is refused
where it is refused alone. -/
theorem run_append (name s t : String) {ts : List Token} (hs : run ⟨name, s⟩ = .ok ts)
    (hseam : Apart s.toList t.toList) :
    (∀ us, run ⟨name, t⟩ = .ok us →
      (∀ u ∈ us, u.span.start.line = 0 ∧ u.span.stop.line = 0) ∧
      run ⟨name, s ++ t⟩ = .ok (ts.map (Token.translate (.start ⟨name, s ++ t⟩)) ++
        us.map (Token.translate ((Position.start ⟨name, s ++ t⟩).forward s.toList.length)))) ∧
    ∀ e, run ⟨name, t⟩ = .error e → ∃ (i : Nat) (c : Char),
      e = Source.refusal ⟨name, t⟩ i c ∧
      run ⟨name, s ++ t⟩ = .error (Source.refusal ⟨name, s ++ t⟩ (s.toList.length + i) c) := by
  let whole : Source := ⟨name, s ++ t⟩
  obtain ⟨front, hfront, rfl⟩ := Split.run_eq_ok_iff_reads.1 hs
  have hlength : front.chars.length = s.toList.length :=
    congrArg List.length (Split.reads_all_iff.1 hfront).1
  have htext : whole.text.toList = s.toList ++ t.toList := String.toList_append
  constructor
  · intro us hus
    obtain ⟨back, hback, rfl⟩ := Split.run_eq_ok_iff_reads.1 hus
    constructor
    · intro u hu
      obtain ⟨x, n, -, rfl⟩ := Split.exists_tokenAt_of_mem hu
      exact ⟨rfl, rfl⟩
    · rw [(hfront.append hback hseam).run_ok htext, Split.tokensAt_append, hlength,
        Split.tokensAt_translate, Split.tokensAt_translate, Position.translate_start,
        Position.translate_start]
  · intro e he
    obtain ⟨back, c, rest, hback, rfl⟩ := Split.run_eq_error_iff_reads.1 he
    refine ⟨back.chars.length, c, rfl, ?_⟩
    rw [(hfront.append hback hseam).run_error htext, Split.refusalAt_start, Split.chars_append,
      List.length_append, hlength]

theorem run_append_minus : ∃ ts us : List Token, run ⟨"calc", "12"⟩ = .ok ts ∧
    Apart "12".toList "-".toList ∧ run ⟨"calc", "-"⟩ = .ok us ∧
    run ⟨"calc", "12-"⟩ = .ok (ts.map (Token.translate (.start ⟨"calc", "12-"⟩)) ++
      us.map (Token.translate ((Position.start ⟨"calc", "12-"⟩).forward 2))) := by
  let twelve : Lexeme := .whole ['1', '2'] (List.cons_ne_nil _ _) (List.all_eq_true.1 rfl)
  have hs : run ⟨"calc", "12"⟩ = .ok _ := (Split.Reads.lone_all twelve).run_ok rfl
  have ht : run ⟨"calc", "-"⟩ = .ok _ :=
    (Split.Reads.lone_all (.symbol '-' .minus (by decide))).run_ok rfl
  have hseam : Apart "12".toList "-".toList := by
    rintro ⟨-, c, ⟨⟩, hc⟩
    exact absurd hc (by decide)
  exact ⟨_, _, hs, hseam, ht, ((run_append "calc" "12" "-" hs hseam).1 _ ht).2⟩

end ExprLexer

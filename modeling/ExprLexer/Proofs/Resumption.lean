import ExprLexer.Proofs.Cursor
import ExprLexer.Proofs.Split
import Mathlib.Logic.Function.Iterate

namespace ExprLexer

/-- A position in a text as a position in a longer text, of which the former starts at `base`. -/
def Position.translate (base p : Position) : Position :=
  ⟨base.offset + p.offset, base.line + p.line,
    if p.line = 0 then base.column + p.column else p.column, base.source⟩

def Span.translate (base : Position) (s : Span) : Span :=
  ⟨base.translate s.start, base.translate s.stop⟩

def Token.translate (base : Position) (t : Token) : Token :=
  ⟨t.kind, t.value, t.span.translate base⟩

def LexError.translate (base : Position) (e : LexError) : LexError :=
  ⟨e.cause, e.span.translate base⟩

def Outcome.translate (base : Position) : Outcome → Outcome
  | .ok tokens => .ok (tokens.map (Token.translate base))
  | .error e => .error (e.translate base)

namespace Position

@[simp]
theorem translate_start (base : Position) (source : Source) :
    base.translate (start source) = base := rfl

@[simp]
theorem translate_forward (base p : Position) (n : Nat) :
    base.translate (p.forward n) = (base.translate p).forward n := by
  by_cases h : p.line = 0 <;> simp [translate, forward, h, Nat.add_assoc]

@[simp]
theorem translate_advance (base p : Position) (passed : Option Char) :
    base.translate (p.advance passed) = (base.translate p).advance passed := by
  by_cases h : passed = some '\n'
  · subst h
    simp [translate, advance_newline, Nat.add_assoc]
  · rw [advance_of_ne _ h, advance_of_ne _ h]
    by_cases hl : p.line = 0 <;> simp [translate, hl, Nat.add_assoc]

theorem offset_lt_advance (p : Position) (passed : Option Char) :
    p.offset < (p.advance passed).offset := by
  rw [offset_advance]
  exact Nat.lt_succ_self _

end Position

namespace Split

theorem tokensAt_translate (s : Split) (base p : Position) :
    (s.tokensAt p).map (Token.translate base) = s.tokensAt (base.translate p) := by
  induction s generalizing p with
  | last gap => rfl
  | piece gap x s ih =>
      rw [tokensAt, List.map_cons, ih, tokensAt, Position.translate_forward]
      simp [Token.translate, Span.translate, Lexeme.tokenAt]

theorem outcome_scanAt_translate (s : Split) (base p : Position) (following : List Char) :
    (s.scanAt (base.translate p) following).outcome =
      Outcome.translate base (s.scanAt p following).outcome := by
  cases following with
  | nil => exact congrArg Except.ok (s.tokensAt_translate base p).symm
  | cons c rest =>
      simp [scanAt, Scan.outcome, Outcome.translate, refusalAt, LexError.translate, Span.translate]

end Split

namespace Lexer

def next (l : Lexer) : Lexer := l.tokenize.2

theorem tokenize_at (source : Source) (l : Lexer) (h : source.text.toList = l.unread) :
    l.tokenize.1 = Outcome.translate l.position (ofSource source).tokenize.1 := by
  obtain ⟨s, following, hs⟩ := Split.exists_reads l.unread
  have hfresh : s.Reads (ofSource source).unread following := by
    rw [ofSource, h]
    exact hs
  simp only [tokenize, hs.scan_eq, hfresh.scan_eq]
  exact s.outcome_scanAt_translate l.position (.start source) following

/-- A call reads all that is unread, or it stops past a character that it refuses. -/
theorem tokenize_cases (l : Lexer) :
    (∃ tokens, l.tokenize = (.ok tokens, ⟨l.position.forward l.unread.length, []⟩)) ∨
    ∃ (s : Split) (c : Char) (rest : List Char), l.unread = s.chars ++ c :: rest ∧
      l.tokenize = (.error (s.refusalAt l.position c),
        ⟨(s.refusalAt l.position c).span.stop, rest⟩) := by
  obtain ⟨s, following, hs⟩ := Split.exists_reads l.unread
  have hlength := congrArg List.length hs.chars_append
  rw [tokenize, hs.scan_eq]
  cases following with
  | nil =>
      rw [List.append_nil] at hlength
      exact .inl ⟨s.tokensAt l.position, by rw [hlength]; rfl⟩
  | cons c rest => exact .inr ⟨s, c, rest, hs.chars_append, rfl⟩

theorem tokenize_end {l : Lexer} (h : l.unread = []) : l.tokenize = (.ok [], l) := by
  rw [tokenize, scan_end h]
  rfl

theorem tokenize_ok {l : Lexer} {tokens : List Token} (h : l.tokenize.1 = .ok tokens) :
    l.next = ⟨l.position.forward l.unread.length, []⟩ := by
  rcases l.tokenize_cases with ⟨tokens', ht⟩ | ⟨s, c, rest, -, ht⟩
  · rw [next, ht]
  · rw [ht] at h
    cases h

theorem tokenize_error {l : Lexer} {e : LexError} (h : l.tokenize.1 = .error e) :
    l.next.position = e.span.stop ∧ l.next.unread.length < l.unread.length ∧
      l.position.offset ≤ e.span.start.offset ∧
      ∃ c, e.cause = .illegalCharacter c ∧ e.span.stop = e.span.start.advance (some c) ∧
        l.unread[e.span.start.offset - l.position.offset]? = some c := by
  rcases l.tokenize_cases with ⟨tokens, ht⟩ | ⟨s, c, rest, hl, ht⟩
  · rw [ht] at h
    cases h
  · rw [ht] at h
    obtain rfl := Except.error.inj h
    have hlength := congrArg List.length hl
    rw [List.length_append, List.length_cons] at hlength
    rw [next, ht]
    refine ⟨rfl, by simp only; omega, by simp [Split.refusalAt], c, rfl, rfl, ?_⟩
    simp [hl, Split.refusalAt]

/-- The cursor stands in the text of its source, and the unread text is what follows it. -/
structure Within (source : Source) (l : Lexer) : Prop where
  source_eq : l.position.source = source
  offset_le : l.position.offset ≤ source.text.toList.length
  unread_eq : l.unread = source.text.toList.drop l.position.offset

theorem Within.length_unread {source : Source} {l : Lexer} (h : Within source l) :
    l.position.offset + l.unread.length = source.text.toList.length := by
  have := h.offset_le
  rw [h.unread_eq, List.length_drop]
  omega

theorem offset_le_next (l : Lexer) : l.position.offset ≤ l.next.position.offset := by
  rcases l.tokenize_cases with ⟨tokens, ht⟩ | ⟨s, c, rest, -, ht⟩
  · rw [next, ht]
    simp
  · rw [next, ht]
    simp only [Split.refusalAt, Position.offset_advance, Position.offset_forward]
    omega

end Lexer

def Source.resumed (source : Source) (calls : Nat) : Lexer := Lexer.next^[calls] (.ofSource source)

namespace Source

variable (source : Source)

theorem resumed_succ (k : Nat) : source.resumed (k + 1) = (source.resumed k).next :=
  Function.iterate_succ_apply' Lexer.next k _

theorem exists_resumed_eq_lexerAt (k : Nat) :
    ∃ n ≤ source.text.toList.length, source.resumed k = source.lexerAt n := by
  induction k with
  | zero => exact ⟨0, Nat.zero_le _, source.lexerAt_zero.symm⟩
  | succ k ih =>
      obtain ⟨n, hn, hl⟩ := ih
      rw [resumed_succ]
      exact (leaves_scanAfter hl hn (List.forall_mem_nil _)).lexer

theorem within_resumed (k : Nat) : Lexer.Within source (source.resumed k) := by
  obtain ⟨n, hn, hl⟩ := source.exists_resumed_eq_lexerAt k
  rw [hl]
  exact ⟨rfl, hn, rfl⟩

theorem offset_resumed_le {j k : Nat} (h : j ≤ k) :
    (source.resumed j).position.offset ≤ (source.resumed k).position.offset := by
  induction h with
  | refl => exact Nat.le_refl _
  | step _ ih =>
      rw [resumed_succ]
      exact Nat.le_trans ih (Lexer.offset_le_next _)

theorem resumed_of_end {j : Nat} (h : (source.resumed j).unread = []) {k : Nat} (hk : j ≤ k) :
    source.resumed k = source.resumed j := by
  induction hk with
  | refl => rfl
  | step _ ih => rw [resumed_succ, ih, Lexer.next, Lexer.tokenize_end h]

theorem length_unread_resumed (k : Nat)
    (h : ∀ j < k, ∀ tokens, (source.resumed j).tokenize.1 ≠ .ok tokens) :
    (source.resumed k).unread.length + k ≤ source.text.toList.length := by
  induction k with
  | zero => exact Nat.le_refl _
  | succ k ih =>
      have hk := ih fun j hj => h j (Nat.lt_succ_of_lt hj)
      cases ho : (source.resumed k).tokenize.1 with
      | ok tokens => exact absurd ho (h k (Nat.lt_succ_self k) tokens)
      | error e =>
          have := (Lexer.tokenize_error ho).2.1
          rw [resumed_succ]
          omega

theorem exists_resumed_ok : ∃ k ≤ source.text.toList.length, ∃ tokens,
    (source.resumed k).tokenize.1 = .ok tokens := by
  by_contra hnone
  have hlength := source.length_unread_resumed source.text.toList.length
    fun j hj tokens ht => hnone ⟨j, Nat.le_of_lt hj, tokens, ht⟩
  have hend : (source.resumed source.text.toList.length).unread = [] :=
    List.eq_nil_of_length_eq_zero (by omega)
  exact hnone ⟨_, Nat.le_refl _, [], by rw [Lexer.tokenize_end hend]⟩

/-- After any calls the next one does what the first call on the unread suffix would do, and the
cursor stands past the refused character or at the end. So refusals move on through the text, calls
come to its end, and from then on there is nothing to read. -/
theorem resumed_tokenize :
    (∀ k, (source.resumed k).position.source = source ∧
      (source.resumed k).tokenize.1 = Outcome.translate (source.resumed k).position
        (Lexer.ofSource ⟨source.name, String.ofList
          (source.text.toList.drop (source.resumed k).position.offset)⟩).tokenize.1 ∧
      (∀ e, (source.resumed k).tokenize.1 = .error e →
        (source.resumed k).tokenize.2.position = e.span.stop ∧
        ∃ c, e.cause = .illegalCharacter c ∧ e.span.stop = e.span.start.advance (some c) ∧
          source.text.toList[e.span.start.offset]? = some c) ∧
      ∀ tokens, (source.resumed k).tokenize.1 = .ok tokens →
        (source.resumed k).tokenize.2.position.offset = source.text.toList.length) ∧
    (∀ j k e f, j < k → (source.resumed j).tokenize.1 = .error e →
      (source.resumed k).tokenize.1 = .error f → e.span.start.offset < f.span.start.offset) ∧
    (∃ k ≤ source.text.toList.length, ∃ tokens, (source.resumed k).tokenize.1 = .ok tokens) ∧
    ∀ j k tokens, j < k → (source.resumed j).tokenize.1 = .ok tokens →
      (source.resumed k).tokenize.1 = .ok [] ∧
      (source.resumed k).tokenize.2.position = (source.resumed k).position := by
  refine ⟨fun k => ?_, ?_, source.exists_resumed_ok, ?_⟩
  · have hin := source.within_resumed k
    refine ⟨hin.source_eq, ?_, ?_, ?_⟩
    · exact Lexer.tokenize_at _ _ (by simp [hin.unread_eq])
    · intro e he
      obtain ⟨hstop, -, hle, c, hc, hspan, hat⟩ := Lexer.tokenize_error he
      refine ⟨hstop, c, hc, hspan, ?_⟩
      rwa [hin.unread_eq, List.getElem?_drop, Nat.add_sub_cancel' hle] at hat
    · intro tokens ht
      have hend : (source.resumed k).tokenize.2 = _ := Lexer.tokenize_ok ht
      rw [hend]
      exact hin.length_unread
  · intro j k e f hjk he hf
    obtain ⟨hstop, -, -, c, -, hspan, -⟩ := Lexer.tokenize_error he
    have hle := source.offset_resumed_le (Nat.succ_le_of_lt hjk)
    have hf := (Lexer.tokenize_error hf).2.2.1
    have hpast := e.span.start.offset_lt_advance (some c)
    rw [Nat.succ_eq_add_one, resumed_succ, hstop, hspan] at hle
    omega
  · intro j k tokens hjk ht
    have hend : (source.resumed (j + 1)).unread = [] := by
      rw [resumed_succ, Lexer.tokenize_ok ht]
    have hk := source.resumed_of_end hend (Nat.succ_le_of_lt hjk)
    rw [hk, Lexer.tokenize_end hend]
    exact ⟨rfl, rfl⟩

end Source
end ExprLexer

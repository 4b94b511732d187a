import ExprLexer.Proofs.Placement
import ExprLexer.Proofs.Refusal

namespace ExprLexer

def Outcome.refusesNewline : Outcome → Bool
  | .ok _ => false
  | .error e => e.cause = .illegalCharacter '\n'

namespace Position

theorem line_advance (p : Position) (c : Char) :
    (p.advance (some c)).line = p.line + if c = '\n' then 1 else 0 := by
  by_cases hc : c = '\n'
  · rw [hc, advance_newline, if_pos rfl]
  · rw [advance_of_ne _ (by simpa using hc), if_neg hc]
    rfl

end Position

namespace Lexer

theorem exists_start_of_mem_spans {l : Lexer} {span : Span} (h : span ∈ l.tokenize.1.spans) :
    ∃ n, span.start = l.position.forward n := by
  obtain ⟨s, following, hs⟩ := Split.exists_reads l.unread
  rw [tokenize, hs.scan_eq] at h
  cases following with
  | nil =>
      obtain ⟨t, ht, rfl⟩ := List.mem_map.1 h
      obtain ⟨x, n, -, rfl⟩ := Split.exists_tokenAt_of_mem ht
      exact ⟨n, rfl⟩
  | cons c rest =>
      obtain rfl := List.mem_singleton.1 h
      exact ⟨s.chars.length, rfl⟩

theorem line_of_mem_spans {l : Lexer} {span : Span} (h : span ∈ l.tokenize.1.spans) :
    span.start.line = l.position.line := by
  obtain ⟨n, hn⟩ := exists_start_of_mem_spans h
  rw [hn]
  rfl

/-- A call leads to the next line if it refuses a line end, and stays in its line otherwise. -/
theorem line_next (l : Lexer) :
    l.next.position.line = l.position.line + if l.tokenize.1.refusesNewline then 1 else 0 := by
  rcases l.tokenize_cases with ⟨tokens, ht⟩ | ⟨s, c, rest, -, ht⟩
  · rw [next, ht]
    rfl
  · have hrefuses : Outcome.refusesNewline (.error (s.refusalAt l.position c)) ↔ c = '\n' := by
      simp [Outcome.refusesNewline, Split.refusalAt]
    rw [next, ht]
    simp only [hrefuses]
    exact Position.line_advance _ c

end Lexer

namespace Source

variable (source : Source)

def newlinesRefused (calls : Nat) : Nat :=
  (List.range calls).countP fun j => (source.resumed j).tokenize.1.refusesNewline

theorem line_resumed (k : Nat) : (source.resumed k).position.line = source.newlinesRefused k := by
  induction k with
  | zero => rfl
  | succ k ih =>
      rw [resumed_succ, Lexer.line_next, ih, newlinesRefused, newlinesRefused, List.range_succ,
        List.countP_append, List.countP_singleton]

theorem message_refusal (offset : Nat) (c : Char) : (source.refusal offset c).message =
    "Illegal character: '" ++ String.singleton c ++ "' in " ++ source.name ++
      ", line 1, column " ++ Nat.repr (offset + 1) := by
  rw [LexError.message, repr_line_refusal, ← String.toList_inj]
  simp [Source.refusal, Cause.toText, Cause.category, Cause.detail]

theorem stop_refusal (offset : Nat) (c : Char) : (source.refusal offset c).span.stop =
    if c = '\n' then ⟨offset + 1, 1, 0, source⟩ else ⟨offset + 1, 0, offset + 1, source⟩ := by
  by_cases hc : c = '\n'
  · rw [if_pos hc, hc]
    exact Position.advance_newline _
  · rw [if_neg hc]
    exact Position.advance_of_ne _ (by simpa using hc)

end Source

/-- A run stays in the first line, but for the end of a refused line end, and so do the texts of its
refusals. Calls that go on after refusals stand as many lines down as line ends have been refused. -/
theorem run_in_first_line (source : Source) :
    (∀ tokens, run source = .ok tokens → ∀ t ∈ tokens,
      ∃ i j, t.span = ⟨⟨i, 0, i, source⟩, ⟨j, 0, j, source⟩⟩) ∧
    (∀ e, run source = .error e → ∃ (i : Nat) (c : Char),
      source.text.toList[i]? = some c ∧ e.cause = .illegalCharacter c ∧
      e.span.start = ⟨i, 0, i, source⟩ ∧
      e.span.stop =
        (if c = '\n' then ⟨i + 1, 1, 0, source⟩ else ⟨i + 1, 0, i + 1, source⟩) ∧
      e.message = "Illegal character: '" ++ String.singleton c ++ "' in " ++ source.name ++
        ", line 1, column " ++ Nat.repr (i + 1) ∧
      e.compactText =
        "Illegal character:'" ++ String.singleton c ++ "'Filename " ++ source.name ++ ", line1") ∧
    ∀ k, ∀ span ∈ (source.resumed k).tokenize.1.spans,
      span.start.line = source.newlinesRefused k := by
  refine ⟨?_, ?_, ?_⟩
  · intro tokens h t ht
    obtain ⟨s, -, rfl⟩ := Split.run_eq_ok_iff_reads.1 h
    obtain ⟨x, n, -, rfl⟩ := Split.exists_tokenAt_of_mem ht
    refine ⟨n, n + x.chars.length, ?_⟩
    rw [Lexeme.tokenAt, Position.forward_forward, Position.forward_start, Position.forward_start]
  · intro e h
    obtain ⟨s, c, rest, hs, rfl⟩ := Split.run_eq_error_iff_reads.1 h
    exact ⟨s.chars.length, c, by simp [hs.chars_append], rfl, rfl, source.stop_refusal _ c,
      source.message_refusal _ c, source.compactText_refusal _ c⟩
  · intro k span hspan
    rw [Lexer.line_of_mem_spans hspan, source.line_resumed]

end ExprLexer

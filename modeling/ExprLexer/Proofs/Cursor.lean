import ExprLexer.Lexer.Scan
import Mathlib.Data.List.DropRight

namespace ExprLexer

def lastLine (text : List Char) : List Char := text.rtakeWhile (· ≠ '\n')

namespace Source

variable (source : Source)

/-- The position of an offset: as many lines down as there are line ends before it, and as many columns
in as there are characters after the last of them. -/
def positionAt (offset : Nat) : Position :=
  ⟨offset, (source.text.toList.take offset).count '\n',
    (lastLine (source.text.toList.take offset)).length, source⟩

def lexerAt (offset : Nat) : Lexer := ⟨source.positionAt offset, source.text.toList.drop offset⟩

def HasSpan (span : Span) : Prop := ∃ i j, i < j ∧ j ≤ source.text.toList.length ∧
  span = ⟨source.positionAt i, source.positionAt j⟩

theorem lexerAt_zero : source.lexerAt 0 = .ofSource source := rfl

variable {source} {n : Nat}

theorem advance_positionAt {c : Char} (h : source.text.toList[n]? = some c) :
    (source.positionAt n).advance (some c) = source.positionAt (n + 1) := by
  have htake : source.text.toList.take (n + 1) = source.text.toList.take n ++ [c] := by
    rw [List.take_add_one, h]
    rfl
  rw [positionAt, positionAt, htake, List.count_append, lastLine, lastLine,
    List.rtakeWhile_concat]
  by_cases hc : c = '\n'
  · subst hc
    rw [Position.advance_newline]
    rfl
  · rw [Position.advance_of_ne _ (by simpa using hc)]
    simp [hc]

theorem advance_lexerAt (h : n < source.text.toList.length) :
    (source.lexerAt n).advance = source.lexerAt (n + 1) := by
  have hc := List.getElem?_eq_getElem h
  simp only [lexerAt, Lexer.advance, List.head?_drop, List.tail_drop, hc, advance_positionAt hc]

theorem advanceBy_lexerAt {k : Nat} (h : n + k ≤ source.text.toList.length) :
    (source.lexerAt n).advanceBy k = source.lexerAt (n + k) := by
  induction k generalizing n with
  | zero => rfl
  | succ k ih =>
      rw [Lexer.advanceBy, advance_lexerAt (by omega), ih (by omega), Nat.add_right_comm]
      rfl

theorem position_lexerAt (n : Nat) : (source.lexerAt n).position = source.positionAt n := rfl

theorem unread_lexerAt (n : Nat) : (source.lexerAt n).unread = source.text.toList.drop n := rfl

theorem lt_length_of_unread {c : Char} {rest : List Char}
    (h : (source.lexerAt n).unread = c :: rest) : n < source.text.toList.length := by
  by_contra hn
  rw [unread_lexerAt, List.drop_of_length_le (by omega)] at h
  cases h

theorem takeSymbol_lexerAt (h : n < source.text.toList.length) (kind : Kind) :
    (source.lexerAt n).takeSymbol kind =
      (.symbol kind ⟨source.positionAt n, source.positionAt (n + 1)⟩, source.lexerAt (n + 1)) := by
  rw [Lexer.takeSymbol, advance_lexerAt h]
  rfl

theorem takeLiteral_lexerAt (h : n ≤ source.text.toList.length) {text : List Char}
    (ht : Literal.longest (source.lexerAt n).unread = text) :
    n + text.length ≤ source.text.toList.length ∧
      (source.lexerAt n).takeLiteral = (.literal (Literal.value text)
        ⟨source.positionAt n, source.positionAt (n + text.length)⟩,
        source.lexerAt (n + text.length)) := by
  subst ht
  have hlength := (Literal.longest_prefix (source.lexerAt n).unread).length_le
  rw [unread_lexerAt, List.length_drop, ← unread_lexerAt] at hlength
  have hle : n + (Literal.longest (source.lexerAt n).unread).length ≤
      source.text.toList.length := by omega
  refine ⟨hle, ?_⟩
  rw [Lexer.takeLiteral, advanceBy_lexerAt hle]
  rfl

theorem span_literal (value : Number) (span : Span) : (Token.literal value span).span = span := by
  cases value <;> rfl

theorem takeToken?_lexerAt {token : Token} {next : Lexer}
    (h : (source.lexerAt n).takeToken? = some (token, next)) :
    ∃ m, n < m ∧ m ≤ source.text.toList.length ∧ next = source.lexerAt m ∧
      token.span = ⟨source.positionAt n, source.positionAt m⟩ := by
  rw [Lexer.takeToken?] at h
  split at h
  · cases h
  · rename_i c rest hl
    have hn := lt_length_of_unread hl
    split at h
    · rename_i hc
      obtain ⟨hle, htake⟩ := takeLiteral_lexerAt hn.le (congrArg Literal.longest hl)
      have hpos := List.length_pos_iff.2 (Literal.longest_ne_nil hc rest)
      rw [htake] at h
      obtain ⟨rfl, rfl⟩ := Prod.mk.inj (Option.some.inj h)
      exact ⟨_, Nat.lt_add_of_pos_right hpos, hle, rfl, span_literal _ _⟩
    · obtain ⟨kind, -, hkind⟩ := Option.map_eq_some_iff.1 h
      rw [takeSymbol_lexerAt hn] at hkind
      obtain ⟨rfl, rfl⟩ := Prod.mk.inj hkind
      exact ⟨n + 1, n.lt_succ_self, hn, rfl, rfl⟩

/-- What a scan leaves that started in the text: tokens and refusals with spans in the text, and the
lexer of an offset. -/
structure Leaves (source : Source) (s : Scan) : Prop where
  tokens : ∀ t ∈ s.tokens, source.HasSpan t.span
  error : ∀ e ∈ s.error?, source.HasSpan e.span
  lexer : ∃ m ≤ source.text.toList.length, s.lexer = source.lexerAt m

/-- The loop keeps to the text: each step leads from the lexer of one offset to that of another. -/
theorem leaves_scanAfter {tokens : List Token} {l : Lexer} (hl : l = source.lexerAt n)
    (hn : n ≤ source.text.toList.length) (ht : ∀ t ∈ tokens, source.HasSpan t.span) :
    source.Leaves (l.scanAfter tokens) := by
  fun_induction Lexer.scanAfter tokens l generalizing n with
  | case1 tokens l hend => exact ⟨by simpa using ht, by simp, n, hn, hl⟩
  | case2 tokens l c rest hunread hblank ih =>
      subst hl
      have hlt := lt_length_of_unread hunread
      exact ih (advance_lexerAt hlt) hlt ht
  | case3 tokens l c rest hunread hblank token next htoken ih =>
      subst hl
      obtain ⟨m, hlt, hm, rfl, hspan⟩ := takeToken?_lexerAt htoken
      exact ih rfl hm (List.forall_mem_cons.2 ⟨⟨n, m, hlt, hm, hspan⟩, ht⟩)
  | case4 tokens l c rest hunread hblank htoken =>
      subst hl
      have hlt := lt_length_of_unread hunread
      have hadvance := advance_lexerAt hlt
      refine ⟨by simpa using ht, ?_, n + 1, hlt, hadvance⟩
      rintro e ⟨⟩
      exact ⟨n, n + 1, n.lt_succ_self, hlt, by rw [← position_lexerAt (n + 1), ← hadvance]; rfl⟩

end Source
end ExprLexer

import ExprLexer.Proofs.Resumption

namespace ExprLexer

theorem lastLine_of_notMem {text : List Char} (h : '\n' ∉ text) : lastLine text = text := by
  rw [lastLine, List.rtakeWhile_eq_self_iff]
  rintro c hc
  simpa using ne_of_mem_of_not_mem hc h

theorem lastLine_cons_of_mem {c : Char} {text : List Char} (h : c = '\n' ∨ '\n' ∈ text) :
    lastLine (c :: text) = lastLine text := by
  rw [lastLine, lastLine, List.rtakeWhile, List.rtakeWhile, List.reverse_cons,
    List.takeWhile_append]
  split
  · rename_i hlength
    have hall := (List.takeWhile_prefix (· ≠ '\n')).eq_of_length hlength
    have hmem : '\n' ∉ text := by
      rw [← List.mem_reverse, ← hall]
      exact fun hin => absurd (List.mem_takeWhile_imp hin) (by decide)
    obtain rfl := h.resolve_right hmem
    rw [hall]
    simp
  · rfl

theorem splitOn_newline_cons (c : Char) (text : List Char) :
    (c :: text).splitOn '\n' = if c = '\n' then [] :: text.splitOn '\n'
      else (text.splitOn '\n').modifyHead (c :: ·) := by
  simp [List.splitOn_eq_splitOnP, List.splitOnP_cons_eq_if_modifyHead]

/-- Each character stands in its line, a line end at the end of the line before it. -/
theorem exists_line {text : List Char} {n : Nat} {c : Char} (h : text[n]? = some c) :
    ∃ line, (text.splitOn '\n')[(text.take n).count '\n']? = some line ∧
      (line ++ ['\n'])[(lastLine (text.take n)).length]? = some c := by
  induction text generalizing n with
  | nil => cases h
  | cons d text ih =>
      obtain ⟨first, more, hfirst⟩ :=
        List.exists_cons_of_ne_nil (List.splitOn_ne_nil '\n' text)
      rw [splitOn_newline_cons]
      cases n with
      | zero =>
          obtain rfl : d = c := by simpa using h
          by_cases hd : d = '\n'
          · exact ⟨[], by simp [hd], by simp [lastLine, hd]⟩
          · exact ⟨d :: first, by simp [hd, hfirst], by simp [lastLine]⟩
      | succ n =>
          obtain ⟨line, hline, hchar⟩ := ih (by simpa using h)
          rw [List.take_succ_cons]
          by_cases hd : d = '\n'
          · refine ⟨line, ?_, ?_⟩
            · simpa [hd] using hline
            · rwa [lastLine_cons_of_mem (.inl hd)]
          · by_cases hmem : '\n' ∈ text.take n
            · refine ⟨line, ?_, ?_⟩
              · obtain ⟨k, hk⟩ := Nat.exists_eq_add_one.2 (List.count_pos_iff.2 hmem)
                rw [hfirst, hk] at hline
                simpa [hd, hfirst, hk] using hline
              · rwa [lastLine_cons_of_mem (.inr hmem)]
            · rw [List.count_eq_zero.2 hmem, hfirst] at hline
              obtain rfl : first = line := by simpa using hline
              rw [lastLine_of_notMem hmem] at hchar
              have hcons : '\n' ∉ d :: text.take n := by simp [hmem, Ne.symm hd]
              refine ⟨d :: first, ?_, ?_⟩
              · simp [hd, hfirst, List.count_eq_zero.2 hmem]
              · rw [lastLine_of_notMem hcons]
                simpa using hchar

def Outcome.spans : Outcome → List Span
  | .ok tokens => tokens.map Token.span
  | .error e => [e.span]

namespace Source

variable (source : Source)

theorem hasSpan_of_mem_spans {k : Nat} {span : Span}
    (h : span ∈ (source.resumed k).tokenize.1.spans) : source.HasSpan span := by
  obtain ⟨n, hn, hl⟩ := source.exists_resumed_eq_lexerAt k
  have hleaves := leaves_scanAfter hl hn (List.forall_mem_nil _)
  change span ∈ (Scan.outcome (Lexer.scanAfter [] (source.resumed k))).spans at h
  rw [Scan.outcome] at h
  split at h
  · obtain ⟨t, ht, rfl⟩ := List.mem_map.1 h
    exact hleaves.tokens t ht
  · rename_i e he
    obtain rfl := List.mem_singleton.1 h
    exact hleaves.error e he

/-- After any calls the lexer stands at an offset of the text, with the character of that offset before
it, and so do all tokens and refusals of the next call. Each of their positions is the one that its
offset has, and in the lines of the text it leads to the same character as the offset does. -/
theorem resumed_placed (k : Nat) :
    (∃ n ≤ source.text.toList.length, (source.resumed k).position = source.positionAt n ∧
      (source.resumed k).unread.head? = source.text.toList[n]? ∧
      ((source.resumed k).unread.head? = none ↔ n = source.text.toList.length)) ∧
    ∀ span ∈ (source.resumed k).tokenize.1.spans, ∃ i j c line, i < j ∧
      j ≤ source.text.toList.length ∧
      span = ⟨source.positionAt i, source.positionAt j⟩ ∧
      source.text.toList[i]? = some c ∧
      (source.text.toList.splitOn '\n')[span.start.line]? = some line ∧
      (line ++ ['\n'])[span.start.column]? = some c := by
  constructor
  · obtain ⟨n, hn, hl⟩ := source.exists_resumed_eq_lexerAt k
    have hhead : (source.resumed k).unread.head? = source.text.toList[n]? := by
      rw [hl, unread_lexerAt, List.head?_drop]
    refine ⟨n, hn, by rw [hl, position_lexerAt], hhead, ?_⟩
    rw [hhead, List.getElem?_eq_none_iff]
    omega
  · intro span hspan
    obtain ⟨i, j, hij, hj, rfl⟩ := source.hasSpan_of_mem_spans hspan
    have hchar := List.getElem?_eq_getElem (hij.trans_le hj)
    obtain ⟨line, hline, hcolumn⟩ := exists_line hchar
    exact ⟨i, j, _, line, hij, hj, rfl, hchar, hline, hcolumn⟩

end Source
end ExprLexer

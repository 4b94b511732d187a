import ExprLexer.Proofs.Split

namespace ExprLexer

def Token.Covers (t : Token) (offset : Nat) : Prop :=
  t.span.start.offset ≤ offset ∧ offset < t.span.stop.offset

namespace Split

theorem exists_tokenAt_of_mem {s : Split} {p : Position} {t : Token} (ht : t ∈ s.tokensAt p) :
    ∃ (x : Lexeme) (n : Nat), n + x.chars.length ≤ s.chars.length ∧ t = x.tokenAt (p.forward n) := by
  induction s generalizing p with
  | last gap => cases ht
  | piece gap x s ih =>
      simp only [chars, List.length_append]
      rcases List.mem_cons.1 ht with rfl | ht
      · exact ⟨x, gap.chars.length, by omega, rfl⟩
      · obtain ⟨y, n, hn, rfl⟩ := ih ht
        exact ⟨y, gap.chars.length + x.chars.length + n, by omega,
          by rw [Position.forward_forward]⟩

theorem tokensAt_bounds (s : Split) (p : Position) {t : Token} (ht : t ∈ s.tokensAt p) :
    p.offset ≤ t.span.start.offset ∧ t.span.start.offset < t.span.stop.offset ∧
      t.span.stop.offset ≤ p.offset + s.chars.length := by
  obtain ⟨x, n, hn, rfl⟩ := exists_tokenAt_of_mem ht
  have hx := List.length_pos_iff.2 x.chars_ne_nil
  simp only [Lexeme.tokenAt, Position.offset_forward]
  omega

theorem tokensAt_source (s : Split) (p : Position) {t : Token} (ht : t ∈ s.tokensAt p) :
    t.span.start.source = p.source ∧ t.span.stop.source = p.source := by
  obtain ⟨x, n, -, rfl⟩ := exists_tokenAt_of_mem ht
  exact ⟨rfl, rfl⟩

theorem tokensAt_pairwise (s : Split) (p : Position) :
    (s.tokensAt p).Pairwise fun t u => t.span.stop.offset ≤ u.span.start.offset := by
  induction s generalizing p with
  | last gap => exact List.Pairwise.nil
  | piece gap x s ih =>
      refine List.pairwise_cons.2 ⟨?_, ih _⟩
      intro u hu
      have h := (s.tokensAt_bounds _ hu).1
      simp only [Lexeme.tokenAt, Position.offset_forward] at h ⊢
      omega

theorem isBlank_iff_uncovered (s : Split) (p : Position) {i : Nat} {c : Char}
    (hc : s.chars[i]? = some c) :
    isBlank c ↔ ∀ t ∈ s.tokensAt p, ¬ t.Covers (p.offset + i) := by
  induction s generalizing p i with
  | last gap => simp [tokensAt, gap.isBlank_of_mem (List.mem_of_getElem? hc)]
  | piece gap x s ih =>
      have later {t : Token}
          (ht : t ∈ s.tokensAt (p.forward (gap.chars.length + x.chars.length))) :
          p.offset + (gap.chars.length + x.chars.length) ≤ t.span.start.offset :=
        (s.tokensAt_bounds _ ht).1
      have first : (x.tokenAt (p.forward gap.chars.length)).Covers (p.offset + i) ↔
          gap.chars.length ≤ i ∧ i < gap.chars.length + x.chars.length := by
        simp only [Token.Covers, Lexeme.tokenAt, Position.offset_forward]
        omega
      rw [tokensAt, List.forall_mem_cons, first]
      rw [chars] at hc
      by_cases hgap : i < gap.chars.length
      · rw [List.getElem?_append_left hgap] at hc
        refine ⟨fun _ => ⟨by omega, fun t ht hcovers => ?_⟩,
          fun _ => gap.isBlank_of_mem (List.mem_of_getElem? hc)⟩
        have := later ht
        have := hcovers.1
        omega
      · rw [List.getElem?_append_right (by omega)] at hc
        by_cases hx : i < gap.chars.length + x.chars.length
        · rw [List.getElem?_append_left (by omega)] at hc
          have hb := (x.printed_of_mem_chars (List.mem_of_getElem? hc)).1
          exact ⟨fun h => by simp [hb] at h, fun h => absurd ⟨by omega, hx⟩ h.1⟩
        · rw [List.getElem?_append_right (by omega)] at hc
          have hi : (p.forward (gap.chars.length + x.chars.length)).offset +
              (i - gap.chars.length - x.chars.length) = p.offset + i := by
            rw [Position.offset_forward]
            omega
          rw [ih (p.forward (gap.chars.length + x.chars.length)) hc, hi]
          exact ⟨fun h => ⟨by omega, h⟩, fun h => h.2⟩

theorem reads_all_iff {s : Split} {text : List Char} :
    s.Reads text [] ↔ s.chars = text ∧ s.IsMaximal [] :=
  ⟨fun h => ⟨by simpa using h.chars_append.symm, h.maximal⟩,
    fun h => ⟨by simpa using h.1.symm, h.2, by simp⟩⟩

theorem Reads.run_eq {s : Split} {source : Source} {following : List Char}
    (h : s.Reads source.text.toList following) :
    run source = (s.scanAt (.start source) following).outcome :=
  congrArg Scan.outcome (h.scan_eq (l := .ofSource source))

theorem Reads.run_ok {s : Split} {source : Source} {text : List Char}
    (htext : source.text.toList = text) (h : s.Reads text []) :
    run source = .ok (s.tokensAt (.start source)) := by
  subst htext
  exact h.run_eq

theorem Reads.run_error {s : Split} {source : Source} {text rest : List Char} {c : Char}
    (htext : source.text.toList = text) (h : s.Reads text (c :: rest)) :
    run source = .error (s.refusalAt (.start source) c) := by
  subst htext
  exact h.run_eq

theorem run_eq_ok_iff_reads {source : Source} {tokens : List Token} :
    run source = .ok tokens ↔
      ∃ s : Split, s.Reads source.text.toList [] ∧ s.tokensAt (.start source) = tokens := by
  constructor
  · intro h
    obtain ⟨s, following, hs⟩ := exists_reads source.text.toList
    rw [hs.run_eq] at h
    cases following with
    | nil => exact ⟨s, hs, Except.ok.inj h⟩
    | cons c rest => cases h
  · rintro ⟨s, hs, rfl⟩
    exact hs.run_ok rfl

end Split

/-- A text is accepted if and only if it can be cut into gaps and lexemes without a number that
could be longer. There is one way of cutting it, and the tokens are those of its lexemes: none is
empty, they stand in order and apart, and exactly the spaces and tabs stand outside of them. -/
theorem run_eq_ok_iff_maximal_split (source : Source) :
    (∀ tokens, run source = .ok tokens ↔ ∃ s : Split, s.chars = source.text.toList ∧
      s.IsMaximal [] ∧ tokens = s.tokensAt (.start source)) ∧
    (∀ s t : Split, s.chars = source.text.toList → s.IsMaximal [] →
      t.chars = source.text.toList → t.IsMaximal [] → s = t) ∧
    ∀ tokens, run source = .ok tokens →
      (∀ t ∈ tokens, t.span.start.source = source ∧ t.span.stop.source = source ∧
        t.span.start.offset < t.span.stop.offset ∧
        t.span.stop.offset ≤ source.text.toList.length) ∧
      tokens.Pairwise (fun t u => t.span.stop.offset ≤ u.span.start.offset) ∧
      ∀ (i : Nat) (c : Char), source.text.toList[i]? = some c →
        (c = ' ' ∨ c = '\t' ↔ ∀ t ∈ tokens, ¬ t.Covers i) := by
  refine ⟨?_, ?_, ?_⟩
  · intro tokens
    rw [Split.run_eq_ok_iff_reads]
    simp only [Split.reads_all_iff, and_assoc, eq_comm]
  · intro s t hs hsm ht htm
    exact ((Split.reads_all_iff.2 ⟨hs, hsm⟩).unique (Split.reads_all_iff.2 ⟨ht, htm⟩)).1
  · intro tokens h
    obtain ⟨s, hs, rfl⟩ := Split.run_eq_ok_iff_reads.1 h
    obtain ⟨hchars, -⟩ := Split.reads_all_iff.1 hs
    refine ⟨fun t ht => ?_, s.tokensAt_pairwise _, fun i c hc => ?_⟩
    · have hbounds := s.tokensAt_bounds _ ht
      have hsource := s.tokensAt_source _ ht
      rw [hchars] at hbounds
      exact ⟨hsource.1, hsource.2, hbounds.2.1, by simpa [Position.start] using hbounds.2.2⟩
    · rw [← hchars] at hc
      rw [← isBlank_iff]
      simpa [Position.start] using s.isBlank_iff_uncovered (.start source) hc

end ExprLexer

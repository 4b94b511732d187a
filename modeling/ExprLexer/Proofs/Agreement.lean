import ExprLexer.Proofs.ListText
import ExprLexer.Proofs.Refusal

namespace ExprLexer

def Source.IsBlank (source : Source) : Prop := ∀ c ∈ source.text.toList, c = ' ' ∨ c = '\t'

theorem Number.Alike.refl (n : Number) : n.Alike n := by
  cases n with
  | int n => rfl
  | float x => exact .inl rfl

theorem Lexeme.rel_beq_self (x : Lexeme) :
    Option.Rel (fun m n : Number => m == n) x.value x.value := by
  rw [← rel_alike_iff_rel_beq]
  cases x.value with
  | none => exact .none
  | some n => exact .some (Number.Alike.refl n)

namespace Token

theorem beq_iff {s t : Token} : s == t ↔ s.kind = t.kind ∧
    Option.Rel (fun m n : Number => m == n) s.value t.value ∧ s.span = t.span := by
  obtain ⟨k, v, p⟩ := s
  obtain ⟨l, w, q⟩ := t
  have hvalue : v == w ↔ Option.Rel (fun m n : Number => m == n) v w := by
    cases v <;> cases w <;> simp
  change (k == l && (v == w && p == q)) = true ↔ _
  rw [Bool.and_eq_true, Bool.and_eq_true, hvalue, beq_iff_eq, beq_iff_eq]

end Token

namespace Split

theorem beq_tokensAt_self (s : Split) (p : Position) : s.tokensAt p == s.tokensAt p := by
  induction s generalizing p with
  | last gap => rfl
  | piece gap x s ih =>
      rw [tokensAt, List.cons_beq_cons, Bool.and_eq_true]
      exact ⟨Token.beq_iff.2 ⟨rfl, x.rel_beq_self, rfl⟩, ih _⟩

end Split

namespace Source

variable {source : Source}

theorem isBlank_iff_run : source.IsBlank ↔ run source = .ok [] := by
  rw [Split.run_eq_ok_iff_reads]
  constructor
  · intro h
    exact ⟨.last ⟨_, h⟩, Split.reads_all_iff.2 ⟨rfl, trivial⟩, rfl⟩
  · rintro ⟨s, hs, htokens⟩
    cases s with
    | last gap =>
        rw [IsBlank, ← (Split.reads_all_iff.1 hs).1]
        exact gap.areBlank
    | piece gap x s => cases htokens

theorem source_of_mem_run {tokens : List Token} (h : run source = .ok tokens) {t : Token}
    (ht : t ∈ tokens) : t.span.start.source = source := by
  obtain ⟨s, -, rfl⟩ := Split.run_eq_ok_iff_reads.1 h
  exact (s.tokensAt_source _ ht).1

theorem source_of_run_error {e : LexError} (h : run source = .error e) :
    e.span.start.source = source := by
  obtain ⟨s, c, rest, -, rfl⟩ := Split.run_eq_error_iff_reads.1 h
  rfl

theorem agrees_run_self (source : Source) : (run source).agrees (run source) := by
  cases h : run source with
  | ok tokens =>
      obtain ⟨s, -, rfl⟩ := Split.run_eq_ok_iff_reads.1 h
      exact s.beq_tokensAt_self _
  | error e => exact beq_self_eq_true e

/-- The first token, or the refusal, tells which source was run. -/
theorem eq_or_isBlank_of_agrees {a b : Source} (h : (run a).agrees (run b)) :
    a = b ∨ a.IsBlank ∧ b.IsBlank := by
  cases ha : run a with
  | error e =>
      cases hb : run b with
      | error f =>
          rw [ha, hb] at h
          obtain rfl : e = f := eq_of_beq h
          exact .inl ((source_of_run_error ha).symm.trans (source_of_run_error hb))
      | ok us =>
          rw [ha, hb] at h
          cases h
  | ok ts =>
      cases hb : run b with
      | error f =>
          rw [ha, hb] at h
          cases h
      | ok us =>
          rw [ha, hb] at h
          match ts, us, h with
          | [], [], _ => exact .inr ⟨isBlank_iff_run.2 ha, isBlank_iff_run.2 hb⟩
          | t :: ts, u :: us, h =>
              have hspan : t.span = u.span := (Token.beq_iff.1 (Bool.and_eq_true _ _ ▸ h).1).2.2
              rw [← source_of_mem_run ha List.mem_cons_self,
                ← source_of_mem_run hb List.mem_cons_self, hspan]
              exact .inl rfl

theorem agrees_run_iff_eq_or_isBlank {a b : Source} :
    (run a).agrees (run b) ↔ a = b ∨ a.IsBlank ∧ b.IsBlank := by
  constructor
  · exact eq_or_isBlank_of_agrees
  · rintro (rfl | ⟨ha, hb⟩)
    · exact a.agrees_run_self
    · rw [isBlank_iff_run.1 ha, isBlank_iff_run.1 hb]
      rfl

end Source

/-- Two runs have equal outcomes if and only if they are of the same source or of blank texts. So a
run is equal to a second one of its source, for no token has a value that is not a number, and a
refusal is equal to that of no other source, even if the sources differ behind the refused character
alone. -/
theorem agrees_run_iff (a b : Source) :
    ((run a).agrees (run b) ↔ a = b ∨ a.IsBlank ∧ b.IsBlank) ∧
    (run a).agrees (run a) ∧
    (∀ tokens, run a = .ok tokens → ∀ t ∈ tokens, ∀ x, t.value = some (.float x) →
      x.isNaN = false) ∧
    (a.name ≠ b.name ∨ a.text ≠ b.text → ¬ a.IsBlank ∨ ¬ b.IsBlank →
      (run a).agrees (run b) = false) ∧
    ∀ e, run a = .error e → ∀ tail, tail ≠ "" →
      (run a).agrees (run ⟨a.name, a.text ++ tail⟩) = false := by
  refine ⟨Source.agrees_run_iff_eq_or_isBlank, a.agrees_run_self, ?_, ?_, ?_⟩
  · intro tokens h t ht x hx
    obtain ⟨y, hy⟩ := exists_value_of_mem_run h ht
    exact (Lexeme.float_value (hy.symm.trans hx)).1
  · intro hne hblank
    rw [Bool.eq_false_iff, ne_eq, Source.agrees_run_iff_eq_or_isBlank]
    rintro (rfl | ⟨ha, hb⟩)
    · exact hne.elim (· rfl) (· rfl)
    · exact hblank.elim (· ha) (· hb)
  · intro e he tail htail
    rw [Bool.eq_false_iff, ne_eq, Source.agrees_run_iff_eq_or_isBlank]
    rintro (h | ⟨ha, -⟩)
    · have htext : a.text = a.text ++ tail := congrArg Source.text h
      exact htail (String.append_eq_left_iff.1 htext.symm)
    · rw [Source.isBlank_iff_run.1 ha] at he
      cases he

end ExprLexer

import ExprLexer.Proofs.Placement
import ExprLexer.Proofs.PlaceOrder
import ExprLexer.Session
import Mathlib.Data.List.Induction

namespace ExprLexer

theorem Source.isPlaced_resumed (source : Source) (k : Nat) :
    (source.resumed k).position.IsPlaced := by
  obtain ⟨n, hn, hl⟩ := source.exists_resumed_eq_lexerAt k
  rw [hl, position_lexerAt]
  exact isPlaced_positionAt hn

namespace Session

def Command.isCreate : Command → Bool
  | create _ => true
  | _ => false

def Command.isCallOn (i : Nat) : Command → Bool
  | tokenize j => j == i
  | _ => false

def after (commands : List Command) : Session := commands.foldl (fun s c => (s.perform c).1) .empty

theorem after_concat (commands : List Command) (c : Command) :
    after (commands ++ [c]) = ((after commands).perform c).1 := by
  rw [after, List.foldl_append]
  rfl

theorem performAll_concat (s : Session) (commands : List Command) (c : Command) :
    s.performAll (commands ++ [c]) =
      s.performAll commands ++ [((commands.foldl (fun s c => (s.perform c).1) s).perform c).2] := by
  induction commands generalizing s with
  | nil => rfl
  | cons d commands ih => rw [List.cons_append, performAll, ih, performAll]; rfl

theorem exists_of_mem_performAll {commands : List Command} {r : Reply}
    (h : r ∈ empty.performAll commands) : ∃ before c, r = ((after before).perform c).2 := by
  induction commands using List.reverseRecOn with
  | nil => cases h
  | append_singleton commands c ih =>
      rw [performAll_concat] at h
      rcases List.mem_append.1 h with h | h
      · exact ih h
      · exact ⟨commands, c, List.mem_singleton.1 h⟩

section

variable (s : Session)

theorem lexers_perform (c : Command) : (s.perform c).1.lexers = match c with
    | .create source => s.lexers ++ [.ofSource source]
    | .tokenize i => s.lexers.modify i Lexer.next
    | _ => s.lexers := by
  cases c with
  | create source => rfl
  | tokenize i =>
      change _ = s.lexers.modify i Lexer.next
      rw [perform, List.modify_eq_set_getElem?]
      cases s.lexers[i]? <;> rfl
  | position i | save i | compare i =>
      rw [perform]
      cases s.lexers[i]? <;> rfl

theorem saved_perform (c : Command) : (s.perform c).1.saved = match c with
    | .save i => s.saved ++ (s.lexers[i]?.map Lexer.position).toList
    | _ => s.saved := by
  cases c with
  | create source => rfl
  | save i =>
      change _ = s.saved ++ (s.lexers[i]?.map Lexer.position).toList
      rw [perform]
      cases s.lexers[i]? with
      | none => exact (List.append_nil _).symm
      | some l => rfl
  | tokenize i | position i | compare i =>
      rw [perform]
      cases s.lexers[i]? <;> rfl

end

theorem reply_tokenize {s : Session} {i : Nat} {l : Lexer} (h : s.lexers[i]? = some l) :
    (s.perform (.tokenize i)).2 = .tokenized l.tokenize.1 l.next.position := by
  rw [perform, h]
  rfl

theorem reply_position {s : Session} {i : Nat} {l : Lexer} (h : s.lexers[i]? = some l) :
    (s.perform (.position i)).2 = .position l.position := by
  rw [perform, h]

theorem perform_save {s : Session} {i : Nat} {l : Lexer} (h : s.lexers[i]? = some l) :
    s.perform (.save i) =
      (⟨s.lexers, s.saved ++ [l.position]⟩, .saved (s.saved ++ [l.position])) := by
  rw [perform, h]

theorem reply_compare {s : Session} {i : Nat} {l : Lexer} (h : s.lexers[i]? = some l) :
    (s.perform (.compare i)).2 = .compared s.saved (s.saved.map (· == l.position)) := by
  rw [perform, h]

theorem exists_of_reply_tokenized {s : Session} {c : Command} {outcome : Outcome} {p : Position}
    (h : (s.perform c).2 = .tokenized outcome p) : ∃ l ∈ s.lexers, outcome = l.tokenize.1 := by
  cases c with
  | create source => cases h
  | tokenize i =>
      cases hl : s.lexers[i]? with
      | none =>
          rw [perform, hl] at h
          cases h
      | some l =>
          rw [reply_tokenize hl] at h
          exact ⟨l, List.mem_of_getElem? hl, (Reply.tokenized.inj h).1.symm⟩
  | position i | save i | compare i =>
      rw [perform] at h
      cases hl : s.lexers[i]? <;> rw [hl] at h <;> cases h

theorem length_lexers_after (commands : List Command) :
    (after commands).lexers.length = commands.countP Command.isCreate := by
  induction commands using List.reverseRecOn with
  | nil => rfl
  | append_singleton commands c ih =>
      rw [after_concat, lexers_perform, List.countP_append, ← ih]
      cases c <;> simp [Command.isCreate]

/-- A lexer is moved on by the calls on it and by nothing else. -/
theorem getElem?_lexers_after (before later : List Command) (source : Source) {i : Nat}
    (hi : before.countP Command.isCreate = i) :
    (after (before ++ .create source :: later)).lexers[i]? =
      some (source.resumed (later.countP (Command.isCallOn i))) := by
  induction later using List.reverseRecOn with
  | nil =>
      rw [after_concat, lexers_perform, ← hi, ← length_lexers_after]
      exact List.getElem?_concat_length
  | append_singleton later c ih =>
      rw [← List.cons_append, ← List.append_assoc, after_concat, lexers_perform,
        List.countP_append]
      cases c with
      | create other =>
          -- a lexer that is made later gets a later index
          have hlt := (List.getElem?_eq_some_iff.1 ih).1
          exact (List.getElem?_append_left hlt).trans ih
      | tokenize j =>
          rw [List.getElem?_modify, ih]
          by_cases hj : j = i
          · simp [hj, Command.isCallOn, Source.resumed_succ]
          · simp [hj, Command.isCallOn]
      | position | save | compare => exact ih

theorem saved_after_prefix (before later : List Command) :
    (after before).saved <+: (after (before ++ later)).saved := by
  induction later using List.reverseRecOn with
  | nil => simp
  | append_singleton later c ih =>
      rw [← List.append_assoc, after_concat, saved_perform]
      cases c with
      | save i => exact ih.trans (List.prefix_append _ _)
      | create | tokenize | position | compare => exact ih

/-- What is saved of a lexer stays where it is, whatever comes later. -/
theorem getElem?_saved_after {before : List Command} {i : Nat} {l : Lexer}
    (hl : (after before).lexers[i]? = some l) (later : List Command) :
    (after (before ++ .save i :: later)).saved[(after before).saved.length]? =
      some l.position := by
  have hprefix := saved_after_prefix (before ++ [.save i]) later
  rw [after_concat, perform_save hl, List.append_assoc, List.singleton_append] at hprefix
  obtain ⟨more, hmore⟩ := hprefix
  rw [← hmore, List.append_assoc, List.singleton_append,
    List.getElem?_append_right (Nat.le_refl _), Nat.sub_self, List.getElem?_cons_zero]

theorem exists_save_of_getElem?_saved {commands : List Command} {n : Nat} {p : Position}
    (h : (after commands).saved[n]? = some p) : ∃ before i later l,
      commands = before ++ .save i :: later ∧ (after before).saved.length = n ∧
        (after before).lexers[i]? = some l ∧ p = l.position := by
  induction commands using List.reverseRecOn with
  | nil => cases h
  | append_singleton commands c ih =>
      have earlier (h : (after commands).saved[n]? = some p) : ∃ before i later l,
          commands ++ [c] = before ++ .save i :: later ∧ (after before).saved.length = n ∧
            (after before).lexers[i]? = some l ∧ p = l.position := by
        obtain ⟨before, i, later, l, rfl, hl⟩ := ih h
        exact ⟨before, i, later ++ [c], l, List.append_assoc _ _ _, hl⟩
      rw [after_concat] at h
      cases c with
      | create | tokenize | position | compare =>
          rw [saved_perform] at h
          exact earlier h
      | save i =>
          cases hl : (after commands).lexers[i]? with
          | none =>
              rw [perform, hl] at h
              exact earlier h
          | some l =>
              rw [perform_save hl, List.getElem?_append] at h
              split at h
              · exact earlier h
              · obtain ⟨hn, hp⟩ := List.getElem?_eq_some_iff.1 h
                rw [List.length_singleton] at hn
                refine ⟨commands, i, [], l, rfl, by omega, hl, ?_⟩
                rw [← hp, List.getElem_singleton]

/-- Each lexer is that of a source after some calls, and each saved position is one of such a lexer. -/
structure IsGenuine (s : Session) : Prop where
  lexers : ∀ l ∈ s.lexers, ∃ source k, l = Source.resumed source k
  saved : ∀ p ∈ s.saved, p.IsPlaced

theorem IsGenuine.isPlaced {s : Session} (h : s.IsGenuine) {l : Lexer} (hl : l ∈ s.lexers) :
    l.position.IsPlaced := by
  obtain ⟨source, k, rfl⟩ := h.lexers l hl
  exact source.isPlaced_resumed k

theorem IsGenuine.perform {s : Session} (h : s.IsGenuine) (c : Command) :
    (s.perform c).1.IsGenuine := by
  constructor
  · rw [lexers_perform]
    intro l hl
    cases c with
    | create source =>
        rcases List.mem_append.1 hl with hl | hl
        · exact h.lexers l hl
        · exact ⟨source, 0, List.mem_singleton.1 hl⟩
    | tokenize i =>
        obtain ⟨j, hj⟩ := List.mem_iff_getElem?.1 hl
        rw [List.getElem?_modify] at hj
        obtain ⟨first, hfirst, rfl⟩ := Option.map_eq_some_iff.1 hj
        obtain ⟨source, k, rfl⟩ := h.lexers first (List.mem_of_getElem? hfirst)
        split
        · exact ⟨source, k + 1, (source.resumed_succ k).symm⟩
        · exact ⟨source, k, rfl⟩
    | position | save | compare => exact h.lexers l hl
  · rw [saved_perform]
    cases c with
    | save i =>
        refine List.forall_mem_append.2 ⟨h.saved, fun p hp => ?_⟩
        obtain ⟨l, hl, rfl⟩ := Option.map_eq_some_iff.1 (Option.mem_toList.1 hp)
        exact h.isPlaced (List.mem_of_getElem? hl)
    | create | tokenize | position | compare => exact h.saved

theorem isGenuine_after (commands : List Command) : (after commands).IsGenuine := by
  induction commands using List.reverseRecOn with
  | nil => exact ⟨List.forall_mem_nil _, List.forall_mem_nil _⟩
  | append_singleton commands c ih =>
      rw [after_concat]
      exact ih.perform c

/-- The positions that a session shows at some time: where its lexers stand, what is saved, and where the
spans of what it returns start and stop. -/
inductive Shows (commands : List Command) : Position → Prop
  | current {before : List Command} {l : Lexer} : before <+: commands →
      l ∈ (after before).lexers → Shows commands l.position
  | saved {before : List Command} {p : Position} : before <+: commands →
      p ∈ (after before).saved → Shows commands p
  | start {outcome : Outcome} {p : Position} {span : Span} :
      .tokenized outcome p ∈ empty.performAll commands → span ∈ outcome.spans →
      Shows commands span.start
  | stop {outcome : Outcome} {p : Position} {span : Span} :
      .tokenized outcome p ∈ empty.performAll commands → span ∈ outcome.spans →
      Shows commands span.stop

theorem isPlaced_of_mem_spans {commands : List Command} {outcome : Outcome} {p : Position}
    {span : Span} (h : .tokenized outcome p ∈ empty.performAll commands)
    (hspan : span ∈ outcome.spans) : span.start.IsPlaced ∧ span.stop.IsPlaced := by
  obtain ⟨before, c, hreply⟩ := exists_of_mem_performAll h
  obtain ⟨l, hl, rfl⟩ := exists_of_reply_tokenized hreply.symm
  obtain ⟨source, k, rfl⟩ := (isGenuine_after before).lexers l hl
  obtain ⟨i, j, hij, hj, rfl⟩ := source.hasSpan_of_mem_spans hspan
  exact ⟨Source.isPlaced_positionAt (hij.le.trans hj), Source.isPlaced_positionAt hj⟩

theorem Shows.isPlaced {commands : List Command} {p : Position} (h : Shows commands p) :
    p.IsPlaced := by
  cases h with
  | current _ hl => exact (isGenuine_after _).isPlaced hl
  | saved _ hp => exact (isGenuine_after _).saved p hp
  | start hreply hspan => exact (isPlaced_of_mem_spans hreply hspan).1
  | stop hreply hspan => exact (isPlaced_of_mem_spans hreply hspan).2

/-- After any commands, a call on one lexer changes no other lexer. A save puts the position of its lexer
behind those that are saved and changes nothing else, no other command changes what is saved, and so a
saved position is that of its lexer at the time. A lexer is where the calls on it alone lead, and replies as
it would alone. A saved position equals that of a lexer if both are at the same offset of the same source,
and of all positions in one text that are ever shown, those at later offsets are those in later places. -/
theorem lexers_side_by_side (commands : List Command) :
    (∀ c, empty.performAll (commands ++ [c]) =
      empty.performAll commands ++ [((after commands).perform c).2]) ∧
    (∀ i j, j ≠ i →
      ((after commands).perform (.tokenize i)).1.lexers[j]? = (after commands).lexers[j]?) ∧
    (∀ c, (∀ i, c ≠ .save i) → ((after commands).perform c).1.saved = (after commands).saved) ∧
    (∀ c, (after commands).saved <+: ((after commands).perform c).1.saved) ∧
    (∀ i l, (after commands).lexers[i]? = some l →
      ((after commands).perform (.save i)).1.lexers = (after commands).lexers ∧
      ((after commands).perform (.save i)).1.saved = (after commands).saved ++ [l.position] ∧
      ((after commands).perform (.save i)).2 = .saved ((after commands).saved ++ [l.position])) ∧
    (∀ i, (after commands).lexers[i]? = none →
      ∀ c ∈ [.tokenize i, .position i, .save i, .compare i],
        (after commands).perform c = (after commands, .noLexer)) ∧
    (∀ n p, (after commands).saved[n]? = some p ↔ ∃ before i later l,
      commands = before ++ .save i :: later ∧ (after before).saved.length = n ∧
        (after before).lexers[i]? = some l ∧ p = l.position) ∧
    (∀ before source later, commands = before ++ .create source :: later →
      let i := before.countP Command.isCreate
      let k := later.countP (Command.isCallOn i)
      (after commands).lexers[i]? = some (source.resumed k) ∧
      ((after before).perform (.create source)).2 = .created (source.resumed 0).position ∧
      ((after commands).perform (.tokenize i)).2 =
        .tokenized (source.resumed k).tokenize.1 (source.resumed (k + 1)).position ∧
      ((after commands).perform (.position i)).2 = .position (source.resumed k).position) ∧
    (after commands).lexers.length = commands.countP Command.isCreate ∧
    (∀ p ∈ (after commands).saved, ∀ l ∈ (after commands).lexers, (p == l.position) = true ↔
      p.source.name = l.position.source.name ∧ p.source.text = l.position.source.text ∧
        p.offset = l.position.offset) ∧
    (∀ i l, (after commands).lexers[i]? = some l → ((after commands).perform (.compare i)).2 =
      .compared (after commands).saved ((after commands).saved.map (· == l.position))) ∧
    ∀ p q, Shows commands p → Shows commands q → p.source.text = q.source.text →
      (p.offset < q.offset ↔ p.line < q.line ∨ p.line = q.line ∧ p.column < q.column) ∧
      (p.offset = q.offset ↔ p.line = q.line ∧ p.column = q.column) := by
  refine ⟨performAll_concat empty commands, ?_, ?_, ?_, ?_, ?_, ?_, ?_,
    length_lexers_after commands, ?_, fun i l hl => reply_compare hl, ?_⟩
  · intro i j hj
    rw [lexers_perform, List.getElem?_modify]
    simp [hj.symm]
  · intro c hc
    rw [saved_perform]
    cases c with
    | save i => exact absurd rfl (hc i)
    | create | tokenize | position | compare => rfl
  · intro c
    rw [← after_concat]
    exact saved_after_prefix commands [c]
  · intro i l hl
    rw [perform_save hl]
    exact ⟨rfl, rfl, rfl⟩
  · intro i hl
    simp [perform, hl]
  · intro n p
    refine ⟨exists_save_of_getElem?_saved, ?_⟩
    rintro ⟨before, i, later, l, rfl, rfl, hl, rfl⟩
    exact getElem?_saved_after hl later
  · rintro before source later rfl
    have hl := getElem?_lexers_after before later source rfl
    refine ⟨hl, rfl, ?_, reply_position hl⟩
    rw [reply_tokenize hl, Source.resumed_succ]
  · intro p hp l hl
    rw [beq_iff_eq]
    exact ((isGenuine_after commands).saved p hp).eq_iff ((isGenuine_after commands).isPlaced hl)
  · intro p q hp hq htext
    rw [← Position.place_lt_iff, ← Position.place_inj]
    exact ⟨hp.isPlaced.offset_lt_iff hq.isPlaced htext,
      hp.isPlaced.offset_eq_iff hq.isPlaced htext⟩

end Session
end ExprLexer

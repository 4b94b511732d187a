import ExprLexer.Proofs.MaximalMunch

namespace ExprLexer

namespace Source

def front (source : Source) (n : Nat) : Source :=
  ⟨source.name, String.ofList (source.text.toList.take n)⟩

def IsAccepted (source : Source) : Prop := ∃ tokens, run source = .ok tokens

/-- The refusal of a character of the first line. -/
def refusal (source : Source) (offset : Nat) (c : Char) : LexError :=
  let start : Position := ⟨offset, 0, offset, source⟩
  ⟨.illegalCharacter c, start, start.advance (some c)⟩

theorem repr_line_refusal (source : Source) (offset : Nat) (c : Char) :
    Nat.repr ((source.refusal offset c).span.start.line + 1) = "1" := by
  change Nat.repr 1 = "1"
  decide

theorem compactText_refusal (source : Source) (offset : Nat) (c : Char) :
    (source.refusal offset c).compactText =
      "Illegal character:'" ++ String.singleton c ++ "'Filename " ++ source.name ++ ", line1" := by
  rw [LexError.compactText, repr_line_refusal, ← String.toList_inj]
  simp [Source.refusal, Cause.category, Cause.detail]

@[simp]
theorem toList_front (source : Source) (n : Nat) :
    (source.front n).text.toList = source.text.toList.take n := String.toList_ofList

end Source

theorem Position.forward_start (source : Source) (n : Nat) :
    (start source).forward n = ⟨n, 0, n, source⟩ := by
  simp [forward, start]

theorem Lexeme.EndsBefore.mono {x : Lexeme} {u v : List Char} (hx : x.EndsBefore u)
    (h : ∀ c ∈ v.head?, c ∈ u.head?) : x.EndsBefore v := by
  cases x with
  | symbol => trivial
  | whole | pointed => exact fun c hc => hx c (h c hc)

namespace Split

theorem refusalAt_start (s : Split) (source : Source) (c : Char) :
    s.refusalAt (.start source) c = source.refusal s.chars.length c := by
  rw [refusalAt, Position.forward_start]
  rfl

theorem IsMaximal.mono {s : Split} {u v : List Char} (hs : s.IsMaximal u)
    (h : ∀ c ∈ v.head?, c ∈ u.head?) : s.IsMaximal v := by
  induction s with
  | last gap => trivial
  | piece gap x s ih =>
      refine ⟨hs.1.mono ?_, ih hs.2⟩
      cases hchars : s.chars with
      | nil => exact h
      | cons c rest => exact fun _ hc => hc

theorem Reads.of_chars {s : Split} {text following : List Char} (h : s.Reads text following) :
    s.Reads s.chars [] :=
  reads_all_iff.2 ⟨rfl, h.maximal.mono (by simp)⟩

theorem Reads.length_lt {s : Split} {text rest : List Char} {c : Char}
    (h : s.Reads text (c :: rest)) : s.chars.length < text.length := by
  rw [h.chars_append, List.length_append, List.length_cons]
  omega

/-- The refused character is refused whatever comes after it. -/
theorem Reads.of_take_eq {s : Split} {text rest : List Char} {c : Char}
    (h : s.Reads text (c :: rest)) (other : List Char)
    (ho : other.take (s.chars.length + 1) = text.take (s.chars.length + 1)) :
    s.Reads other (c :: other.drop (s.chars.length + 1)) := by
  have hfront : text.take (s.chars.length + 1) = s.chars ++ [c] := by
    rw [h.chars_append, List.take_length_add_append]
    rfl
  refine ⟨?_, h.maximal.mono fun _ hd => hd, h.stops⟩
  calc other = other.take (s.chars.length + 1) ++ other.drop (s.chars.length + 1) :=
        (List.take_append_drop _ _).symm
    _ = s.chars ++ c :: other.drop (s.chars.length + 1) := by
        rw [ho, hfront, List.append_assoc, List.singleton_append]

theorem Reads.take {s : Split} {text : List Char} (h : s.Reads text []) (n : Nat) :
    ∃ t : Split, t.Reads (text.take n) [] := by
  obtain ⟨t, following, ht⟩ := exists_reads (text.take n)
  cases following with
  | nil => exact ⟨t, ht⟩
  | cons c rest =>
      -- the refusal within the front would be one of the whole text
      have hlength := ht.length_lt
      rw [List.length_take] at hlength
      have hwhole := ht.of_take_eq text (by
        rw [List.take_take, Nat.min_eq_left (by omega)])
      exact absurd (h.unique hwhole).2 (List.cons_ne_nil _ _).symm

theorem run_eq_error_iff_reads {source : Source} {e : LexError} : run source = .error e ↔
    ∃ (s : Split) (c : Char) (rest : List Char), s.Reads source.text.toList (c :: rest) ∧
      source.refusal s.chars.length c = e := by
  constructor
  · intro h
    obtain ⟨s, following, hs⟩ := exists_reads source.text.toList
    cases following with
    | nil =>
        rw [hs.run_ok rfl] at h
        cases h
    | cons c rest =>
        rw [hs.run_error rfl, refusalAt_start] at h
        exact ⟨s, c, rest, hs, Except.error.inj h⟩
  · rintro ⟨s, c, rest, hs, rfl⟩
    rw [hs.run_error rfl, refusalAt_start]

end Split

namespace Source

open Split

variable {source : Source}

theorem isAccepted_iff_reads :
    source.IsAccepted ↔ ∃ s : Split, s.Reads source.text.toList [] := by
  constructor
  · rintro ⟨tokens, h⟩
    obtain ⟨s, hs, -⟩ := run_eq_ok_iff_reads.1 h
    exact ⟨s, hs⟩
  · rintro ⟨s, hs⟩
    exact ⟨_, hs.run_ok rfl⟩

theorem not_isAccepted_iff : ¬ source.IsAccepted ↔ ∃ e, run source = .error e := by
  rw [IsAccepted]
  cases run source <;> simp

theorem IsAccepted.front (h : source.IsAccepted) (n : Nat) : (source.front n).IsAccepted := by
  obtain ⟨s, hs⟩ := isAccepted_iff_reads.1 h
  rw [isAccepted_iff_reads, toList_front]
  exact hs.take n

theorem isAccepted_front_iff {s : Split} {rest : List Char} {c : Char}
    (hs : s.Reads source.text.toList (c :: rest)) (n : Nat) :
    (source.front n).IsAccepted ↔ n ≤ s.chars.length := by
  rw [isAccepted_iff_reads, toList_front]
  constructor
  · rintro ⟨t, ht⟩
    by_contra hn
    have hlater := hs.of_take_eq (source.text.toList.take n) (by
      rw [List.take_take, Nat.min_eq_left (by omega)])
    exact absurd (ht.unique hlater).2 (List.cons_ne_nil _ _).symm
  · intro hn
    rw [hs.chars_append, List.take_append_of_le_length hn]
    exact hs.of_chars.take n

/-- A text is refused at the end of its longest accepted front, and every text that begins with that
front and the refused character is refused there. -/
theorem refused_past_longest_accepted (source : Source) :
    (∀ e, run source = .error e → ∃ (i : Nat) (c : Char), source.text.toList[i]? = some c ∧
      e = source.refusal i c ∧
      (∀ n, (source.front n).IsAccepted ↔ n ≤ i) ∧
      ∀ other : Source, other.text.toList.take (i + 1) = source.text.toList.take (i + 1) →
        run other = .error (other.refusal i c)) ∧
    (source.IsAccepted → ∀ n, (source.front n).IsAccepted) ∧
    ((∃ n, ¬ (source.front n).IsAccepted) → ∃ e, run source = .error e) := by
  refine ⟨?_, IsAccepted.front, ?_⟩
  · intro e he
    obtain ⟨s, c, rest, hs, rfl⟩ := run_eq_error_iff_reads.1 he
    refine ⟨s.chars.length, c, by simp [hs.chars_append], rfl, isAccepted_front_iff hs, ?_⟩
    intro other hother
    exact run_eq_error_iff_reads.2 ⟨s, c, _, hs.of_take_eq _ hother, rfl⟩
  · rintro ⟨n, hn⟩
    exact not_isAccepted_iff.1 (mt (fun h => h.front n) hn)

end Source
end ExprLexer

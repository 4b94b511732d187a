import ExprLexer.Proofs.Cursor
import Mathlib.Algebra.Group.Nat.Defs
import Mathlib.Data.List.Infix

namespace ExprLexer

namespace Position

section

variable {Count : Type} [Add Count] [OfNat Count 0] [OfNat Count 1]

def advanceAll (p : Position Count) (steps : List (Option Char)) : Position Count :=
  steps.foldl advance p

variable (p : Position Count) (steps more : List (Option Char))

theorem advanceAll_append :
    p.advanceAll (steps ++ more) = (p.advanceAll steps).advanceAll more := List.foldl_append

theorem advanceAll_concat (step : Option Char) :
    p.advanceAll (steps ++ [step]) = (p.advanceAll steps).advance step :=
  List.foldl_concat advance p step steps

theorem advanceAll_map {f : Option Char → Option Char}
    (hf : ∀ step, f step = some '\n' ↔ step = some '\n') :
    p.advanceAll (steps.map f) = p.advanceAll steps := by
  have hadvance : (fun (q : Position Count) step => q.advance (f step)) = advance := by
    funext q step
    simp only [advance, hf]
  rw [advanceAll, List.foldl_map, hadvance]
  rfl

theorem trail_eq_map_inits : p.trail steps = steps.inits.map p.advanceAll := by
  induction steps generalizing p with
  | nil => rfl
  | cons step steps ih =>
      rw [trail, ih, List.inits_cons, List.map_cons, List.map_map]
      rfl

theorem trail_append :
    p.trail (steps ++ more) = p.trail steps ++ ((p.advanceAll steps).trail more).tail := by
  have hmore : (p.advanceAll ∘ fun front => steps ++ front) = (p.advanceAll steps).advanceAll :=
    funext (p.advanceAll_append steps)
  rw [trail_eq_map_inits, trail_eq_map_inits, trail_eq_map_inits, List.inits_append, List.map_append,
    List.map_map, hmore, List.map_tail]

end

variable (steps more : List (Option Char))

/-- A position is made up of what the steps count: all of them, the line ends among them, and those
after the last line end. -/
theorem advanceAll_eq (p : Position) : p.advanceAll steps =
    ⟨p.offset + steps.length, p.line + steps.count (some '\n'),
      if some '\n' ∈ steps then (steps.rtakeWhile (· ≠ some '\n')).length
      else p.column + steps.length, p.source⟩ := by
  -- from the end, where a line end or one more column is all that a step changes
  induction steps using List.reverseRecOn with
  | nil => rfl
  | append_singleton steps step ih =>
      rw [advanceAll_concat, ih, List.rtakeWhile_concat]
      by_cases h : step = some '\n'
      · subst h
        rw [advance_newline]
        simp [Nat.add_assoc]
      · rw [advance_of_ne _ h]
        by_cases hmem : some '\n' ∈ steps
        · simp [h, hmem, Nat.add_assoc]
        · simp [h, hmem, Ne.symm h, Nat.add_assoc]

@[simp]
theorem toWords_toNats (p : Position UInt64) : p.toNats.toWords = p := by
  simp [toWords, toNats]

theorem toWords_advance (p : Position) (step : Option Char) :
    (p.advance step).toWords = p.toWords.advance step := by
  by_cases h : step = some '\n'
  · subst h
    simp [advance_newline, toWords]
  · rw [advance_of_ne _ h, advance_of_ne _ h]
    simp [toWords]

theorem toWords_advanceAll (p : Position) :
    (p.advanceAll steps).toWords = p.toWords.advanceAll steps := by
  induction steps generalizing p with
  | nil => rfl
  | cons step steps ih => exact (ih (p.advance step)).trans (by rw [toWords_advance]; rfl)

theorem toNat_add_one (n : UInt64) : (n + 1).toNat = (n.toNat + 1) % 2 ^ 64 := UInt64.toNat_add n 1

theorem addOne?_eq_some_iff {n m : UInt64} :
    addOne? n = some m ↔ n.toNat + 1 < 2 ^ 64 ∧ n + 1 = m := by
  have hn := n.toNat_lt
  have hfull : n + 1 = 0 ↔ ¬ n.toNat + 1 < 2 ^ 64 := by
    rw [← UInt64.toNat_inj, toNat_add_one, UInt64.toNat_zero]
    omega
  simp only [addOne?, hfull, ite_not, Option.ite_none_right_eq_some, Option.some.injEq]

/-- No count comes to leave its word on the way: not that of the offset, not that of the line, and not
that of the column before it is set back for the first time. -/
@[mk_iff]
structure Fits (p : Position UInt64) (steps : List (Option Char)) : Prop where
  offset : p.offset.toNat + steps.length < 2 ^ 64
  line : p.line.toNat + steps.count (some '\n') < 2 ^ 64
  column : p.column.toNat + min steps.length (steps.idxOf (some '\n') + 1) < 2 ^ 64

def advanceAll? (p : Position UInt64) (steps : List (Option Char)) : Option (Position UInt64) :=
  steps.foldlM advance? p

variable {p q : Position UInt64} {step : Option Char}

theorem fits_nil : p.Fits [] := ⟨p.offset.toNat_lt, p.line.toNat_lt, by simpa using p.column.toNat_lt⟩

theorem fits_start (source : Source) (h : steps.length < 2 ^ 64) :
    (start source).toWords.Fits steps := by
  have zero {n : Nat} (hn : n ≤ steps.length) : (UInt64.ofNat 0).toNat + n < 2 ^ 64 := by
    have hzero : (UInt64.ofNat 0).toNat = 0 := rfl
    omega
  exact ⟨zero (Nat.le_refl _), zero List.count_le_length, zero (Nat.min_le_left _ _)⟩

theorem advance?_eq_some_iff : p.advance? step = some q ↔ p.Fits [step] ∧ p.advance step = q := by
  simp only [advance?, Option.bind_eq_bind, Option.bind_eq_some_iff, addOne?_eq_some_iff, fits_iff]
  by_cases h : step = some '\n'
  · subst h
    simp only [advance_newline, ↓reduceIte, Option.bind_eq_some_iff, addOne?_eq_some_iff,
      Option.pure_def, Option.some.injEq]
    constructor
    · rintro ⟨_, ⟨hoffset, rfl⟩, _, ⟨hcolumn, rfl⟩, _, ⟨hline, rfl⟩, rfl⟩
      exact ⟨⟨hoffset, hline, hcolumn⟩, rfl⟩
    · rintro ⟨⟨hoffset, hline, hcolumn⟩, rfl⟩
      exact ⟨_, ⟨hoffset, rfl⟩, _, ⟨hcolumn, rfl⟩, _, ⟨hline, rfl⟩, rfl⟩
  · rw [p.advance_of_ne h, List.count_singleton]
    simp only [h, ↓reduceIte, beq_iff_eq, Option.pure_def, Option.some.injEq]
    constructor
    · rintro ⟨_, ⟨hoffset, rfl⟩, _, ⟨hcolumn, rfl⟩, rfl⟩
      exact ⟨⟨hoffset, p.line.toNat_lt, by simpa using hcolumn⟩, rfl⟩
    · rintro ⟨⟨hoffset, -, hcolumn⟩, rfl⟩
      exact ⟨_, ⟨hoffset, rfl⟩, _, ⟨by simpa using hcolumn, rfl⟩, rfl⟩

theorem fits_cons : p.Fits (step :: steps) ↔ p.Fits [step] ∧ (p.advance step).Fits steps := by
  have hoffset := p.offset.toNat_lt
  have hline := p.line.toNat_lt
  have hcolumn := p.column.toNat_lt
  by_cases h : step = some '\n'
  · subst h
    simp only [fits_iff, advance_newline, toNat_add_one, List.length_cons, List.length_nil,
      List.count_cons_self, List.count_nil, List.idxOf_cons_self, UInt64.toNat_zero]
    omega
  · rw [p.advance_of_ne h]
    simp only [fits_iff, toNat_add_one, List.length_cons, List.length_nil,
      List.count_cons_of_ne h, List.count_nil, List.idxOf_cons_ne _ h, List.idxOf_nil]
    omega

/-- A build that checks its additions gets through the steps if no count leaves its word, and then
comes to the same position. -/
theorem advanceAll?_eq_some_iff :
    p.advanceAll? steps = some q ↔ p.Fits steps ∧ p.advanceAll steps = q := by
  induction steps generalizing p with
  | nil => simp [advanceAll?, advanceAll, fits_nil]
  | cons step steps ih =>
      rw [fits_cons, advanceAll?, List.foldlM_cons, Option.bind_eq_bind, Option.bind_eq_some_iff]
      constructor
      · rintro ⟨next, hstep, hrest⟩
        obtain ⟨hfits, rfl⟩ := advance?_eq_some_iff.1 hstep
        obtain ⟨hmore, rfl⟩ := ih.1 hrest
        exact ⟨⟨hfits, hmore⟩, rfl⟩
      · rintro ⟨⟨hfits, hmore⟩, rfl⟩
        exact ⟨_, advance?_eq_some_iff.2 ⟨hfits, rfl⟩, ih.2 ⟨hmore, rfl⟩⟩

theorem advanceAll?_append : p.advanceAll? (steps ++ more) =
    (p.advanceAll? steps).bind fun q => q.advanceAll? more := List.foldlM_append

theorem advanceAll_words : p.advanceAll steps =
    ⟨p.offset + .ofNat steps.length, p.line + .ofNat (steps.count (some '\n')),
      if some '\n' ∈ steps then .ofNat (steps.rtakeWhile (· ≠ some '\n')).length
      else p.column + .ofNat steps.length, p.source⟩ := by
  have hwords : p.advanceAll steps = (p.toNats.advanceAll steps).toWords := by
    rw [toWords_advanceAll, toWords_toNats]
  rw [hwords, advanceAll_eq]
  simp [toWords, toNats, apply_ite UInt64.ofNat]

theorem toNat_add_ofNat {w : UInt64} {n : Nat} (h : w.toNat + n < 2 ^ 64) :
    (w + .ofNat n).toNat = w.toNat + n := by
  have hn : n < UInt64.size := Nat.lt_of_le_of_lt (Nat.le_add_left n _) h
  rw [UInt64.toNat_add, UInt64.toNat_ofNat_of_lt' hn, Nat.mod_eq_of_lt h]

theorem Fits.toNat_advanceAll (h : p.Fits steps) :
    (p.advanceAll steps).offset.toNat = p.offset.toNat + steps.length ∧
    (p.advanceAll steps).line.toNat = p.line.toNat + steps.count (some '\n') ∧
    (p.advanceAll steps).column.toNat =
      if some '\n' ∈ steps then (steps.rtakeWhile (· ≠ some '\n')).length
      else p.column.toNat + steps.length := by
  rw [advanceAll_words]
  refine ⟨toNat_add_ofNat h.offset, toNat_add_ofNat h.line, ?_⟩
  by_cases hmem : some '\n' ∈ steps
  · have hlast := (List.rtakeWhile_suffix (· ≠ some '\n') steps).length_le
    have hlength : steps.length < UInt64.size := Nat.lt_of_le_of_lt (Nat.le_add_left _ _) h.offset
    rw [if_pos hmem, if_pos hmem]
    exact UInt64.toNat_ofNat_of_lt' (Nat.lt_of_le_of_lt hlast hlength)
  · have hcolumn := h.column
    rw [List.idxOf_eq_length hmem, Nat.min_eq_left (Nat.le_succ _)] at hcolumn
    rw [if_neg hmem, if_neg hmem]
    exact toNat_add_ofNat hcolumn

theorem Fits.toNats_advanceAll (h : p.Fits steps) :
    (p.advanceAll steps).toNats = p.toNats.advanceAll steps := by
  obtain ⟨hoffset, hline, hcolumn⟩ := h.toNat_advanceAll
  have hsource : (p.advanceAll steps).source = p.source := by rw [advanceAll_words]
  rw [advanceAll_eq, toNats, hoffset, hline, hcolumn, hsource]
  rfl

/-- Steps lead from any position to one that is told by their number, the line ends among them and the
steps after the last line end; the column where they started counts only if there is no line end. The
counts are words, and go on from zero when they are full. A build that checks its additions stops there
instead; if it gets through, it comes to the same position, and its counts are the exact numbers. Steps
past the end of a text and carriage returns are like any other character, and steps can be taken in two
parts. -/
theorem advanceAll_closed_form (p : Position UInt64) (steps more : List (Option Char)) :
    p.advanceAll steps =
      ⟨p.offset + .ofNat steps.length, p.line + .ofNat (steps.count (some '\n')),
        if some '\n' ∈ steps then .ofNat (steps.rtakeWhile (· ≠ some '\n')).length
        else p.column + .ofNat steps.length, p.source⟩ ∧
    (∀ q, p.advanceAll? steps = some q ↔ p.Fits steps ∧ p.advanceAll steps = q) ∧
    (p.Fits steps →
      (p.advanceAll steps).offset.toNat = p.offset.toNat + steps.length ∧
      (p.advanceAll steps).line.toNat = p.line.toNat + steps.count (some '\n') ∧
      (p.advanceAll steps).column.toNat =
        if some '\n' ∈ steps then (steps.rtakeWhile (· ≠ some '\n')).length
        else p.column.toNat + steps.length) ∧
    p.trail steps = steps.inits.map p.advanceAll ∧
    (∀ c, c ≠ '\n' → p.advanceAll
      (steps.map fun step => if step = none ∨ step = some '\r' then some c else step) =
        p.advanceAll steps) ∧
    p.advanceAll (steps ++ more) = (p.advanceAll steps).advanceAll more ∧
    p.advanceAll? (steps ++ more) = (p.advanceAll? steps).bind (fun q => q.advanceAll? more) ∧
    p.trail (steps ++ more) = p.trail steps ++ ((p.advanceAll steps).trail more).tail := by
  refine ⟨advanceAll_words steps, fun q => advanceAll?_eq_some_iff steps,
    Fits.toNat_advanceAll steps, p.trail_eq_map_inits steps, ?_, p.advanceAll_append steps more,
    advanceAll?_append steps more, p.trail_append steps more⟩
  intro c hc
  apply advanceAll_map
  intro step
  split
  · rename_i h
    rcases h with rfl | rfl <;> simp [hc]
  · exact Iff.rfl

example (source : Source) : (⟨7, 3, 9, source⟩ : Position UInt64).advanceAll
    [none, some '\n', some '\r', none] = ⟨11, 4, 2, source⟩ := rfl

example : (⟨18446744073709551615, 3, 9, ⟨"", ""⟩⟩ : Position UInt64).advanceAll [none] =
    ⟨0, 3, 10, ⟨"", ""⟩⟩ := by decide

example : (⟨18446744073709551615, 3, 9, ⟨"", ""⟩⟩ : Position UInt64).advanceAll? [none] = none := by
  decide

end Position

theorem Source.positionAt_eq_advanceAll {source : Source} {n : Nat}
    (h : n ≤ source.text.toList.length) : source.positionAt n =
      (Position.start source).advanceAll ((source.text.toList.take n).map some) := by
  induction n with
  | zero => rfl
  | succ n ih =>
      have hc := List.getElem?_eq_getElem (Nat.lt_of_succ_le h)
      rw [← advance_positionAt hc, ih (Nat.le_of_succ_le h), List.take_add_one, hc,
        Option.toList_some, List.map_append, List.map_singleton, Position.advanceAll_concat]

/-- Words are enough to count the characters of a text that is not longer than they can tell. -/
theorem Source.positionAt_eq_words {source : Source} {n : Nat}
    (h : n ≤ source.text.toList.length) (hn : n < 2 ^ 64) : source.positionAt n =
      ((Position.start source).toWords.advanceAll
        ((source.text.toList.take n).map some)).toNats := by
  have hlength : ((source.text.toList.take n).map some).length = n := by
    rw [List.length_map, List.length_take, Nat.min_eq_left h]
  have hfits := Position.fits_start _ source (hlength.trans_lt hn)
  rw [hfits.toNats_advanceAll, positionAt_eq_advanceAll h]
  rfl

end ExprLexer

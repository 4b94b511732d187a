import ExprLexer.Proofs.Acceptance
import Mathlib.Data.List.Forall2

namespace ExprLexer

/-- What the gaps of a text are replaced by, before each of its other characters and at its end. -/
inductive Respacing where
  | last (old new : Gap)
  | next (old new : Gap) (c : Char) (printed : isBlank c = false) (rest : Respacing)

namespace Respacing

def before : Respacing → List Char
  | last old _ => old.chars
  | next old _ c _ rest => old.chars ++ c :: rest.before

def after : Respacing → List Char
  | last _ new => new.chars
  | next _ new c _ rest => new.chars ++ c :: rest.after

/-- The offset that the character of an offset is moved to. That of a blank is moved to where the next
other character goes. -/
def image : Respacing → Nat → Nat
  | last _ new, _ => new.chars.length
  | next old new _ _ rest, i =>
      if i ≤ old.chars.length then new.chars.length
      else new.chars.length + 1 + rest.image (i - (old.chars.length + 1))

/-- A gap stays one. A new gap is put at either end of the text, or between characters that are not
both of numbers; the character before the text, if there is one, is given. -/
def IsSafe : Option Char → Respacing → Prop
  | _, last old new => old.chars ≠ [] → new.chars ≠ []
  | previous, next old new c _ rest =>
      (old.chars ≠ [] → new.chars ≠ []) ∧
      (old.chars = [] → new.chars ≠ [] → ¬ ((∃ d ∈ previous, isNumberChar d) ∧ isNumberChar c)) ∧
      rest.IsSafe (some c)

variable {r : Respacing} {previous : Option Char} {c : Char} {i : Nat}

theorem notMem_gap (gap : Gap) (hc : isBlank c = false) : c ∉ gap.chars := by
  intro hmem
  rw [gap.isBlank_of_mem hmem] at hc
  cases hc

theorem filter_gap (gap : Gap) : gap.chars.filter (fun c => !isBlank c) = [] := by
  rw [List.filter_eq_nil_iff]
  intro c hc
  simp [gap.isBlank_of_mem hc]

theorem exists_iff_filter_eq {s t : List Char} : (∃ r : Respacing, r.before = s ∧ r.after = t) ↔
    s.filter (fun c => !isBlank c) = t.filter (fun c => !isBlank c) := by
  constructor
  · rintro ⟨r, rfl, rfl⟩
    induction r with
    | last old new => rw [before, after, filter_gap, filter_gap]
    | next old new c printed rest ih =>
        simp [before, after, filter_gap, printed, ih]
  · intro h
    generalize hprinted : t.filter (fun c => !isBlank c) = printed at h
    induction printed generalizing s t with
    | nil =>
        rw [List.filter_eq_nil_iff] at h hprinted
        exact ⟨.last ⟨s, by simpa [isBlank_iff] using h⟩ ⟨t, by simpa [isBlank_iff] using hprinted⟩, rfl,
          rfl⟩
    | cons c printed ih =>
        obtain ⟨old, s, rfl, hold, hc, hs⟩ := List.filter_eq_cons_iff.1 h
        obtain ⟨new, t, rfl, hnew, -, ht⟩ := List.filter_eq_cons_iff.1 hprinted
        obtain ⟨rest, rfl, rfl⟩ := ih ht hs
        exact ⟨.next ⟨old, by simpa [isBlank_iff] using hold⟩ ⟨new, by simpa [isBlank_iff] using hnew⟩ c
          (by simpa using hc) rest, rfl, rfl⟩

section next

variable (old new : Gap) (c : Char) (printed : isBlank c = false) (rest : Respacing)

theorem image_gap : (next old new c printed rest).image old.chars.length = new.chars.length :=
  if_pos le_rfl

theorem image_rest (i : Nat) : (next old new c printed rest).image (old.chars.length + 1 + i) =
    new.chars.length + 1 + rest.image i := by
  rw [image, if_neg (by omega), Nat.add_sub_cancel_left]

end next

theorem getElem?_append_cons (front back : List Char) (c : Char) (i : Nat) :
    (front ++ c :: back)[front.length + 1 + i]? = back[i]? := by
  rw [List.getElem?_append_right (by omega), Nat.add_assoc, Nat.add_sub_cancel_left, Nat.add_comm 1,
    List.getElem?_cons_succ]

theorem getElem?_image (h : r.before[i]? = some c) (hc : isBlank c = false) :
    r.after[r.image i]? = some c ∧ ∀ j, i < j → r.image i < r.image j := by
  induction r generalizing i with
  | last old new => exact absurd (List.mem_of_getElem? h) (notMem_gap old hc)
  | next old new d printed rest ih =>
      rcases lt_trichotomy i old.chars.length with hi | rfl | hi
      · rw [before, List.getElem?_append_left hi] at h
        exact absurd (List.mem_of_getElem? h) (notMem_gap old hc)
      · refine ⟨?_, fun j hj => ?_⟩
        · rw [image_gap]
          simpa [before, after] using h
        · obtain ⟨k, rfl⟩ := Nat.exists_eq_add_of_le (Nat.succ_le_of_lt hj)
          rw [image_gap, Nat.succ_eq_add_one, image_rest]
          omega
      · obtain ⟨k, rfl⟩ := Nat.exists_eq_add_of_le (Nat.succ_le_of_lt hi)
        rw [before, getElem?_append_cons] at h
        obtain ⟨hchar, hlater⟩ := ih h
        rw [Nat.succ_eq_add_one, image_rest]
        refine ⟨?_, fun j hj => ?_⟩
        · rwa [after, getElem?_append_cons]
        · obtain ⟨m, rfl⟩ := Nat.exists_eq_add_of_le (by omega : old.chars.length + 1 ≤ j)
          have := hlater m (by omega)
          rw [image_rest]
          omega

theorem exists_next (gap : Gap) {text : List Char} (h : r.before = gap.chars ++ c :: text)
    (hc : isBlank c = false) : ∃ new rest, r = next gap new c hc rest ∧ rest.before = text := by
  cases r with
  | last old new =>
      have hmem : c ∈ old.chars := by
        rw [before] at h
        simp [h]
      exact absurd hmem (notMem_gap old hc)
  | next old new d printed rest =>
      obtain ⟨rfl, hrest⟩ := Split.gap_unique (by simpa using printed) (by simpa using hc) h
      obtain ⟨rfl, rfl⟩ := List.cons.inj hrest
      exact ⟨new, rest, rfl, rfl⟩

theorem head?_after (hr : r.IsSafe previous) :
    ∀ c ∈ r.after.head?, isBlank c ∨ c ∈ r.before.head? := by
  intro c hc
  cases r with
  | last old new => exact .inl (new.isBlank_of_mem (List.mem_of_head? hc))
  | next old new d printed rest =>
      by_cases hnew : new.chars = []
      · right
        have hold : old.chars = [] := not_not.1 (mt hr.1 (not_not.2 hnew))
        rw [after, hnew] at hc
        rwa [before, hold]
      · left
        rw [after, List.head?_append, List.head?_eq_some_head hnew] at hc
        obtain rfl := Option.some.inj hc
        exact new.isBlank_of_mem (List.head_mem hnew)

theorem isBlank_of_isNumberChar (h : isNumberChar c) : isBlank c = false := by
  rw [Bool.eq_false_iff]
  intro hb
  rw [isNumberChar_blank hb] at h
  cases h

/-- No gap comes into a stretch of number characters. -/
theorem exists_after_stretch {p : Char} {stretch text : List Char}
    (hp : stretch ≠ [] → isNumberChar p) (hstretch : ∀ c ∈ stretch, isNumberChar c)
    (h : r.before = stretch ++ text) (hr : r.IsSafe (some p)) :
    ∃ (rest : Respacing) (q : Char), rest.before = text ∧ r.after = stretch ++ rest.after ∧
      rest.IsSafe (some q) ∧ ∀ i, r.image (stretch.length + i) = stretch.length + rest.image i := by
  induction stretch generalizing r p with
  | nil => exact ⟨r, p, h, rfl, hr, by simp⟩
  | cons c stretch ih =>
      rw [List.forall_mem_cons] at hstretch
      obtain ⟨new, rest, rfl, hrest⟩ := exists_next .empty h (isBlank_of_isNumberChar hstretch.1)
      obtain ⟨-, hjoined, hsafe⟩ := hr
      have hnew : new.chars = [] := by
        by_contra hne
        exact hjoined rfl hne ⟨⟨p, rfl, hp (List.cons_ne_nil c stretch)⟩, hstretch.1⟩
      obtain ⟨later, q, hlater, hafter, hsafe, himage⟩ :=
        ih (fun _ => hstretch.1) hstretch.2 hrest hsafe
      refine ⟨later, q, hlater, ?_, hsafe, fun i => ?_⟩
      · rw [after, hnew, hafter]
        rfl
      · have hi : (c :: stretch).length + i = Gap.empty.chars.length + 1 + (stretch.length + i) := by
          simp only [List.length_cons, Gap.empty, List.length_nil]
          omega
        rw [hi, image_rest, himage, hnew, List.length_cons, List.length_nil]
        omega

end Respacing

namespace Lexeme

theorem EndsBefore.of_blank_or {x : Lexeme} {u v : List Char} (hx : x.EndsBefore u)
    (h : ∀ c ∈ v.head?, isBlank c ∨ c ∈ u.head?) : x.EndsBefore v := by
  have other {c : Char} (hc : isBlank c) : c.isDigit = false ∧ c ≠ '.' := by
    simpa [isNumberChar] using isNumberChar_blank hc
  cases x with
  | symbol => trivial
  | whole => exact fun c hc => (h c hc).elim other (hx c)
  | pointed => exact fun c hc => (h c hc).elim (fun hb => (other hb).1) (hx c)

theorem exists_stretch (x : Lexeme) : ∃ c stretch, x.chars = c :: stretch ∧ isBlank c = false ∧
    (∀ d ∈ stretch, isNumberChar d) ∧ (stretch ≠ [] → isNumberChar c) := by
  obtain ⟨c, stretch, hchars, hblank, -⟩ := x.head_chars
  refine ⟨c, stretch, hchars, hblank, ?_⟩
  cases hv : x.value with
  | some n =>
      have hnumber : ∀ d ∈ c :: stretch, isNumberChar d := fun d hd =>
        isNumberChar_of_mem_chars (by rw [hv]; rfl) (hchars ▸ hd)
      rw [List.forall_mem_cons] at hnumber
      exact ⟨hnumber.2, fun _ => hnumber.1⟩
  | none =>
      cases x with
      | symbol d kind names =>
          obtain rfl : [] = stretch := (List.cons.inj hchars).2
          simp
      | whole => cases hv
      | pointed => cases hv

end Lexeme

namespace Respacing

variable {r : Respacing} {previous : Option Char}

theorem exists_after_lexeme {gap : Gap} {x : Lexeme} {text : List Char}
    (h : r.before = gap.chars ++ (x.chars ++ text)) (hr : r.IsSafe previous) :
    ∃ (new : Gap) (rest : Respacing) (q : Char), rest.before = text ∧
      r.after = new.chars ++ (x.chars ++ rest.after) ∧ rest.IsSafe (some q) ∧
      r.image gap.chars.length = new.chars.length ∧
      ∀ i, r.image (gap.chars.length + x.chars.length + i) =
        new.chars.length + x.chars.length + rest.image i := by
  obtain ⟨c, stretch, hchars, hblank, hstretch, hfirst⟩ := x.exists_stretch
  rw [hchars] at h ⊢
  obtain ⟨new, rest, rfl, hrest⟩ := exists_next gap h hblank
  obtain ⟨later, q, hlater, hafter, hsafe, himage⟩ :=
    exists_after_stretch hfirst hstretch hrest hr.2.2
  refine ⟨new, later, q, hlater, ?_, hsafe, image_gap _ _ _ _ _, fun i => ?_⟩
  · rw [after, hafter]
    rfl
  · have hi : gap.chars.length + (c :: stretch).length + i =
        gap.chars.length + 1 + (stretch.length + i) := by
      rw [List.length_cons]
      omega
    rw [hi, image_rest, himage, List.length_cons]
    omega

/-- The second token is the first one where it has been moved to, the texts starting at two positions. -/
def Moves (r : Respacing) (p q : Position) (t u : Token) : Prop :=
  u.kind = t.kind ∧ u.value = t.value ∧
    ∃ i, t.span.start.offset = p.offset + i ∧ u.span.start.offset = q.offset + r.image i

end Respacing

/-- The split that a scan reads is moved as a whole, and with it the character that it stops at. -/
theorem Split.Reads.respaced {s : Split} {r : Respacing} {previous : Option Char}
    {following : List Char} (hs : s.Reads r.before following) (hr : r.IsSafe previous) :
    ∃ (t : Split) (rest : List Char), t.Reads r.after rest ∧ rest.head? = following.head? ∧
      r.image s.chars.length = t.chars.length ∧
      ∀ p q, List.Forall₂ (r.Moves p q) (s.tokensAt p) (t.tokensAt q) := by
  induction s generalizing r previous with
  | last gap =>
      cases following with
      | nil =>
          have hblank : ∀ c ∈ r.before, isBlank c := by
            rw [hs.chars_append, List.append_nil]
            exact fun _ => gap.isBlank_of_mem
          cases r with
          | last old new =>
              exact ⟨.last new, [], reads_all_iff.2 ⟨rfl, trivial⟩, rfl, rfl, fun _ _ => .nil⟩
          | next old new c printed rest =>
              have := hblank c (by simp [Respacing.before])
              rw [printed] at this
              cases this
      | cons c text =>
          have hc := stops_not_blank hs.stops c rfl
          obtain ⟨new, rest, rfl, -⟩ := Respacing.exists_next gap hs.chars_append hc
          exact ⟨.last new, c :: rest.after, ⟨rfl, trivial, hs.stops⟩, rfl,
            Respacing.image_gap _ _ _ _ _, fun _ _ => .nil⟩
  | piece gap x s ih =>
      have hbefore : r.before = gap.chars ++ (x.chars ++ (s.chars ++ following)) := by
        rw [hs.chars_append, chars, List.append_assoc, List.append_assoc]
      obtain ⟨new, later, c, hlater, hafter, hsafe, hgap, himage⟩ :=
        Respacing.exists_after_lexeme hbefore hr
      obtain ⟨t, rest, ht, hhead, hlength, htokens⟩ := ih ⟨hlater, hs.maximal.2, hs.stops⟩ hsafe
      -- a number stays as long as it can be: no digit or point comes to stand behind it
      have hends : x.EndsBefore (t.chars ++ rest) := by
        rw [← ht.chars_append]
        apply hs.maximal.1.of_blank_or
        rw [← hlater]
        exact Respacing.head?_after hsafe
      refine ⟨.piece new x t, rest, ⟨?_, ⟨hends, ht.maximal⟩, ht.stops⟩, hhead, ?_, fun p q => ?_⟩
      · rw [hafter, ht.chars_append]
        simp [chars]
      · have hlengths : (piece gap x s).chars.length =
            gap.chars.length + x.chars.length + s.chars.length := by
          simp [chars, Nat.add_assoc]
        rw [hlengths, himage, hlength]
        simp [chars, Nat.add_assoc]
      · refine .cons ⟨rfl, rfl, gap.chars.length, rfl, ?_⟩ ?_
        · rw [hgap]
          rfl
        · refine (htokens _ _).imp fun u v => ?_
          rintro ⟨hkind, hvalue, i, hu, hv⟩
          refine ⟨hkind, hvalue, gap.chars.length + x.chars.length + i, ?_, ?_⟩
          · rw [hu, Position.offset_forward, Nat.add_assoc]
          · rw [hv, himage, Position.offset_forward, Nat.add_assoc]

/-- Blanks only separate. A text that is respaced has the same kinds and values in the same order, or is
refused for the same character, and tokens and refusals start where the characters that they started at
have been moved to. -/
theorem run_respaced (name : String) :
    (∀ s t : List Char, (∃ r : Respacing, r.before = s ∧ r.after = t) ↔
      s.filter (fun c => !isBlank c) = t.filter (fun c => !isBlank c)) ∧
    ∀ r : Respacing, r.IsSafe none →
      (∀ i c, r.before[i]? = some c → isBlank c = false →
        r.after[r.image i]? = some c ∧ ∀ j, i < j → r.image i < r.image j) ∧
      (∀ tokens, run ⟨name, String.ofList r.before⟩ = .ok tokens → ∃ moved,
        run ⟨name, String.ofList r.after⟩ = .ok moved ∧ List.Forall₂ (fun t u => u.kind = t.kind ∧
          u.value = t.value ∧ u.span.start.offset = r.image t.span.start.offset) tokens moved) ∧
      ∀ e, run ⟨name, String.ofList r.before⟩ = .error e → ∃ moved,
        run ⟨name, String.ofList r.after⟩ = .error moved ∧ moved.cause = e.cause ∧
          moved.span.start.offset = r.image e.span.start.offset := by
  refine ⟨fun s t => Respacing.exists_iff_filter_eq, fun r hr =>
    ⟨fun i c => Respacing.getElem?_image, fun tokens h => ?_, fun e h => ?_⟩⟩
  · obtain ⟨s, hs, rfl⟩ := Split.run_eq_ok_iff_reads.1 h
    rw [String.toList_ofList] at hs
    obtain ⟨t, rest, ht, hhead, -, htokens⟩ := hs.respaced hr
    obtain rfl : rest = [] := List.head?_eq_none_iff.1 hhead
    refine ⟨_, ht.run_ok String.toList_ofList, (htokens _ _).imp fun u v => ?_⟩
    rintro ⟨hkind, hvalue, i, hu, hv⟩
    refine ⟨hkind, hvalue, ?_⟩
    rw [hv, hu]
    simp [Position.start]
  · obtain ⟨s, c, text, hs, rfl⟩ := Split.run_eq_error_iff_reads.1 h
    rw [String.toList_ofList] at hs
    obtain ⟨t, rest, ht, hhead, hlength, -⟩ := hs.respaced hr
    obtain ⟨text', rfl⟩ := List.head?_eq_some_iff.1 hhead
    refine ⟨_, ht.run_error String.toList_ofList, rfl, ?_⟩
    rw [Split.refusalAt_start]
    exact hlength.symm

end ExprLexer

import ExprLexer.Proofs.Cursor
import ExprLexer.Proofs.Decimal.Layout

namespace ExprLexer

open Decimal (AreDigits)

namespace Source

/-- The lexers that the lexer of a source becomes: all that it ever does is to move past the next
character. -/
inductive Reaches (source : Source) : Lexer → Prop
  | start : Reaches source (.ofSource source)
  | advance {l : Lexer} : Reaches source l → l.unread ≠ [] → Reaches source l.advance

variable {source : Source}

theorem reaches_lexerAt {n : Nat} (h : n ≤ source.text.toList.length) :
    source.Reaches (source.lexerAt n) := by
  induction n with
  | zero => exact .start
  | succ n ih =>
      rw [← advance_lexerAt h]
      refine .advance (ih (Nat.le_of_succ_le h)) ?_
      rw [unread_lexerAt, Ne, List.drop_eq_nil_iff]
      omega

theorem Reaches.exists_lexerAt {l : Lexer} (h : source.Reaches l) :
    ∃ n ≤ source.text.toList.length, l = source.lexerAt n := by
  induction h with
  | start => exact ⟨0, Nat.zero_le _, source.lexerAt_zero.symm⟩
  | advance _ hunread ih =>
      obtain ⟨n, -, rfl⟩ := ih
      obtain ⟨c, rest, hc⟩ := List.exists_cons_of_ne_nil hunread
      have hn := lt_length_of_unread hc
      exact ⟨n + 1, hn, advance_lexerAt hn⟩

theorem Reaches.tokenize {l : Lexer} (h : source.Reaches l) : source.Reaches l.tokenize.2 := by
  obtain ⟨n, hn, hl⟩ := h.exists_lexerAt
  obtain ⟨m, hm, hnext⟩ := (leaves_scanAfter hl hn (List.forall_mem_nil _)).lexer
  have hcall : l.tokenize.2 = source.lexerAt m := hnext
  rw [hcall]
  exact reaches_lexerAt hm

end Source

/-- Digits, or digits with a point after the first of them or later. -/
inductive IsLiteral : List Char → Prop
  | whole {digits : List Char} : digits ≠ [] → AreDigits digits → IsLiteral digits
  | pointed {digits fraction : List Char} : digits ≠ [] → AreDigits digits → AreDigits fraction →
      IsLiteral (digits ++ '.' :: fraction)

structure IsLongestLiteral (text literal : List Char) : Prop where
  isLiteral : IsLiteral literal
  isPrefix : literal <+: text
  length_le : ∀ front, front <+: text → IsLiteral front → front.length ≤ literal.length

/-- A literal is read on over digits, and over a point if it has none. -/
def goesOn (pointed : Bool) (c : Char) : Bool := c.isDigit || c = '.' && !pointed

theorem goesOn_iff {pointed : Bool} {c : Char} :
    goesOn pointed c ↔ c.isDigit ∨ c = '.' ∧ pointed = false := by
  simp [goesOn]

namespace IsLiteral

theorem digit {c : Char} (h : c.isDigit) : IsLiteral [c] :=
  .whole (List.cons_ne_nil _ _) (by simpa [AreDigits] using h)

theorem concat {front : List Char} (h : IsLiteral front) {c : Char}
    (hc : goesOn (decide ('.' ∈ front)) c) : IsLiteral (front ++ [c]) := by
  rw [goesOn_iff, decide_eq_false_iff_not] at hc
  cases h with
  | whole hn hd =>
      rcases hc with hc | ⟨rfl, -⟩
      · exact .whole (List.append_ne_nil_of_left_ne_nil hn _)
          (hd.append (by simpa [AreDigits] using hc))
      · exact .pointed hn hd (List.forall_mem_nil _)
  | pointed hn hd hf =>
      rcases hc with hc | ⟨-, hc⟩
      · rw [List.append_assoc, List.cons_append]
        exact .pointed hn hd (hf.append (by simpa [AreDigits] using hc))
      · exact absurd (List.mem_append_right _ List.mem_cons_self) hc

theorem count_point_le {text : List Char} (h : IsLiteral text) : text.count '.' ≤ 1 := by
  cases h with
  | whole _ hd =>
      rw [List.count_eq_zero.2 (Lexeme.point_notMem_digits hd)]
      exact Nat.zero_le 1
  | pointed _ hd hf =>
      rw [List.count_append, List.count_cons_self,
        List.count_eq_zero.2 (Lexeme.point_notMem_digits hd),
        List.count_eq_zero.2 (Lexeme.point_notMem_digits hf)]

theorem isDigit_or_point {text : List Char} (h : IsLiteral text) {c : Char} (hc : c ∈ text) :
    c.isDigit ∨ c = '.' := by
  cases h with
  | whole _ hd => exact .inl (hd c hc)
  | pointed _ hd hf =>
      rw [List.mem_append, List.mem_cons] at hc
      rcases hc with hc | hc | hc
      · exact .inl (hd c hc)
      · exact .inr hc
      · exact .inl (hf c hc)

theorem goesOn_of_append {front more : List Char} {c : Char} (h : IsLiteral (front ++ c :: more)) :
    goesOn (decide ('.' ∈ front)) c := by
  have hcount := h.count_point_le
  rw [goesOn_iff, decide_eq_false_iff_not]
  refine (h.isDigit_or_point (List.mem_append_right front List.mem_cons_self)).imp_right ?_
  rintro rfl
  rw [List.count_append, List.count_cons_self] at hcount
  exact ⟨rfl, List.count_eq_zero.1 (by omega)⟩

end IsLiteral

/-- The characters taken so far, whether a point is among them, and the lexer past them. -/
structure Reading where
  taken : List Char
  pointed : Bool
  lexer : Lexer

namespace Reading

def start (l : Lexer) : Reading := ⟨[], false, l⟩

def take (r : Reading) (c : Char) : Reading :=
  ⟨r.taken ++ [c], r.pointed || c = '.', r.lexer.advance⟩

def finish (r : Reading) : Reading :=
  match _h : r.lexer.unread with
  | [] => r
  | c :: _ => if goesOn r.pointed c then (r.take c).finish else r
termination_by r.lexer.unread.length
decreasing_by simp [take, _h]

/-- What has been taken stands where the reading began, and is a literal once it is anything. -/
structure BeganAt (l : Lexer) (r : Reading) : Prop where
  unread_eq : l.unread = r.taken ++ r.lexer.unread
  position_eq : r.lexer.position = l.position.forward r.taken.length
  pointed_eq : r.pointed = decide ('.' ∈ r.taken)
  isLiteral : r.taken ≠ [] → IsLiteral r.taken

theorem beganAt_start (l : Lexer) : BeganAt l (start l) :=
  ⟨rfl, rfl, rfl, fun h => absurd rfl h⟩

section

variable {l : Lexer} (hd : ∀ c ∈ l.unread.head?, c.isDigit)
include hd

theorem BeganAt.take {r : Reading} (h : BeganAt l r) {c : Char} {rest : List Char}
    (hr : r.lexer.unread = c :: rest) (hc : goesOn r.pointed c) : BeganAt l (r.take c) := by
  have hline : some c ≠ some '\n' := by
    rcases goesOn_iff.1 hc with hdigit | ⟨rfl, -⟩
    · simpa using (Lexeme.digit_facts hdigit).2.1
    · decide
  refine ⟨?_, ?_, ?_, fun _ => ?_⟩
  · rw [h.unread_eq, hr]
    simp [Reading.take, hr]
  · simp only [Reading.take, Lexer.advance, hr, List.head?_cons, h.position_eq,
      Position.advance_of_ne _ hline]
    simp [Position.forward, Nat.add_assoc]
  · simp [Reading.take, h.pointed_eq, eq_comm]
  · by_cases hnil : r.taken = []
    · -- it is the character that the reading began at
      have hfirst : c ∈ l.unread.head? := by
        rw [h.unread_eq, hnil, hr]
        rfl
      rw [Reading.take, hnil]
      exact .digit (hd c hfirst)
    · rw [h.pointed_eq] at hc
      exact (h.isLiteral hnil).concat hc

/-- The loop keeps what each step keeps, and ends where no character goes on. -/
theorem BeganAt.finish {r : Reading} (h : BeganAt l r) : BeganAt l r.finish ∧
    ∀ c ∈ r.finish.lexer.unread.head?, goesOn r.finish.pointed c = false := by
  fun_induction Reading.finish r with
  | case1 r hr => exact ⟨h, by simp [hr]⟩
  | case2 r c rest hr hc ih => exact ih (h.take hd hr hc)
  | case3 r c rest hr hc => exact ⟨h, by simpa [hr] using hc⟩

end

section

variable {l : Lexer} {r : Reading} (h : BeganAt l r)
  (hstops : ∀ c ∈ r.lexer.unread.head?, goesOn r.pointed c = false)
include h hstops

theorem BeganAt.length_le {front : List Char} (hfront : front <+: l.unread)
    (hliteral : IsLiteral front) : front.length ≤ r.taken.length := by
  by_contra hlong
  have htaken : r.taken <+: l.unread := ⟨_, h.unread_eq.symm⟩
  obtain ⟨more, rfl⟩ := List.prefix_of_prefix_length_le htaken hfront (by omega)
  have hmore : more ≠ [] := by
    rintro rfl
    simp at hlong
  obtain ⟨c, more, rfl⟩ := List.exists_cons_of_ne_nil hmore
  have hnext : c ∈ r.lexer.unread.head? := by
    rw [h.unread_eq, List.prefix_append_right_inj] at hfront
    obtain ⟨rest, hrest⟩ := hfront
    rw [← hrest]
    rfl
  have hgoes := hliteral.goesOn_of_append
  rw [← h.pointed_eq, hstops c hnext] at hgoes
  cases hgoes

theorem BeganAt.exists_lexeme (hn : r.taken ≠ []) :
    ∃ x : Lexeme, x.value.isSome ∧ x.chars = r.taken ∧ x.EndsBefore r.lexer.unread := by
  obtain ⟨taken, pointed, next⟩ := r
  obtain rfl : pointed = decide ('.' ∈ taken) := h.pointed_eq
  cases h.isLiteral hn with
  | whole hne hd =>
      refine ⟨.whole taken hne hd, rfl, rfl, fun c hc => ?_⟩
      have hstop := hstops c hc
      simpa [goesOn, Lexeme.point_notMem_digits hd] using hstop
  | @pointed digits fraction hne hd hf =>
      refine ⟨.pointed digits fraction hne hd hf, rfl, rfl, fun c hc => ?_⟩
      have hstop := hstops c hc
      simpa [goesOn] using hstop

end

/-- A reading that begins at a digit ends with the longest literal there, and that is a lexeme. -/
theorem finish_start {l : Lexer} {c : Char} {rest : List Char} (h : l.unread = c :: rest)
    (hc : c.isDigit) : ∃ (x : Lexeme) (following : List Char), x.value.isSome ∧
      l.unread = x.chars ++ following ∧ x.EndsBefore following ∧
      IsLongestLiteral l.unread x.chars ∧
      (start l).finish =
        ⟨x.chars, decide ('.' ∈ x.chars), ⟨l.position.forward x.chars.length, following⟩⟩ := by
  have hd : ∀ d ∈ l.unread.head?, d.isDigit := by
    rw [h]
    rintro d ⟨⟩
    exact hc
  obtain ⟨hbegan, hstops⟩ := (beganAt_start l).finish hd
  have hlongest : ∀ front, front <+: l.unread → IsLiteral front →
      front.length ≤ (start l).finish.taken.length := fun _ => hbegan.length_le hstops
  have hn : (start l).finish.taken ≠ [] := by
    have hone := hlongest [c] ⟨rest, h.symm⟩ (.digit hc)
    exact List.length_pos_iff.1 hone
  obtain ⟨x, hv, hx, hend⟩ := hbegan.exists_lexeme hstops hn
  refine ⟨x, _, hv, ?_, hend, ?_, ?_⟩
  · rw [hx, ← hbegan.unread_eq]
  · rw [hx]
    exact ⟨hbegan.isLiteral hn, ⟨_, hbegan.unread_eq.symm⟩, hlongest⟩
  · rw [hx, ← hbegan.pointed_eq, ← hbegan.position_eq]

end Reading

namespace Lexeme

theorem read?_chars {x : Lexeme} (h : x.value.isSome) : Number.read? x.chars = x.value := by
  cases x with
  | symbol => cases h
  | whole digits hn hd => exact Literal.read?_digits hn hd
  | pointed digits fraction hn hd hf => exact Literal.read?_point hn hd hf

theorem kind_cases {x : Lexeme} (h : x.value.isSome) :
    x.kind = .int ∧ '.' ∉ x.chars ∧ Decimal.isNumeral x.chars ∨
      x.kind = .float ∧ '.' ∈ x.chars ∧ (Decimal.read? x.chars).isSome := by
  cases x with
  | symbol => cases h
  | whole digits hn hd =>
      exact .inl ⟨rfl, point_notMem_digits hd, Decimal.isNumeral_iff.2 ⟨hn, hd⟩⟩
  | pointed digits fraction hn hd hf =>
      have hpoint : '.' ∈ digits ++ '.' :: fraction :=
        List.mem_append_right digits List.mem_cons_self
      have hnumeral : ¬ Decimal.isNumeral (digits ++ '.' :: fraction) := fun hall =>
        point_notMem_digits (Decimal.isNumeral_iff.1 hall).2 hpoint
      have hread := Literal.read?_point hn hd hf
      rw [Number.read?, if_neg hnumeral] at hread
      obtain ⟨d, hdecimal, -⟩ := Option.map_eq_some_iff.1 hread
      exact .inr ⟨rfl, hpoint, Option.isSome_of_eq_some hdecimal⟩

end Lexeme

/-- Wherever the lexer of a source stands before a digit, the token that is taken is the longest literal
there. It is what is taken character by character, and what the text has between the ends of the span; the
lexer moves past it and no further. Without a point it is a whole number and with one a float, and either
way it is read as a number, so that no other value ever stands in. -/
theorem takeLiteral_longest {source : Source} {l : Lexer} (hl : source.Reaches l) {c : Char}
    {rest : List Char} (h : l.unread = c :: rest) (hc : c.isDigit) :
    ∃ (text : List Char) (token : Token) (next : Lexer) (value : Number),
      l.takeToken? = some (token, next) ∧ l.takeLiteral = (token, next) ∧
      Literal.longest l.unread = text ∧
      (Reading.start l).finish = ⟨text, decide ('.' ∈ text), next⟩ ∧
      IsLongestLiteral l.unread text ∧ l.unread = text ++ next.unread ∧
      token.span = ⟨l.position, next.position⟩ ∧
      (source.text.toList.take next.position.offset).drop l.position.offset = text ∧
      next.position = l.position.forward text.length ∧
      l.position.offset < next.position.offset ∧
      source.Reaches next ∧ next.unread.head? = source.text.toList[next.position.offset]? ∧
      Number.read? text = some value ∧ token.value = some value ∧
      (token.kind = .int ∧ '.' ∉ text ∧ Decimal.isNumeral text ∨
        token.kind = .float ∧ '.' ∈ text ∧ (Decimal.read? text).isSome) := by
  obtain ⟨x, following, hv, hunread, hend, hlongest, hfinish⟩ := Reading.finish_start h hc
  obtain ⟨value, hvalue⟩ := Option.isSome_iff_exists.1 hv
  have hpos := List.length_pos_iff.2 x.chars_ne_nil
  obtain ⟨n, hn, rfl⟩ := hl.exists_lexerAt
  have htake := x.takeLiteral_chars hvalue hunread hend
  have htext : Literal.longest (source.lexerAt n).unread = x.chars := by
    rw [hunread, x.longest_chars hend hv]
  obtain ⟨hle, hplaced⟩ := Source.takeLiteral_lexerAt hn htext
  have hnext : (⟨(source.lexerAt n).position.forward x.chars.length, following⟩ : Lexer) =
      source.lexerAt (n + x.chars.length) := (Prod.mk.inj (htake.symm.trans hplaced)).2
  refine ⟨x.chars, x.tokenAt _, _, value, x.takeToken?_chars hunread hend, htake, htext, hfinish,
    hlongest, hunread, rfl, ?_, rfl, Nat.lt_add_of_pos_right hpos, ?_, ?_,
    (Lexeme.read?_chars hv).trans hvalue, hvalue, Lexeme.kind_cases hv⟩
  · change (source.text.toList.take (n + x.chars.length)).drop n = x.chars
    rw [List.drop_take, Nat.add_sub_cancel_left, ← Source.unread_lexerAt, hunread, List.take_left]
  · rw [hnext]
    exact Source.reaches_lexerAt hle
  · rw [hnext, Source.unread_lexerAt, List.head?_drop]
    rfl

theorem takeLiteral_longest_second_point : ∃ l : Lexer,
    l = (Lexer.ofSource ⟨"calc", "\n7.25.5"⟩).tokenize.2 ∧ Source.Reaches ⟨"calc", "\n7.25.5"⟩ l ∧
    l.unread = ['7', '.', '2', '5', '.', '5'] ∧ '7'.isDigit ∧
    ∃ (token : Token) (next : Lexer), l.takeToken? = some (token, next) ∧ token.kind = .float ∧
      next.unread = ['.', '5'] ∧ IsLongestLiteral l.unread ['7', '.', '2', '5'] := by
  have hunread : (Lexer.ofSource ⟨"calc", "\n7.25.5"⟩).tokenize.2.unread =
      ['7', '.', '2', '5', '.', '5'] := by
    rw [Lexer.tokenize, Lexer.scan_illegal (c := '\n') rfl (by decide) rfl]
    decide
  have hl : Source.Reaches ⟨"calc", "\n7.25.5"⟩
      (Lexer.ofSource ⟨"calc", "\n7.25.5"⟩).tokenize.2 := .tokenize .start
  obtain ⟨text, token, next, value, htoken, -, htext, -, hlongest, hsplit, -, -, -, -, -, -, -, -,
    hkind⟩ := takeLiteral_longest hl hunread (by decide)
  rw [hunread] at htext hsplit
  obtain rfl : ['7', '.', '2', '5'] = text := htext
  have hleft : ['7', '.', '2', '5'] ++ ['.', '5'] = ['7', '.', '2', '5'] ++ next.unread := hsplit
  obtain ⟨-, hpoint, -⟩ | ⟨hfloat, -⟩ := hkind
  · exact absurd (by decide) hpoint
  · exact ⟨_, rfl, hl, hunread, by decide, token, next, htoken, hfloat,
      (List.append_cancel_left hleft).symm, hlongest⟩

end ExprLexer

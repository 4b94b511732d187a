import ExprLexer.Lexer.Scan
import ExprLexer.Proofs.Lexeme

namespace ExprLexer

structure Gap where
  chars : List Char
  areBlank : ∀ c ∈ chars, c = ' ' ∨ c = '\t'

theorem Gap.isBlank_of_mem (gap : Gap) {c : Char} (h : c ∈ gap.chars) : isBlank c :=
  isBlank_iff.2 (gap.areBlank c h)

def Gap.empty : Gap := ⟨[], List.forall_mem_nil _⟩

/-- Lexemes in order, each after a gap, and a gap after the last one. -/
inductive Split where
  | last (gap : Gap)
  | piece (gap : Gap) (lexeme : Lexeme) (rest : Split)

namespace Split

def chars : Split → List Char
  | last gap => gap.chars
  | piece gap lexeme rest => gap.chars ++ (lexeme.chars ++ rest.chars)

/-- No number could be longer where it stands in the text, which goes on with `following`. -/
def IsMaximal (following : List Char) : Split → Prop
  | last _ => True
  | piece _ lexeme rest => lexeme.EndsBefore (rest.chars ++ following) ∧ rest.IsMaximal following

def tokensAt : Split → Position → List Token
  | last _, _ => []
  | piece gap lexeme rest, p =>
      lexeme.tokenAt (p.forward gap.chars.length) ::
        rest.tokensAt (p.forward (gap.chars.length + lexeme.chars.length))

def refusalAt (s : Split) (p : Position) (c : Char) : LexError :=
  ⟨.illegalCharacter c, p.forward s.chars.length, (p.forward s.chars.length).advance (some c)⟩

/-- The scan that reads the split and stops before `following`. -/
def scanAt (s : Split) (p : Position) (following : List Char) : Scan :=
  match following with
  | [] => ⟨s.tokensAt p, none, ⟨p.forward s.chars.length, []⟩⟩
  | c :: rest => ⟨s.tokensAt p, some (s.refusalAt p c), ⟨(s.refusalAt p c).span.stop, rest⟩⟩

/-- The split is the front of the text, and after it stands nothing that could be read. -/
structure Reads (s : Split) (text following : List Char) : Prop where
  chars_append : text = s.chars ++ following
  maximal : s.IsMaximal following
  stops : ∀ c ∈ following.head?, isIllegal c

end Split

def Split.lone (x : Lexeme) : Split := .piece .empty x (.last .empty)

theorem isBlank_ne_newline {c : Char} (h : isBlank c) : c ≠ '\n' := by
  rintro rfl
  exact absurd h (by decide)

theorem isIllegal_head {c : Char} (hc : isIllegal c) (rest : List Char) :
    ∀ d ∈ (c :: rest).head?, isIllegal d := by
  rintro d ⟨⟩
  exact hc

theorem takeToken?_illegal {l : Lexer} {c : Char} {rest : List Char} (h : l.unread = c :: rest)
    (hc : isIllegal c) : l.takeToken? = none := by
  obtain ⟨-, hdigit, hsymbol⟩ := isIllegal_iff.1 hc
  simp only [Lexer.takeToken?, h, hdigit]
  simp [hsymbol]

theorem Lexer.scan_gap (gap : Gap) {l : Lexer} {rest : List Char}
    (h : l.unread = gap.chars ++ rest) :
    l.scan = (⟨l.position.forward gap.chars.length, rest⟩ : Lexer).scan := by
  obtain ⟨chars, areBlank⟩ := gap
  induction chars generalizing l with
  | nil => cases l; cases h; rfl
  | cons c chars ih =>
      have hc := isBlank_iff.2 (areBlank c List.mem_cons_self)
      have hp : l.position.advance (some c) = l.position.forward 1 :=
        Position.advance_of_ne _ (by simpa using isBlank_ne_newline hc)
      have hstep : l.advance = ⟨l.position.forward 1, chars ++ rest⟩ := by
        simp [advance, h, hp]
      rw [scan_blank h hc, hstep, ih (fun d hd => areBlank d (List.mem_cons_of_mem c hd)) rfl]
      simp [Nat.add_comm 1]

namespace Split

theorem scanAt_piece (gap : Gap) (x : Lexeme) (s : Split) (p : Position) (following : List Char) :
    (piece gap x s).scanAt p following =
      (s.scanAt (p.forward (gap.chars.length + x.chars.length)) following).after
        [x.tokenAt (p.forward gap.chars.length)] := by
  cases following <;> simp [scanAt, Scan.after, tokensAt, refusalAt, chars, Nat.add_assoc]

/-- A scan reads the split that stands at the cursor, and stops after it. -/
theorem Reads.scan_eq {s : Split} {l : Lexer} {following : List Char}
    (h : s.Reads l.unread following) : l.scan = s.scanAt l.position following := by
  induction s generalizing l with
  | last gap =>
      rw [Lexer.scan_gap gap h.chars_append]
      cases following with
      | nil => rw [Lexer.scan_end rfl]; rfl
      | cons c rest =>
          have hc := h.stops c rfl
          rw [Lexer.scan_illegal rfl (isIllegal_iff.1 hc).1 (takeToken?_illegal rfl hc)]
          rfl
  | piece gap x s ih =>
      obtain ⟨c, more, hc, hb, -⟩ := x.head_chars
      have hx : gap.chars ++ (x.chars ++ s.chars) ++ following =
          gap.chars ++ (x.chars ++ (s.chars ++ following)) := by simp
      rw [Lexer.scan_gap gap (h.chars_append.trans hx)]
      have htoken := x.takeToken?_chars (l := ⟨l.position.forward gap.chars.length, _⟩) rfl
        h.maximal.1
      rw [Lexer.scan_token (by rw [hc]; rfl) hb htoken, ih ⟨rfl, h.maximal.2, h.stops⟩,
        Position.forward_forward, scanAt_piece]

@[simp]
theorem chars_lone (x : Lexeme) : (lone x).chars = x.chars := List.append_nil _

theorem Reads.lone {x : Lexeme} {following : List Char} (hx : x.EndsBefore following)
    (hf : ∀ c ∈ following.head?, isIllegal c) :
    (lone x).Reads (x.chars ++ following) following :=
  ⟨by rw [chars_lone], ⟨hx, trivial⟩, hf⟩

theorem Reads.lone_all (x : Lexeme) : (Split.lone x).Reads x.chars [] := by
  have hend : x.EndsBefore [] := by cases x <;> simp [Lexeme.EndsBefore]
  have h := Reads.lone hend (by simp)
  rwa [List.append_nil] at h

theorem exists_reads (text : List Char) : ∃ (s : Split) (following : List Char),
    s.Reads text following := by
  induction hn : text.length using Nat.strongRecOn generalizing text with
  | ind n ih =>
      let gap : Gap := ⟨text.takeWhile isBlank,
        fun c hc => isBlank_iff.1 (List.all_eq_true.1 List.all_takeWhile c hc)⟩
      have hgap := List.takeWhile_append_dropWhile (p := isBlank) (l := text)
      cases hrest : text.dropWhile isBlank with
      | nil =>
          refine ⟨.last gap, [], ?_, trivial, by simp⟩
          rw [hrest] at hgap
          exact hgap.symm
      | cons c rest =>
          rw [hrest] at hgap
          have hb : isBlank c = false := by
            have := List.head?_dropWhile_not isBlank text
            simpa [hrest] using this
          by_cases hc : isIllegal c
          · exact ⟨.last gap, c :: rest, hgap.symm, trivial, by simpa using hc⟩
          · obtain ⟨x, after, hx, hend⟩ := Lexeme.exists_of_head rest hb (by simpa using hc)
            have hlength : after.length < n := by
              have htext : text.length = gap.chars.length + (c :: rest).length := by
                rw [← hgap, List.length_append]
              have hrest : (c :: rest).length = x.chars.length + after.length := by
                rw [hx, List.length_append]
              have hpos := List.length_pos_iff.2 x.chars_ne_nil
              omega
            obtain ⟨s, following, hs⟩ := ih _ hlength after rfl
            refine ⟨.piece gap x s, following, ?_, ⟨hs.chars_append ▸ hend, hs.maximal⟩, hs.stops⟩
            rw [← hgap, hx, hs.chars_append]
            simp [chars, gap]

theorem gap_unique {g h : Gap} {u v : List Char} (hu : ∀ c ∈ u.head?, isBlank c = false)
    (hv : ∀ c ∈ v.head?, isBlank c = false) (e : g.chars ++ u = h.chars ++ v) :
    g = h ∧ u = v := by
  obtain ⟨hgap, hrest⟩ := Text.front_unique (fun _ => g.isBlank_of_mem)
    (fun _ => h.isBlank_of_mem) hu hv e
  cases g
  cases h
  subst hgap
  exact ⟨rfl, hrest⟩

theorem head_not_blank (x : Lexeme) (rest : List Char) :
    ∀ c ∈ (x.chars ++ rest).head?, isBlank c = false := by
  obtain ⟨c, more, hc, hb, -⟩ := x.head_chars
  simpa [hc] using hb

theorem stops_not_blank {following : List Char} (h : ∀ c ∈ following.head?, isIllegal c) :
    ∀ c ∈ following.head?, isBlank c = false := by
  intro c hc
  exact (isIllegal_iff.1 (h c hc)).1

theorem not_stops_at_lexeme (x : Lexeme) {rest following : List Char}
    (h : ∀ c ∈ following.head?, isIllegal c) : following ≠ x.chars ++ rest := by
  obtain ⟨c, more, hc, -, hlegal⟩ := x.head_chars
  rintro rfl
  have := h c (by simp [hc])
  simp [hlegal] at this

/-- The split that a scan reads is the only one: each gap and each lexeme has just one end. -/
theorem Reads.unique {s t : Split} {text u v : List Char} (hs : s.Reads text u)
    (ht : t.Reads text v) : s = t ∧ u = v := by
  induction s generalizing t text with
  | last g =>
      cases t with
      | last h =>
          obtain ⟨rfl, rfl⟩ := gap_unique (stops_not_blank hs.stops) (stops_not_blank ht.stops)
            (hs.chars_append.symm.trans ht.chars_append)
          exact ⟨rfl, rfl⟩
      | piece h y t =>
          have e := hs.chars_append.symm.trans ht.chars_append
          rw [chars, chars, List.append_assoc, List.append_assoc] at e
          have := (gap_unique (stops_not_blank hs.stops) (head_not_blank y _) e).2
          exact absurd this (not_stops_at_lexeme y hs.stops)
  | piece g x s ih =>
      cases t with
      | last h =>
          have e := ht.chars_append.symm.trans hs.chars_append
          rw [chars, chars, List.append_assoc, List.append_assoc] at e
          have := (gap_unique (stops_not_blank ht.stops) (head_not_blank x _) e).2
          exact absurd this (not_stops_at_lexeme x ht.stops)
      | piece h y t =>
          have e := hs.chars_append.symm.trans ht.chars_append
          rw [chars, chars, List.append_assoc, List.append_assoc, List.append_assoc,
            List.append_assoc] at e
          obtain ⟨rfl, hx⟩ := gap_unique (head_not_blank x _) (head_not_blank y _) e
          obtain ⟨rfl, hrest⟩ := Lexeme.unique hs.maximal.1 ht.maximal.1 hx
          obtain ⟨rfl, rfl⟩ := ih ⟨rfl, hs.maximal.2, hs.stops⟩ ⟨hrest, ht.maximal.2, ht.stops⟩
          exact ⟨rfl, rfl⟩

end Split
end ExprLexer

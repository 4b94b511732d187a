import ExprLexer.Lexer.Basic
import Mathlib.Data.List.Basic

namespace ExprLexer

namespace Position

def forward (p : Position) (n : Nat) : Position := ⟨p.offset + n, p.line, p.column + n, p.source⟩

@[simp]
theorem forward_forward (p : Position) (m n : Nat) :
    (p.forward m).forward n = p.forward (m + n) := by
  simp [forward, Nat.add_assoc]

@[simp]
theorem offset_forward (p : Position) (n : Nat) : (p.forward n).offset = p.offset + n := rfl

end Position

theorem Lexer.advanceBy_within_line {l : Lexer} {passed rest : List Char}
    (h : l.unread = passed ++ rest) (hn : '\n' ∉ passed) :
    l.advanceBy passed.length = ⟨l.position.forward passed.length, rest⟩ := by
  induction passed generalizing l with
  | nil => cases l; cases h; rfl
  | cons c passed ih =>
      rw [List.mem_cons, not_or] at hn
      have hc : l.position.advance (some c) = l.position.forward 1 :=
        Position.advance_of_ne _ (by simpa using Ne.symm hn.1)
      have hstep : l.advance.unread = passed ++ rest := by simp [h]
      rw [List.length_cons, advanceBy, ih hstep hn.2]
      simp [advance, h, hc, Nat.add_comm 1]

/-- The symbols, each with the kind of its tokens. -/
def symbolKinds : List (Char × Kind) :=
  [('+', .plus), ('-', .minus), ('*', .star), ('/', .divide), ('(', .leftParen), (')', .rightParen)]

/-- A symbol, digits, or digits with a point after the first of them or later. -/
inductive Lexeme where
  | symbol (c : Char) (kind : Kind) (names : (c, kind) ∈ symbolKinds)
  | whole (digits : List Char) (nonempty : digits ≠ []) (areDigits : ∀ c ∈ digits, c.isDigit)
  | pointed (digits fraction : List Char) (nonempty : digits ≠ [])
      (areDigits : ∀ c ∈ digits, c.isDigit) (fractionDigits : ∀ c ∈ fraction, c.isDigit)

theorem Kind.ofSymbol?_eq_some_iff {c : Char} {kind : Kind} :
    ofSymbol? c = some kind ↔ (c, kind) ∈ symbolKinds := by
  rw [ofSymbol?.eq_def, symbolKinds]
  split <;> simp_all [eq_comm]

theorem isBlank_iff {c : Char} : isBlank c ↔ c = ' ' ∨ c = '\t' := by
  rw [isBlank, Bool.or_eq_true, decide_eq_true_eq, decide_eq_true_eq]

def isIllegal (c : Char) : Bool := !isBlank c && !c.isDigit && (Kind.ofSymbol? c).isNone

theorem isIllegal_iff {c : Char} :
    isIllegal c ↔ isBlank c = false ∧ c.isDigit = false ∧ Kind.ofSymbol? c = none := by
  simp [isIllegal, and_assoc]

namespace Lexeme

def chars : Lexeme → List Char
  | symbol c _ _ => [c]
  | whole digits _ _ => digits
  | pointed digits fraction _ _ _ => digits ++ '.' :: fraction

def kind : Lexeme → Kind
  | symbol _ kind _ => kind
  | whole _ _ _ => .int
  | pointed _ _ _ _ _ => .float

def value : Lexeme → Option Number
  | symbol _ _ _ => none
  | whole digits _ _ => some (.int (Nat.ofDigitChars 10 digits 0))
  | pointed digits fraction _ _ _ => some (.float (Binary64.ofDecimal
      ⟨false, Nat.ofDigitChars 10 (digits ++ fraction) 0, -fraction.length⟩))

def tokenAt (x : Lexeme) (p : Position) : Token :=
  ⟨x.kind, x.value, ⟨p, p.forward x.chars.length⟩⟩

/-- What follows in the text does not make the lexeme longer. -/
def EndsBefore (rest : List Char) : Lexeme → Prop
  | symbol _ _ _ => True
  | whole _ _ _ => ∀ c ∈ rest.head?, c.isDigit = false ∧ c ≠ '.'
  | pointed _ _ _ _ _ => ∀ c ∈ rest.head?, c.isDigit = false

theorem symbol_facts {c : Char} {kind : Kind} (names : (c, kind) ∈ symbolKinds) :
    isBlank c = false ∧ c.isDigit = false ∧ c ≠ '\n' := by
  have all : ∀ x ∈ symbolKinds, isBlank x.1 = false ∧ x.1.isDigit = false ∧ x.1 ≠ '\n' := by
    simp [symbolKinds, isBlank]
  exact all _ names

theorem digit_facts {c : Char} (h : c.isDigit) : isBlank c = false ∧ c ≠ '\n' ∧ c ≠ '.' := by
  refine ⟨?_, ?_, ?_⟩
  · rw [isBlank, Bool.or_eq_false_iff]
    constructor <;> exact decide_eq_false (by rintro rfl; exact absurd h (by decide))
  · rintro rfl; exact absurd h (by decide)
  · rintro rfl; exact absurd h (by decide)

theorem chars_ne_nil (x : Lexeme) : x.chars ≠ [] := by
  cases x <;> simp_all [chars]

theorem printed_of_mem_chars (x : Lexeme) {c : Char} (h : c ∈ x.chars) :
    isBlank c = false ∧ c ≠ '\n' := by
  have digit {d : Char} (hd : d.isDigit) : isBlank d = false ∧ d ≠ '\n' :=
    ⟨(digit_facts hd).1, (digit_facts hd).2.1⟩
  cases x with
  | symbol s kind names =>
      obtain rfl : c = s := List.mem_singleton.1 h
      exact ⟨(symbol_facts names).1, (symbol_facts names).2.2⟩
  | whole digits _ areDigits => exact digit (areDigits c h)
  | pointed digits fraction _ areDigits fractionDigits =>
      rcases List.mem_append.1 h with h | h
      · exact digit (areDigits c h)
      · rcases List.mem_cons.1 h with rfl | h
        · decide
        · exact digit (fractionDigits c h)

theorem newline_notMem_chars (x : Lexeme) : '\n' ∉ x.chars := fun h =>
  (x.printed_of_mem_chars h).2 rfl

theorem head_chars (x : Lexeme) : ∃ c rest, x.chars = c :: rest ∧ isBlank c = false ∧
    isIllegal c = false := by
  cases x with
  | symbol c kind names =>
      have hkind := Kind.ofSymbol?_eq_some_iff.2 names
      exact ⟨c, [], rfl, (symbol_facts names).1, by simp [isIllegal, hkind]⟩
  | whole digits nonempty areDigits =>
      obtain ⟨d, digits, rfl⟩ := List.exists_cons_of_ne_nil nonempty
      have hd := areDigits d List.mem_cons_self
      exact ⟨d, digits, rfl, (digit_facts hd).1, by simp [isIllegal, hd]⟩
  | pointed digits fraction nonempty areDigits _ =>
      obtain ⟨d, digits, rfl⟩ := List.exists_cons_of_ne_nil nonempty
      have hd := areDigits d List.mem_cons_self
      exact ⟨d, digits ++ '.' :: fraction, rfl, (digit_facts hd).1, by simp [isIllegal, hd]⟩

theorem longest_chars (x : Lexeme) {rest : List Char} (hx : x.EndsBefore rest)
    (hn : x.value.isSome) : Literal.longest (x.chars ++ rest) = x.chars := by
  cases x with
  | symbol => cases hn
  | whole digits _ areDigits =>
      have hs := Text.split_front areDigits rest fun c hc => (hx c hc).1
      simp only [chars, Literal.longest, hs]
      split
      · exact absurd rfl (hx '.' rfl).2
      · rfl
  | pointed digits fraction _ areDigits fractionDigits =>
      have hs := Text.split_front areDigits ('.' :: fraction ++ rest) (by simp)
      have hf := Text.split_front fractionDigits rest hx
      simp only [chars, Literal.longest, List.append_assoc, hs]
      rw [List.cons_append]
      simp only [hf]

theorem value_chars (x : Lexeme) {n : Number} (h : x.value = some n) :
    Literal.value x.chars = n := by
  cases x with
  | symbol => cases h
  | whole digits nonempty areDigits =>
      obtain rfl := Option.some.inj h
      simp only [chars, Literal.value, Literal.read?_digits nonempty areDigits, Option.getD_some,
        Decimal.ofNumeral]
  | pointed digits fraction nonempty areDigits fractionDigits =>
      obtain rfl := Option.some.inj h
      simp only [chars, Literal.value, Literal.read?_point nonempty areDigits fractionDigits,
        Option.getD_some, Decimal.ofNumeral]

theorem literal_tokenAt (x : Lexeme) {n : Number} (h : x.value = some n) (p : Position) :
    Token.literal n ⟨p, p.forward x.chars.length⟩ = x.tokenAt p := by
  cases x with
  | symbol => cases h
  | whole => obtain rfl := Option.some.inj h; rfl
  | pointed => obtain rfl := Option.some.inj h; rfl

theorem head_number (x : Lexeme) {n : Number} (h : x.value = some n) :
    ∃ c rest, x.chars = c :: rest ∧ c.isDigit := by
  cases x with
  | symbol => cases h
  | whole digits nonempty areDigits =>
      obtain ⟨d, digits, rfl⟩ := List.exists_cons_of_ne_nil nonempty
      exact ⟨d, digits, rfl, areDigits d List.mem_cons_self⟩
  | pointed digits fraction nonempty areDigits _ =>
      obtain ⟨d, digits, rfl⟩ := List.exists_cons_of_ne_nil nonempty
      exact ⟨d, digits ++ '.' :: fraction, rfl, areDigits d List.mem_cons_self⟩

theorem takeLiteral_chars (x : Lexeme) {n : Number} (hv : x.value = some n) {l : Lexer}
    {rest : List Char} (h : l.unread = x.chars ++ rest) (hx : x.EndsBefore rest) :
    l.takeLiteral = (x.tokenAt l.position, ⟨l.position.forward x.chars.length, rest⟩) := by
  have hlong : Literal.longest l.unread = x.chars := by
    rw [h]
    exact x.longest_chars hx (by simp [hv])
  simp only [Lexer.takeLiteral, hlong, x.value_chars hv, Lexer.spanTo,
    Lexer.advanceBy_within_line h x.newline_notMem_chars, x.literal_tokenAt hv]

/-- The reader of tokens takes a lexeme that stands at the cursor, all of it and nothing else. -/
theorem takeToken?_chars (x : Lexeme) {l : Lexer} {rest : List Char}
    (h : l.unread = x.chars ++ rest) (hx : x.EndsBefore rest) :
    l.takeToken? =
      some (x.tokenAt l.position, ⟨l.position.forward x.chars.length, rest⟩) := by
  cases hv : x.value with
  | some n =>
      obtain ⟨c, more, hc, hd⟩ := x.head_number hv
      have hl : l.unread = c :: (more ++ rest) := by rw [h, hc, List.cons_append]
      simp only [Lexer.takeToken?, hl, hd, if_true, x.takeLiteral_chars hv h hx]
  | none =>
      cases x with
      | symbol c k names =>
          have hl : l.unread = c :: rest := h
          have hline : '\n' ∉ [c] := by simpa using (symbol_facts names).2.2.symm
          have hnext : l.advance = ⟨l.position.forward 1, rest⟩ :=
            Lexer.advanceBy_within_line hl hline
          simp only [Lexer.takeToken?, hl, (symbol_facts names).2.1,
            Kind.ofSymbol?_eq_some_iff.2 names, Option.map_some, Lexer.takeSymbol, Lexer.spanTo,
            hnext]
          rfl
      | whole => cases hv
      | pointed => cases hv

theorem exists_of_head {c : Char} (text : List Char) (hb : isBlank c = false)
    (hc : isIllegal c = false) :
    ∃ (x : Lexeme) (rest : List Char), c :: text = x.chars ++ rest ∧ x.EndsBefore rest := by
  by_cases hd : c.isDigit
  · have whole : ∀ d ∈ (c :: text).takeWhile Char.isDigit, d.isDigit := fun d =>
      List.all_eq_true.1 List.all_takeWhile d
    have nonempty : (c :: text).takeWhile Char.isDigit ≠ [] := by simp [hd]
    have hsplit := List.takeWhile_append_dropWhile (p := Char.isDigit) (l := c :: text)
    cases hrest : (c :: text).dropWhile Char.isDigit with
    | nil =>
        refine ⟨.whole _ nonempty whole, [], ?_, by simp [EndsBefore]⟩
        rw [hrest] at hsplit
        exact hsplit.symm
    | cons e rest =>
        have he : e.isDigit = false := by
          have := List.head?_dropWhile_not Char.isDigit (c :: text)
          simpa [hrest] using this
        by_cases hp : e = '.'
        · subst hp
          refine ⟨.pointed _ (rest.takeWhile Char.isDigit) nonempty whole
            (fun d => List.all_eq_true.1 List.all_takeWhile d), rest.dropWhile Char.isDigit, ?_, ?_⟩
          · rw [chars, List.append_assoc, List.cons_append, List.takeWhile_append_dropWhile,
              ← hrest, hsplit]
          · intro d hd
            have := List.head?_dropWhile_not Char.isDigit rest
            rw [Option.mem_def.1 hd] at this
            simpa using this
        · refine ⟨.whole _ nonempty whole, e :: rest, ?_, ?_⟩
          · rw [chars, ← hrest, hsplit]
          · intro d hd
            obtain rfl : e = d := by simpa using hd
            exact ⟨he, hp⟩
  · have hsymbol : (Kind.ofSymbol? c).isSome := by simpa [isIllegal, hb, hd] using hc
    obtain ⟨kind, hkind⟩ := Option.isSome_iff_exists.1 hsymbol
    exact ⟨.symbol c kind (Kind.ofSymbol?_eq_some_iff.1 hkind), text, rfl, trivial⟩

theorem symbol_chars_ne_number {c : Char} {k : Kind} (names : (c, k) ∈ symbolKinds)
    {y : Lexeme} {n : Number} (hy : y.value = some n) : [c] ≠ y.chars := by
  obtain ⟨d, rest, hd, hdigit⟩ := y.head_number hy
  rw [hd]
  intro h
  rw [← (List.cons.inj h).1, (symbol_facts names).2.1] at hdigit
  cases hdigit

theorem point_notMem_digits {digits : List Char} (h : ∀ c ∈ digits, c.isDigit) : '.' ∉ digits :=
  fun hp => (digit_facts (h '.' hp)).2.2 rfl

theorem digits_point_unique {a b u v : List Char} (ha : ∀ c ∈ a, c.isDigit)
    (hb : ∀ c ∈ b, c.isDigit) (h : a ++ '.' :: u = b ++ '.' :: v) : a = b ∧ u = v := by
  obtain ⟨hwhole, hrest⟩ := Text.front_unique ha hb (by simp) (by simp) h
  exact ⟨hwhole, (List.cons.inj hrest).2⟩

theorem symbol_kind_unique {c : Char} {k m : Kind} (names : (c, k) ∈ symbolKinds)
    (names' : (c, m) ∈ symbolKinds) : k = m :=
  Option.some.inj ((Kind.ofSymbol?_eq_some_iff.2 names).symm.trans
    (Kind.ofSymbol?_eq_some_iff.2 names'))

theorem chars_injective {x y : Lexeme} (h : x.chars = y.chars) : x = y := by
  cases x with
  | symbol c k names =>
      cases y with
      | symbol d m names' =>
          obtain rfl := (List.cons.inj h).1
          obtain rfl := symbol_kind_unique names names'
          rfl
      | whole | pointed => exact absurd h (symbol_chars_ne_number names rfl)
  | whole digits nonempty areDigits =>
      cases y with
      | symbol d m names => exact absurd h.symm (symbol_chars_ne_number names rfl)
      | whole digits' _ _ =>
          obtain rfl : digits = digits' := h
          rfl
      | pointed digits' fraction =>
          have h : digits = digits' ++ '.' :: fraction := h
          exact absurd (by simp [h]) (point_notMem_digits areDigits)
  | pointed digits fraction nonempty areDigits fractionDigits =>
      cases y with
      | symbol d m names => exact absurd h.symm (symbol_chars_ne_number names rfl)
      | whole digits' _ areDigits' =>
          have h : digits ++ '.' :: fraction = digits' := h
          exact absurd (by simp [← h]) (point_notMem_digits areDigits')
      | pointed digits' fraction' _ areDigits' _ =>
          obtain ⟨rfl, rfl⟩ := digits_point_unique areDigits areDigits' h
          rfl

/-- What the reader of tokens leaves of a text tells which lexeme stood in front. -/
theorem unique {x y : Lexeme} {u v : List Char} (hx : x.EndsBefore u) (hy : y.EndsBefore v)
    (h : x.chars ++ u = y.chars ++ v) : x = y ∧ u = v := by
  let l : Lexer := ⟨.start ⟨"", ""⟩, x.chars ++ u⟩
  have hu := x.takeToken?_chars (l := l) rfl hx
  have hv := y.takeToken?_chars (l := l) h hy
  have hnext := (Prod.mk.inj (Option.some.inj (hu.symm.trans hv))).2
  obtain rfl : u = v := congrArg Lexer.unread hnext
  exact ⟨chars_injective (List.append_cancel_right h), rfl⟩

end Lexeme
end ExprLexer

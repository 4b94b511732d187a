import ExprLexer.Lexer.Basic

namespace ExprLexer

abbrev Outcome := Except LexError (List Token)

namespace Outcome

/-- Tokens are compared by kind, value and span. -/
def agrees : Outcome → Outcome → Bool
  | .ok a, .ok b => a == b
  | .error a, .error b => a == b
  | _, _ => false

end Outcome

structure Scan where
  tokens : List Token
  error? : Option LexError
  lexer : Lexer

namespace Scan

/-- A refused text has no tokens, even if some were read. -/
def outcome (s : Scan) : Outcome :=
  match s.error? with
  | none => .ok s.tokens
  | some e => .error e

def after (s : Scan) (earlier : List Token) : Scan :=
  ⟨earlier.reverse ++ s.tokens, s.error?, s.lexer⟩

end Scan

namespace Lexer

/-- Scans on, after the tokens read so far, last one first. -/
def scanAfter (tokens : List Token) (l : Lexer) : Scan :=
  match _h : l.unread with
  | [] => ⟨tokens.reverse, none, l⟩
  | c :: _ =>
      if isBlank c then l.advance.scanAfter tokens
      else match _ht : l.takeToken? with
        | some (token, next) => next.scanAfter (token :: tokens)
        | none => ⟨tokens.reverse, some (l.refuse c), l.advance⟩
termination_by l.unread.length
decreasing_by
  · simp [_h]
  · exact takeToken?_shrinks _ht

def scan (l : Lexer) : Scan := l.scanAfter []

def tokenize (l : Lexer) : Outcome × Lexer := (l.scan.outcome, l.scan.lexer)

theorem scanAfter_end (tokens : List Token) {l : Lexer} (h : l.unread = []) :
    l.scanAfter tokens = ⟨tokens.reverse, none, l⟩ := by
  rw [scanAfter]
  split <;> simp_all

theorem scanAfter_blank (tokens : List Token) {l : Lexer} {c : Char} {rest : List Char}
    (h : l.unread = c :: rest) (hc : isBlank c) :
    l.scanAfter tokens = l.advance.scanAfter tokens := by
  rw [scanAfter]
  split <;> simp_all

theorem scanAfter_token (tokens : List Token) {l next : Lexer} {c : Char} {rest : List Char}
    {token : Token} (h : l.unread = c :: rest) (hc : isBlank c = false)
    (ht : l.takeToken? = some (token, next)) :
    l.scanAfter tokens = next.scanAfter (token :: tokens) := by
  rw [scanAfter]
  split
  · simp_all
  · split
    · simp_all
    · split <;> simp_all

theorem scanAfter_illegal (tokens : List Token) {l : Lexer} {c : Char} {rest : List Char}
    (h : l.unread = c :: rest) (hc : isBlank c = false) (ht : l.takeToken? = none) :
    l.scanAfter tokens = ⟨tokens.reverse, some (l.refuse c), l.advance⟩ := by
  rw [scanAfter]
  split
  · simp_all
  · split
    · simp_all
    · split <;> simp_all

theorem scanAfter_append (tokens earlier : List Token) (l : Lexer) :
    l.scanAfter (tokens ++ earlier) = (l.scanAfter tokens).after earlier := by
  fun_induction scanAfter tokens l with
  | case1 tokens l h => simp [scanAfter_end _ h, Scan.after]
  | case2 tokens l c rest h hc ih => rw [scanAfter_blank _ h hc, ih]
  | case3 tokens l c rest h hc token next ht ih =>
      rw [scanAfter_token _ h (by simpa using hc) ht, ← ih, List.cons_append]
  | case4 tokens l c rest h hc ht =>
      simp [scanAfter_illegal _ h (by simpa using hc) ht, Scan.after]

theorem scan_end {l : Lexer} (h : l.unread = []) : l.scan = ⟨[], none, l⟩ :=
  scanAfter_end [] h

theorem scan_blank {l : Lexer} {c : Char} {rest : List Char} (h : l.unread = c :: rest)
    (hc : isBlank c) : l.scan = l.advance.scan :=
  scanAfter_blank [] h hc

theorem scan_token {l next : Lexer} {c : Char} {rest : List Char} {token : Token}
    (h : l.unread = c :: rest) (hc : isBlank c = false) (ht : l.takeToken? = some (token, next)) :
    l.scan = next.scan.after [token] :=
  (scanAfter_token [] h hc ht).trans (scanAfter_append [] [token] next)

theorem scan_illegal {l : Lexer} {c : Char} {rest : List Char} (h : l.unread = c :: rest)
    (hc : isBlank c = false) (ht : l.takeToken? = none) :
    l.scan = ⟨[], some (l.refuse c), l.advance⟩ :=
  scanAfter_illegal [] h hc ht

end Lexer

def run (source : Source) : Outcome := (Lexer.ofSource source).scan.outcome

def Source.defaultName : String := "<stdin>"

def tokenize (text : String) : Outcome := run ⟨Source.defaultName, text⟩

end ExprLexer

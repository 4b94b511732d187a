import ExprLexer.Lexer.Scan

namespace ExprLexer

structure Session where
  lexers : List Lexer
  saved : List Position

namespace Session

/-- All but `create` name a lexer by its index in order of creation. -/
inductive Command where
  | create (source : Source)
  | tokenize (lexer : Nat)
  | position (lexer : Nat)
  | save (lexer : Nat)
  | compare (lexer : Nat)

inductive Reply where
  | created (position : Position)
  | tokenized (outcome : Outcome) (position : Position)
  | position (position : Position)
  | saved (positions : List Position)
  | compared (positions : List Position) (equal : List Bool)
  | noLexer

def empty : Session := ⟨[], []⟩

def perform (s : Session) : Command → Session × Reply
  | .create source =>
      let l := Lexer.ofSource source
      (⟨s.lexers ++ [l], s.saved⟩, .created l.position)
  | .tokenize i =>
      match s.lexers[i]? with
      | none => (s, .noLexer)
      | some l =>
          let (outcome, next) := l.tokenize
          (⟨s.lexers.set i next, s.saved⟩, .tokenized outcome next.position)
  | .position i =>
      match s.lexers[i]? with
      | none => (s, .noLexer)
      | some l => (s, .position l.position)
  | .save i =>
      match s.lexers[i]? with
      | none => (s, .noLexer)
      | some l => (⟨s.lexers, s.saved ++ [l.position]⟩, .saved (s.saved ++ [l.position]))
  | .compare i =>
      match s.lexers[i]? with
      | none => (s, .noLexer)
      | some l => (s, .compared s.saved (s.saved.map (· == l.position)))

def performAll (s : Session) : List Command → List Reply
  | [] => []
  | c :: rest => (s.perform c).2 :: (s.perform c).1.performAll rest

end Session
end ExprLexer

import ExprLexer.Lexer.Scan
import ExprLexer.Text.Quoted

namespace ExprLexer.Trace

inductive Level where
  | error
  | warn
  | info
  | debug
  | trace
deriving DecidableEq

namespace Level

def rank : Level → Nat
  | error => 0
  | warn => 1
  | info => 2
  | debug => 3
  | trace => 4

def admits (limit level : Level) : Bool := level.rank ≤ limit.rank

def tag : Level → String
  | error => "ERROR"
  | warn => "WARN"
  | info => "INFO"
  | debug => "DEBUG"
  | trace => "TRACE"

def ofName? : String → Option Level
  | "error" => some error
  | "warn" => some warn
  | "info" => some info
  | "debug" => some debug
  | "trace" => some trace
  | _ => none

end Level

/-- A value is a number, a text shown as it is, or a text shown in quotes. -/
inductive FieldValue where
  | count (n : Nat)
  | plain (text : String)
  | quoted (text : String)
deriving DecidableEq

abbrev Fields := List (String × FieldValue)

inductive Activity where
  | run (source : Source)
  | tokenize (source : Source)
deriving DecidableEq

namespace Activity

def name : Activity → String
  | run _ => "run"
  | tokenize _ => "tokenize"

def target : Activity → String
  | run _ => "arith_lex"
  | tokenize _ => "arith_lex::lexer"

/-- A run tells the length of its text in bytes, and scanning tells it in characters. -/
def fields : Activity → Fields
  | run source =>
      [("source_name", .quoted source.name), ("len", .count source.text.utf8ByteSize)]
  | tokenize source =>
      [("source", .plain source.name), ("len", .count source.text.toList.length)]

end Activity

inductive Event where
  | token (token : Token)
  | tokenized (count : Nat)
  | illegalCharacter (c : Char) (position : Position)

namespace Event

def message : Event → String
  | token _ => "token"
  | tokenized _ => "tokenized"
  | illegalCharacter _ _ => "illegal character"

def level : Event → Level
  | token _ => .trace
  | _ => .debug

def target (_ : Event) : String := "arith_lex::lexer"

def fields : Event → Fields
  | token t => [("token", .plain t.toText), ("offset", .count t.span.start.offset)]
  | tokenized n => [("count", .count n)]
  | illegalCharacter c p =>
      [("ch", .plain (Text.quoteChar c)), ("offset", .count p.offset), ("line", .count p.line)]

end Event

/-- An activity is announced before it is entered. -/
inductive Entry where
  | opened (activity : Activity)
  | entered (activity : Activity)
  | exited (activity : Activity)
  | event (event : Event)

namespace Entry

def level : Entry → Level
  | event e => e.level
  | _ => .debug

end Entry

def within (activity : Activity) (inner : List Entry) : List Entry :=
  .opened activity :: .entered activity :: inner ++ [.exited activity]

def visible (limit : Level) (entries : List Entry) : List Entry :=
  entries.filter fun e => limit.admits e.level

end Trace

namespace Scan

def closing (s : Scan) : Trace.Event :=
  match s.error? with
  | none => .tokenized s.tokens.length
  | some ⟨.illegalCharacter c, span⟩ => .illegalCharacter c span.start

/-- The tokens read are told even if the text is refused. -/
def events (s : Scan) : List Trace.Event := s.tokens.map .token ++ [s.closing]

end Scan

namespace Lexer

def trace (l : Lexer) : List Trace.Entry :=
  Trace.within (.tokenize l.position.source) (l.scan.events.map .event)

def traceTimes (l : Lexer) : Nat → List Trace.Entry
  | 0 => []
  | n + 1 => l.trace ++ l.scan.lexer.traceTimes n

end Lexer

def traceRun (source : Source) : List Trace.Entry :=
  Trace.within (.run source) (Lexer.ofSource source).trace

end ExprLexer

import ExprLexer.Position

namespace ExprLexer

inductive Cause where
  | illegalCharacter (c : Char)
deriving DecidableEq

namespace Cause

def category : Cause → String
  | illegalCharacter _ => "Illegal character"

def detail : Cause → String
  | illegalCharacter c => "'" ++ String.singleton c ++ "'"

def toText (cause : Cause) : String := cause.category ++ ": " ++ cause.detail

end Cause

structure LexError where
  cause : Cause
  span : Span
deriving DecidableEq

namespace LexError

/-- Lines and columns are told from one on. -/
def message (e : LexError) : String :=
  e.cause.toText ++ " in " ++ e.span.start.source.name ++
    ", line " ++ Nat.repr (e.span.start.line + 1) ++
    ", column " ++ Nat.repr (e.span.start.column + 1)

def compactText (e : LexError) : String :=
  e.cause.category ++ ":" ++ e.cause.detail ++ "Filename " ++ e.span.start.source.name ++
    ", line" ++ Nat.repr (e.span.start.line + 1)

end LexError
end ExprLexer

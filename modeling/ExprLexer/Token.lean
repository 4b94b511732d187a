import ExprLexer.Number
import ExprLexer.Position

namespace ExprLexer

inductive Kind where
  | int
  | float
  | plus
  | minus
  | star
  | divide
  | leftParen
  | rightParen
deriving DecidableEq

namespace Kind

def tag : Kind → String
  | int => "INT"
  | float => "FLOAT"
  | plus => "PLUS"
  | minus => "MINUS"
  | star => "STAR"
  | divide => "DIVIDE"
  | leftParen => "LPAREN"
  | rightParen => "RPAREN"

def ofSymbol? : Char → Option Kind
  | '+' => some plus
  | '-' => some minus
  | '*' => some star
  | '/' => some divide
  | '(' => some leftParen
  | ')' => some rightParen
  | _ => none

end Kind

structure Token where
  kind : Kind
  value : Option Number
  span : Span
deriving BEq

namespace Token

def symbol (kind : Kind) (span : Span) : Token := ⟨kind, none, span⟩

def literal (value : Number) (span : Span) : Token :=
  match value with
  | .int _ => ⟨.int, some value, span⟩
  | .float _ => ⟨.float, some value, span⟩

def toText (t : Token) : String :=
  match t.value with
  | none => t.kind.tag
  | some value => t.kind.tag ++ ":" ++ value.toText

def listText (tokens : List Token) : String :=
  "[" ++ String.intercalate ", " (tokens.map toText) ++ "]"

end Token
end ExprLexer

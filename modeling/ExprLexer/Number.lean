import ExprLexer.Binary64.Shortest

namespace ExprLexer

inductive Number where
  | int (value : Nat)
  | float (value : Binary64)
deriving DecidableEq

namespace Number

/-- Whole numbers and floats are never equal, and floats are compared numerically. -/
instance : BEq Number where
  beq
    | int a, int b => a == b
    | float a, float b => a == b
    | _, _ => false

def write : Number → List Char
  | int n => Nat.toDigits 10 n
  | float x => x.write

def toText (n : Number) : String := String.ofList n.write

/-- Digits alone are a whole number; any other decimal is rounded to 64 bits. -/
def read? (text : List Char) : Option Number :=
  if Decimal.isNumeral text then some (int (Decimal.ofNumeral text))
  else (Decimal.read? text).map fun d => float (Binary64.ofDecimal d)

end Number
end ExprLexer

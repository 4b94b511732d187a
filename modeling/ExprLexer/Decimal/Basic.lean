import ExprLexer.Fraction

namespace ExprLexer

structure Decimal where
  negative : Bool
  coefficient : Nat
  exponent : Int
deriving DecidableEq

namespace Decimal

def toFraction (d : Decimal) : Fraction := (Fraction.ofNat d.coefficient).scale 10 d.exponent

def digits (d : Decimal) : List Char :=
  ((Nat.toDigits 10 d.coefficient).reverse.dropWhile (· = '0')).reverse

def leadingExponent (d : Decimal) : Int :=
  if d.coefficient = 0 then 0
  else d.exponent + (Nat.toDigits 10 d.coefficient).length - 1

end Decimal
end ExprLexer

import ExprLexer.Fraction

namespace ExprLexer

structure Binary64 where
  bits : UInt64
deriving DecidableEq

namespace Binary64

def binade : Nat := 0x10000000000000

def signUnit : Nat := 0x8000000000000000

def infinity : Nat := 0x7FF0000000000000

def ofParts (negative : Bool) (magnitude : Nat) : Binary64 :=
  ⟨UInt64.ofNat (if negative then signUnit + magnitude else magnitude)⟩

def isNegative (x : Binary64) : Bool := signUnit ≤ x.bits.toNat

def magnitude (x : Binary64) : Nat := x.bits.toNat % signUnit

def isFinite (x : Binary64) : Bool := x.magnitude < infinity

def isInfinite (x : Binary64) : Bool := x.magnitude = infinity

def isNaN (x : Binary64) : Bool := infinity < x.magnitude

def significand (x : Binary64) : Nat :=
  if x.magnitude < binade then x.magnitude else binade + x.magnitude % binade

def scale (x : Binary64) : Int := max (x.magnitude / binade) 1 - 1075

def toFraction (x : Binary64) : Fraction := (Fraction.ofNat x.significand).scale 2 x.scale

/-- Numerical equality: a NaN equals nothing, and both zeros are equal. -/
instance : BEq Binary64 where
  beq x y := !x.isNaN && !y.isNaN && (x.bits == y.bits || (x.magnitude == 0 && y.magnitude == 0))

end Binary64
end ExprLexer

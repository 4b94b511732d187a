namespace ExprLexer

structure Fraction where
  num : Nat
  den : Nat

namespace Fraction

def ofNat (n : Nat) : Fraction := ⟨n, 1⟩

def scale (f : Fraction) (base : Nat) : Int → Fraction
  | .ofNat e => ⟨f.num * base.pow e, f.den⟩
  | .negSucc e => ⟨f.num, f.den * base.pow (e + 1)⟩

def floor (f : Fraction) : Nat := f.num / f.den

def remainder (f : Fraction) : Ordering := compare (2 * (f.num % f.den)) f.den

/-- The nearest whole number, and of two equally near ones the even one. -/
def roundHalfEven (f : Fraction) : Nat :=
  match f.remainder with
  | .lt => f.floor
  | .eq => f.floor + f.floor % 2
  | .gt => f.floor + 1

/-- The greatest `e` such that the power `e` of a base is at most `f`, for a positive `f`.
`log` is the same function on positive whole numbers. -/
def floorLog (log : Nat → Nat) (f : Fraction) : Int :=
  if f.den ≤ f.num then log (f.num / f.den) else -log ((f.den - 1) / f.num) - 1

def log2 (f : Fraction) : Int := f.floorLog Nat.log2

def log10 (f : Fraction) : Int := f.floorLog fun n => (Nat.toDigits 10 n).length - 1

theorem den_scale_pos {f : Fraction} {base : Nat} (hf : 0 < f.den) (hb : 0 < base) (e : Int) :
    0 < (f.scale base e).den := by
  cases e with
  | ofNat e => exact hf
  | negSucc e => exact Nat.mul_pos hf (Nat.pow_pos hb)

end Fraction
end ExprLexer

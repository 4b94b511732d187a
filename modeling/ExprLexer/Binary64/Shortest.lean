import ExprLexer.Binary64.Rounding
import ExprLexer.Decimal.Notation

namespace ExprLexer.Binary64

/-- The multiples of `10^exponent` next to a value, the nearer one first. Of two equally near ones
the greater comes first. -/
def neighbours (value : Fraction) (exponent : Int) : List Nat :=
  let scaled := value.scale 10 (-exponent)
  match scaled.remainder with
  | .lt => [scaled.floor, scaled.floor + 1]
  | _ => [scaled.floor + 1, scaled.floor]

def candidates (x : Binary64) (exponent : Int) : List Decimal :=
  (neighbours x.toFraction exponent).map fun n => ⟨x.isNegative, n, exponent⟩

def exactDecimal (x : Binary64) : Decimal :=
  match x.scale with
  | .ofNat e => ⟨x.isNegative, x.significand * Nat.pow 2 e, 0⟩
  | .negSucc e => ⟨x.isNegative, x.significand * Nat.pow 5 (e + 1), .negSucc e⟩

def shortest (x : Binary64) : Decimal :=
  if x.magnitude = 0 then ⟨x.isNegative, 0, 0⟩
  else
    ((List.range 17).findSome? fun (i : Nat) =>
      (x.candidates (x.toFraction.log10 - i)).find? fun d => ofDecimal d = x).getD x.exactDecimal

def write (x : Binary64) : List Char :=
  if x.isNaN then ['N', 'a', 'N']
  else if x.isInfinite then (if x.isNegative then ['-'] else []) ++ ['i', 'n', 'f']
  else x.shortest.write

end ExprLexer.Binary64

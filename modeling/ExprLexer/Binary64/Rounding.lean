import ExprLexer.Binary64.Basic
import ExprLexer.Decimal.Basic

namespace ExprLexer.Binary64

/-- The magnitude nearest to a fraction. The significand is rounded at the scale of the fraction's
own binade, or at the finest scale there is. A significand that rounds up to the next power of two
carries into the exponent. Beyond the greatest finite magnitude stands infinity. -/
def nearestMagnitude (value : Fraction) : Nat :=
  if value.num = 0 then 0
  else
    let scale := max (value.log2 - 52) (-1074)
    min infinity ((scale + 1074).toNat * binade + (value.scale 2 (-scale)).roundHalfEven)

def ofDecimal (d : Decimal) : Binary64 := ofParts d.negative (nearestMagnitude d.toFraction)

end ExprLexer.Binary64

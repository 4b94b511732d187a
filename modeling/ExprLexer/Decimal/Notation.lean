import ExprLexer.Decimal.Basic

namespace ExprLexer.Decimal

def orZero : List Char → List Char
  | [] => ['0']
  | digits => digits

/-- The digits with the point after the place of `10^0`, the first digit standing for
`10^leading`. -/
def positional (digits : List Char) (leading : Int) : List Char :=
  let padded := List.replicate (-leading).toNat '0' ++ digits
  let width := leading.toNat + 1
  (padded.take width).rightpad width '0' ++ '.' :: orZero (padded.drop width)

def exponentText (e : Int) : List Char :=
  (if e < 0 then '-' else '+') :: (Nat.toDigits 10 e.natAbs).leftpad 2 '0'

def pointed : List Char → List Char
  | first :: second :: rest => first :: '.' :: second :: rest
  | digits => digits

def scientific (digits : List Char) (leading : Int) : List Char :=
  pointed digits ++ 'e' :: exponentText leading

def isPositional (leading : Int) : Bool := -4 ≤ leading && leading ≤ 15

def write (d : Decimal) : List Char :=
  (if d.negative then ['-'] else []) ++
    if isPositional d.leadingExponent then positional d.digits d.leadingExponent
    else scientific d.digits d.leadingExponent

def isNumeral (text : List Char) : Bool := !text.isEmpty && text.all Char.isDigit

def ofNumeral (digits : List Char) : Nat := Nat.ofDigitChars 10 digits 0

def readExponent? : List Char → Option Int
  | [] => some 0
  | 'e' :: '+' :: digits => if isNumeral digits then some (ofNumeral digits) else none
  | 'e' :: '-' :: digits => if isNumeral digits then some (-ofNumeral digits) else none
  | _ => none

def splitFraction : List Char → List Char × List Char
  | '.' :: rest => (rest.takeWhile Char.isDigit, rest.dropWhile Char.isDigit)
  | rest => ([], rest)

def readUnsigned? (negative : Bool) (text : List Char) : Option Decimal :=
  let whole := text.takeWhile Char.isDigit
  let (fraction, rest) := splitFraction (text.dropWhile Char.isDigit)
  if whole.isEmpty then none
  else (readExponent? rest).map fun e =>
    ⟨negative, ofNumeral (whole ++ fraction), e - fraction.length⟩

/-- Accepts an optional minus, digits, optionally a point with any digits after it, and optionally
an exponent with a sign. -/
def read? : List Char → Option Decimal
  | '-' :: text => readUnsigned? true text
  | text => readUnsigned? false text

end ExprLexer.Decimal

namespace ExprLexer.Text

def isLineEnd (c : Char) : Bool := c = '\n' || c = '\r'

def trimLineEnds (text : String) : String :=
  String.ofList (text.toList.reverse.dropWhile isLineEnd).reverse

/-- The lines of a stream, each up to and with its line feed. What follows the last line feed is a
line too, unless it is empty. -/
def cutLines : List UInt8 → List (List UInt8)
  | [] => []
  | b :: bytes =>
      if b = 10 then [b] :: cutLines bytes
      else match cutLines bytes with
        | [] => [[b]]
        | line :: lines => (b :: line) :: lines

end ExprLexer.Text

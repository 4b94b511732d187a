import ExprLexer.LexError
import ExprLexer.Literal
import ExprLexer.Token

namespace ExprLexer

def isBlank (c : Char) : Bool := c = ' ' || c = '\t'

/-- The characters from the position on are unread. -/
structure Lexer where
  position : Position
  unread : List Char
deriving DecidableEq

namespace Lexer

def ofSource (source : Source) : Lexer := ⟨.start source, source.text.toList⟩

def advance (l : Lexer) : Lexer := ⟨l.position.advance l.unread.head?, l.unread.tail⟩

def advanceBy (l : Lexer) : Nat → Lexer
  | 0 => l
  | n + 1 => l.advance.advanceBy n

def spanTo (l next : Lexer) : Span := ⟨l.position, next.position⟩

def takeSymbol (l : Lexer) (kind : Kind) : Token × Lexer :=
  (.symbol kind (l.spanTo l.advance), l.advance)

def takeLiteral (l : Lexer) : Token × Lexer :=
  let text := Literal.longest l.unread
  let next := l.advanceBy text.length
  (.literal (Literal.value text) (l.spanTo next), next)

/-- The token at the cursor, if a digit or a symbol stands there, and the lexer past it. -/
def takeToken? (l : Lexer) : Option (Token × Lexer) :=
  match l.unread with
  | [] => none
  | c :: _ => if c.isDigit then some l.takeLiteral else (Kind.ofSymbol? c).map l.takeSymbol

def refuse (l : Lexer) (c : Char) : LexError := ⟨.illegalCharacter c, l.spanTo l.advance⟩

@[simp]
theorem unread_advance (l : Lexer) : l.advance.unread = l.unread.tail := rfl

@[simp]
theorem unread_advanceBy (l : Lexer) (n : Nat) : (l.advanceBy n).unread = l.unread.drop n := by
  induction n generalizing l with
  | zero => simp [advanceBy]
  | succ n ih => simp [advanceBy, ih, List.drop_tail]

theorem takeToken?_shrinks {l next : Lexer} {token : Token} (h : l.takeToken? = some (token, next)) :
    next.unread.length < l.unread.length := by
  unfold takeToken? at h
  split at h
  · cases h
  · rename_i c rest hl
    split at h
    · rename_i hc
      obtain ⟨_, rfl⟩ := Prod.mk.inj (Option.some.inj h)
      have hn := List.length_pos_iff.2 (Literal.longest_ne_nil hc rest)
      simp only [unread_advanceBy, List.length_drop, hl, List.length_cons]
      omega
    · obtain ⟨kind, _, hk⟩ := Option.map_eq_some_iff.1 h
      obtain ⟨_, rfl⟩ := Prod.mk.inj hk
      simp [hl]

end Lexer
end ExprLexer

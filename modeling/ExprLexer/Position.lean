namespace ExprLexer

structure Source where
  name : String
  text : String
deriving DecidableEq

/-- A place in a source text, counted in characters from zero: in the whole text, in lines, and in the
line. The counts are unbounded numbers for the places of a text, and machine words for any others. -/
structure Position (Count : Type := Nat) where
  offset : Count
  line : Count
  column : Count
  source : Source
deriving DecidableEq

/-- The characters from `start` up to, but not including, the one at `stop`. -/
structure Span where
  start : Position
  stop : Position
deriving DecidableEq

namespace Position

def start (source : Source) : Position := ⟨0, 0, 0, source⟩

section

variable {Count : Type} [Add Count] [OfNat Count 0] [OfNat Count 1]

/-- The position past one character. A step at the end of the text passes nothing and counts as a
step within the line. -/
def advance (p : Position Count) (passed : Option Char) : Position Count :=
  if passed = some '\n' then ⟨p.offset + 1, p.line + 1, 0, p.source⟩
  else ⟨p.offset + 1, p.line, p.column + 1, p.source⟩

def trail (p : Position Count) : List (Option Char) → List (Position Count)
  | [] => [p]
  | step :: steps => p :: (p.advance step).trail steps

@[simp]
theorem offset_advance (p : Position Count) (passed : Option Char) :
    (p.advance passed).offset = p.offset + 1 := by
  unfold advance
  split <;> rfl

theorem advance_newline (p : Position Count) :
    p.advance (some '\n') = ⟨p.offset + 1, p.line + 1, 0, p.source⟩ := if_pos rfl

theorem advance_of_ne (p : Position Count) {passed : Option Char} (h : passed ≠ some '\n') :
    p.advance passed = ⟨p.offset + 1, p.line, p.column + 1, p.source⟩ := if_neg h

end

def toWords (p : Position) : Position UInt64 :=
  ⟨.ofNat p.offset, .ofNat p.line, .ofNat p.column, p.source⟩

def toNats (p : Position UInt64) : Position :=
  ⟨p.offset.toNat, p.line.toNat, p.column.toNat, p.source⟩

def addOne? (n : UInt64) : Option UInt64 := if n + 1 = 0 then none else some (n + 1)

/-- A step in a build that checks its additions. The column is counted on before a line feed sets it
back. -/
def advance? (p : Position UInt64) (passed : Option Char) : Option (Position UInt64) := do
  let offset ← addOne? p.offset
  let column ← addOne? p.column
  if passed = some '\n' then
    let line ← addOne? p.line
    return ⟨offset, line, 0, p.source⟩
  else return ⟨offset, p.line, column, p.source⟩

end Position
end ExprLexer

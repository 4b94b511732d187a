import ExprLexer.Trace.Basic

namespace ExprLexer.Trace

/-- An event and the activities around it, outermost first. -/
structure Record where
  scope : List Activity
  event : Event

/-- Keeps what comes from targets that start with `target`, up to `level`; nothing without one. -/
structure LogFilter where
  target : String
  level : Option Level
deriving DecidableEq

namespace LogFilter

def admits (f : LogFilter) (target : String) (level : Level) : Bool :=
  f.target.toList.isPrefixOf target.toList && f.level.any (·.admits level)

/-- A filter is written as a level for all targets, or as `target=level`. A word that is no level
keeps nothing, and an empty text keeps errors alone. -/
def ofText (text : String) : LogFilter :=
  let chars := text.toList
  let target := chars.takeWhile (· ≠ '=')
  match chars.drop target.length with
  | _ :: level => ⟨String.ofList target, Level.ofName? (String.ofList level)⟩
  | [] => ⟨"", if text.isEmpty then some .error else Level.ofName? text⟩

end LogFilter

def FieldValue.toText : FieldValue → String
  | count n => Nat.repr n
  | plain text => text
  | quoted text => Text.quoteText text

def fieldsText (fields : Fields) : String :=
  String.intercalate " " (fields.map fun f => f.1 ++ "=" ++ f.2.toText)

def Activity.toText (a : Activity) : String := a.name ++ "\x7b" ++ fieldsText a.fields ++ "\x7d"

namespace Record

/-- The line of a record; of its activities those are told that the filter keeps. -/
def line (filter : LogFilter) (time : String) (r : Record) : String :=
  let scope := r.scope.filter fun a => filter.admits a.target .debug
  let scopeText := if scope.isEmpty then ""
    else String.intercalate ":" (scope.map Activity.toText) ++ ": "
  time ++ " " ++ r.event.level.tag ++ " " ++ scopeText ++ r.event.target ++ ": " ++
    r.event.message ++ " " ++ fieldsText r.event.fields ++ "\n"

def written (filter : Option LogFilter) (time : String) (r : Record) : String :=
  match filter with
  | none => ""
  | some f => if f.admits r.event.target r.event.level then r.line f time else ""

end Record

def records (source : Source) : List Record :=
  (Lexer.ofSource source).scan.events.map fun e => ⟨[.run source, .tokenize source], e⟩

end ExprLexer.Trace

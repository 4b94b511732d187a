import ExprLexer.Proofs.Resumption
import ExprLexer.Proofs.Trace.Emission
import Mathlib.Data.Nat.Find

namespace ExprLexer

namespace Trace

def Entry.event? : Entry → Option Event
  | event e => some e
  | _ => none

def events (entries : List Entry) : List Event := entries.filterMap Entry.event?

namespace Event

end Event

end Trace

namespace Split

end Split

namespace Lexer

/-- The events of a number of calls, as they are heard one after the other. -/
def told (l : Lexer) (calls : Nat) : List Trace.Event :=
  Trace.events (Trace.visible .trace (l.traceTimes calls))

end Lexer

namespace Source

variable (source : Source)

end Source
end ExprLexer

namespace ExprLexer.Cli

inductive Task where
  | tokens
  | check
deriving DecidableEq

def Task.ofName? : String → Option Task
  | "tokens" => some .tokens
  | "check" => some .check
  | _ => none

inductive Request where
  | usage
  | unknown (command : String)
  | noFiles
  | batch (task : Task) (paths : List String)
  | repl
deriving DecidableEq

namespace Request

/-- The first argument decides; the others are files, which only tasks look at. -/
def ofArgs : List String → Request
  | [] => .usage
  | command :: paths =>
      if command = "--help" || command = "-h" then .usage
      else if command = "repl" then .repl
      else match Task.ofName? command with
        | none => .unknown command
        | some task => if paths.isEmpty then .noFiles else .batch task paths

def paths : Request → List String
  | batch _ paths => paths
  | _ => []

end Request
end ExprLexer.Cli

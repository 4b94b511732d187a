import ExprLexer.Cli.Report
import ExprLexer.Cli.Request
import ExprLexer.Text.Lines

namespace ExprLexer.Cli

def usageText : String :=
  "Usage: arith-lex <command> [files...]\n" ++
  "\n" ++
  "Commands:\n" ++
  "  tokens  Print the tokens of each file\n" ++
  "  check   Check that each file lexes cleanly\n" ++
  "  repl    Read expressions from stdin, one per line\n" ++
  "\n" ++
  "Examples:\n" ++
  "  arith-lex tokens expr.txt\n" ++
  "  arith-lex check a.txt b.txt\n" ++
  "  arith-lex repl\n"

def refusal (notice : String) : Report := ⟨2, [.notice notice]⟩

def success (task : Task) (path : String) (tokens : List Token) : Message :=
  match task with
  | .tokens => .answer (Token.listText tokens ++ "\n")
  | .check => .notice (path ++ ": ok (" ++ Nat.repr tokens.length ++ " token(s))\n")

def fileSource (path text : String) : Source := ⟨path, Text.trimLineEnds text⟩

def fileReport (task : Task) (path : String) (content : Except ReadFailure ByteArray) : Report :=
  match content.bind decodeText with
  | .error failure => ⟨1, [failureNotice path failure]⟩
  | .ok text =>
      let source := fileSource path text
      let records := (Trace.records source).map Message.record
      match run source with
      | .ok tokens => ⟨0, records ++ [success task path tokens]⟩
      | .error e => ⟨1, records ++ [.notice (e.message ++ "\n")]⟩

/-- Every file is reported, whatever became of the others. -/
def batch (task : Task) (read : String → Except ReadFailure ByteArray) (paths : List String) :
    Report :=
  let reports := paths.map fun path => fileReport task path (read path)
  ⟨if reports.any (·.exitCode ≠ 0) then 1 else 0, reports.flatMap Report.messages⟩

def prompt : Message := .answer "basic > "

def farewell : Message := .answer "\n"

def lineSource (text : String) : Source := ⟨Source.defaultName, Text.trimLineEnds text⟩

def lineAnswer (text : String) : String :=
  match run (lineSource text) with
  | .ok tokens => Token.listText tokens
  | .error e => e.compactText

def lineReport (line : List UInt8) : Report :=
  match decodeText ⟨line.toArray⟩ with
  | .error failure => ⟨1, [failureNotice Source.defaultName failure]⟩
  | .ok text =>
      ⟨0, (Trace.records (lineSource text)).map Message.record ++
        [.answer (lineAnswer text ++ "\n")]⟩

/-- A line that is no text ends the dialogue. -/
def repl : List (List UInt8) → Report
  | [] => ⟨0, [prompt, farewell]⟩
  | line :: lines =>
      let first := lineReport line
      let rest := if first.exitCode = 0 then repl lines else ⟨first.exitCode, []⟩
      ⟨rest.exitCode, prompt :: first.messages ++ rest.messages⟩

/-- What a command line does, given what the files hold and what is typed. -/
def report (args : List String) (read : String → Except ReadFailure ByteArray)
    (input : List UInt8) : Report :=
  match Request.ofArgs args with
  | .usage => refusal usageText
  | .unknown command => refusal ("Unknown command: " ++ command ++ "\n")
  | .noFiles => refusal "Error: no files specified\n"
  | .batch task paths => batch task read paths
  | .repl => repl (Text.cutLines input)

end ExprLexer.Cli

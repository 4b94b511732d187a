import ExprLexer.Cli.Command
import Std.Time.Format
import Std.Time.Zoned

namespace ExprLexer.Main

open Cli

def timeText : IO String := do
  let now := Std.Time.DateTime.ofTimestampWithZone (← Std.Time.Timestamp.now) Std.Time.TimeZone.UTC
  return now.format "uuuu-MM-dd'T'HH:mm:ss.SSSSSS'Z'"

def emit (filter : Option Trace.LogFilter) (messages : List Message) : IO Unit := do
  for message in messages do
    IO.print message.output
    IO.eprint (message.errorOutput filter (← timeText))
  (← IO.getStdout).flush

def failureOf : IO.Error → ReadFailure
  | .noFileOrDirectory _ _ _ => .notFound
  | .inappropriateType _ 21 _ => .isDirectory
  | .inappropriateType _ _ _ => .notDirectory
  | e => .other (toString e)

def readFile (path : String) : IO (Except ReadFailure ByteArray) := do
  try
    return .ok (← IO.FS.readBinFile path)
  catch e =>
    return .error (failureOf e)

partial def readLine (input : IO.FS.Stream) (line : Array UInt8) : IO (Array UInt8) := do
  match (← input.read 1).toList with
  | [] => return line
  | b :: _ => if b = 10 then return line.push b else readLine input (line.push b)

partial def converse (filter : Option Trace.LogFilter) (input : IO.FS.Stream) : IO UInt32 := do
  emit filter [prompt]
  let line ← readLine input #[]
  if line.isEmpty then
    emit filter [farewell]
    return 0
  let result := lineReport line.toList
  emit filter result.messages
  if result.exitCode = 0 then converse filter input else return result.exitCode.toUInt32

def program (args : List String) : IO UInt32 := do
  let filter := (← IO.getEnv "RUST_LOG").map Trace.LogFilter.ofText
  let request := Request.ofArgs args
  if request = .repl then
    converse filter (← IO.getStdin)
  else
    let contents ← request.paths.mapM fun path => return (path, ← readFile path)
    let result := report args (fun path => (contents.lookup path).getD (.error .notFound)) []
    emit filter result.messages
    return result.exitCode.toUInt32

end ExprLexer.Main

def main (args : List String) : IO UInt32 := ExprLexer.Main.program args

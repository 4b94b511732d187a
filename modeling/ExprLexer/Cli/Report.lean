import ExprLexer.Trace.Log

namespace ExprLexer.Cli

inductive Message where
  | answer (text : String)
  | notice (text : String)
  | record (record : Trace.Record)

structure Report where
  exitCode : Nat
  messages : List Message

namespace Message

def output : Message → String
  | answer text => text
  | _ => ""

/-- Log records go to the standard error, at their place among the notices. -/
def errorOutput (filter : Option Trace.LogFilter) (time : String) : Message → String
  | answer _ => ""
  | notice text => text
  | record r => r.written filter time

end Message

namespace Report

def output (r : Report) : String := String.join (r.messages.map Message.output)

def errorOutput (filter : Option Trace.LogFilter) (time : String) (r : Report) : String :=
  String.join (r.messages.map (Message.errorOutput filter time))

end Report

inductive ReadFailure where
  | notFound
  | isDirectory
  | notDirectory
  | notText
  | other (reason : String)
deriving DecidableEq

def ReadFailure.reason : ReadFailure → String
  | notFound => "No such file or directory (os error 2)"
  | isDirectory => "Is a directory (os error 21)"
  | notDirectory => "Not a directory (os error 20)"
  | notText => "stream did not contain valid UTF-8"
  | other reason => reason

def decodeText (bytes : ByteArray) : Except ReadFailure String :=
  match String.fromUTF8? bytes with
  | some text => .ok text
  | none => .error .notText

def failureNotice (name : String) (failure : ReadFailure) : Message :=
  .notice (name ++ ": " ++ failure.reason ++ "\n")

end ExprLexer.Cli

import ExprLexer.Proofs.Cli.ExitCode
import ExprLexer.Proofs.Trace.LogRecords

namespace ExprLexer.Cli

/-- What stands on the standard error: a log record, or a text of the program's own. -/
inductive Piece where
  | logged (record : Trace.Record)
  | told (text : String)

namespace Piece

def text (time : String) : Piece → String
  | logged r => r.text time
  | told text => text

def told? : Piece → Option String
  | logged _ => none
  | told text => some text

def isToldOrDebug : Piece → Bool
  | logged r => r.event.level = .debug
  | told _ => true

def withoutRun : Piece → Piece
  | logged r => logged r.withoutRun
  | told text => told text

end Piece

def Message.pieces (filter : Option Trace.LogFilter) : Message → List Piece
  | answer _ => []
  | notice text => [.told text]
  | record r => ((filter.bind r.kept).map Piece.logged).toList

def Report.pieces (filter : Option Trace.LogFilter) (r : Report) : List Piece :=
  r.messages.flatMap (Message.pieces filter)

/-- What is seen of the program from outside: its exit code and its two streams. -/
structure Execution where
  exitCode : Nat
  output : String
  pieces : List Piece

/-- What a command line does under a log setting, if there is one. -/
def execute (setting : Option String) (args : List String)
    (read : String → Except ReadFailure ByteArray) (input : List UInt8) : Execution :=
  let r := report args read input
  ⟨r.exitCode, r.output, r.pieces (setting.map Trace.LogFilter.ofText)⟩

theorem Message.errorOutput_eq (filter : Option Trace.LogFilter) (time : String) (m : Message) :
    m.errorOutput filter time = String.join ((m.pieces filter).map (Piece.text time)) := by
  cases m with
  | answer text => rfl
  | notice text =>
      rw [pieces, List.map_singleton, String.join_cons]
      exact String.append_empty.symm
  | record r =>
      rw [errorOutput, Trace.Record.written_eq, pieces]
      cases filter.bind r.kept with
      | none => rfl
      | some r =>
          rw [Option.map_some, Option.map_some, Option.toList_some, List.map_singleton,
            String.join_cons]
          exact String.append_empty.symm

theorem Report.errorOutput_eq (filter : Option Trace.LogFilter) (time : String) (r : Report) :
    r.errorOutput filter time = String.join ((r.pieces filter).map (Piece.text time)) := by
  rw [errorOutput, pieces, List.map_flatMap, join_flatMap, funext (Message.errorOutput_eq filter time)]

theorem Report.told_pieces (filter : Option Trace.LogFilter) (r : Report) :
    (r.pieces filter).filterMap Piece.told? = (r.pieces none).filterMap Piece.told? := by
  rw [pieces, pieces, List.filterMap_flatMap, List.filterMap_flatMap]
  congr 1
  funext m
  cases m with
  | answer text => rfl
  | notice text => rfl
  | record r =>
      rw [Message.pieces, Message.pieces]
      cases filter.bind r.kept <;> rfl

/-- If what one filter leaves of each record is made from what another one leaves of it, then so is what
stands on the standard error. -/
theorem Report.pieces_eq_filterMap {f g : Trace.LogFilter} {make : Piece → Option Piece}
    (htold : ∀ text, make (.told text) = some (.told text))
    (hlogged : ∀ r : Trace.Record,
      (r.kept f).map Piece.logged = (r.kept g).bind fun r => make (.logged r)) (r : Report) :
    r.pieces (some f) = (r.pieces (some g)).filterMap make := by
  rw [pieces, pieces, List.filterMap_flatMap]
  congr 1
  funext m
  cases m with
  | answer text => rfl
  | notice text =>
      rw [Message.pieces, Message.pieces, List.filterMap_cons_some (htold text)]
      rfl
  | record r =>
      rw [Message.pieces, Message.pieces, Option.bind_some, Option.bind_some, hlogged]
      cases r.kept g with
      | none => rfl
      | some r => cases h : make (.logged r) <;> simp [h]

theorem Report.pieces_debug (target : String) (r : Report) :
    r.pieces (some ⟨target, some .debug⟩) =
      (r.pieces (some ⟨target, some .trace⟩)).filter Piece.isToldOrDebug := by
  rw [← List.filterMap_eq_filter]
  refine pieces_eq_filterMap ?_ (fun r => ?_) r
  · exact fun text => rfl
  rw [Trace.LogFilter.kept_debug]
  cases r.kept ⟨target, some .trace⟩ with
  | none => rfl
  | some r => by_cases h : r.event.level = .debug <;> simp [Option.guard, Piece.isToldOrDebug, h]

theorem Report.pieces_lexer (level : Option Trace.Level) (r : Report) :
    r.pieces (some ⟨"arith_lex::lexer", level⟩) =
      (r.pieces (some ⟨"arith_lex", level⟩)).map Piece.withoutRun := by
  rw [← List.filterMap_eq_map]
  refine pieces_eq_filterMap ?_ (fun r => ?_) r
  · exact fun text => rfl
  rw [Trace.LogFilter.kept_lexer]
  cases r.kept ⟨"arith_lex", level⟩ <;> rfl

theorem Report.logged_notMem_pieces {filter : Option Trace.LogFilter}
    (h : ∀ r : Trace.Record, filter.bind r.kept = none) (report : Report) (r : Trace.Record) :
    .logged r ∉ report.pieces filter := by
  intro hr
  obtain ⟨m, -, hm⟩ := List.mem_flatMap.1 hr
  cases m with
  | answer text => cases hm
  | notice text => cases List.mem_singleton.1 hm
  | record other =>
      rw [Message.pieces, h] at hm
      cases hm

def block (source : Source) : List Piece := (Trace.records source).map Piece.logged

/-- What stands there for one file under full tracing: the records of its text, if it can be read, and then
its own message, if there is one. -/
inductive FilePieces (path : String) :
    Task → Except ReadFailure ByteArray → List Piece → Prop
  | unread (task : Task) (failure : ReadFailure) :
      FilePieces path task (.error failure) [.told (path ++ ": " ++ failure.reason ++ "\n")]
  | notText (task : Task) {content : ByteArray} : ¬ content.IsValidUTF8 →
      FilePieces path task (.ok content) [.told (path ++ ": stream did not contain valid UTF-8\n")]
  | refused (task : Task) {text : String} {e : LexError} :
      run (fileSource path text) = .error e → FilePieces path task (.ok text.toUTF8)
        (block (fileSource path text) ++ [.told (e.message ++ "\n")])
  | listed {text : String} {tokens : List Token} : run (fileSource path text) = .ok tokens →
      FilePieces path .tokens (.ok text.toUTF8) (block (fileSource path text))
  | counted {text : String} {tokens : List Token} : run (fileSource path text) = .ok tokens →
      FilePieces path .check (.ok text.toUTF8) (block (fileSource path text) ++
        [.told (path ++ ": ok (" ++ Nat.repr tokens.length ++ " token(s))\n")])

/-- What stands there for the lines of a dialogue: the records of each line, up to the first one that is
no text. -/
inductive LinePieces : List (List UInt8) → List Piece → Prop
  | ended : LinePieces [] []
  | line (text : String) {lines : List (List UInt8)} {pieces : List Piece} : LinePieces lines pieces →
      LinePieces (Text.bytes text :: lines) (block (lineSource text) ++ pieces)
  | notText {line : List UInt8} (lines : List (List UInt8)) :
      ¬ (ByteArray.mk line.toArray).IsValidUTF8 →
      LinePieces (line :: lines) [.told "<stdin>: stream did not contain valid UTF-8\n"]

/-- What stands there for a command line: the program's own message if it asks for nothing, and otherwise
what stands there for each file or line, one after the other. -/
inductive FullPieces (read : String → Except ReadFailure ByteArray) (input : List UInt8) :
    List String → List Piece → Prop
  | nothing {args : List String} (notice : String) : AsksNothing args →
      FullPieces read input args [.told notice]
  | files {task : Task} {paths : List String} {pieces : String → List Piece} : paths ≠ [] →
      (∀ path, FilePieces path task (read path) (pieces path)) →
      FullPieces read input (task.name :: paths) (paths.flatMap pieces)
  | lines (rest : List String) {pieces : List Piece} : LinePieces (Text.cutLines input) pieces →
      FullPieces read input ("repl" :: rest) pieces

section

variable {f : Trace.LogFilter} (h : ∀ r : Trace.Record, r.kept f = some r)
include h

theorem pieces_records (records : List Trace.Record) :
    (records.map Message.record).flatMap (Message.pieces (some f)) = records.map Piece.logged := by
  rw [List.flatMap_map, ← List.flatMap_pure_eq_map]
  refine List.flatMap_congr fun r _ => ?_
  rw [Message.pieces, Option.bind_some, h]
  rfl

theorem filePieces (task : Task) (path : String) (content : Except ReadFailure ByteArray) :
    FilePieces path task content ((fileReport task path content).pieces (some f)) := by
  have closing (code : Nat) (source : Source) (m : Message) :
      Report.pieces (some f) ⟨code, (Trace.records source).map Message.record ++ [m]⟩ =
        block source ++ m.pieces (some f) := by
    rw [Report.pieces, List.flatMap_append, pieces_records h, List.flatMap_singleton]
    rfl
  match content with
  | .error failure => exact .unread task failure
  | .ok bytes =>
      by_cases hvalid : bytes.IsValidUTF8
      · obtain ⟨text, rfl⟩ := Text.exists_toUTF8_eq hvalid
        cases hrun : run (fileSource path text) with
        | error e =>
            rw [fileReport_of_run_error hrun, closing]
            exact .refused task hrun
        | ok tokens =>
            rw [fileReport_of_run_ok hrun, closing]
            cases task with
            | tokens =>
                rw [success, Message.pieces, List.append_nil]
                exact .listed hrun
            | check => exact .counted hrun
      · rw [fileReport_of_not_valid hvalid]
        have hnotice : path ++ ": " ++ ReadFailure.notText.reason ++ "\n" =
            path ++ ": stream did not contain valid UTF-8\n" := by
          simp [ReadFailure.reason, String.append_assoc]
        rw [failureNotice, hnotice]
        exact .notText task hvalid

theorem linePieces (lines : List (List UInt8)) :
    LinePieces lines ((repl lines).pieces (some f)) := by
  induction lines with
  | nil => exact .ended
  | cons line lines ih =>
      by_cases hline : (ByteArray.mk line.toArray).IsValidUTF8
      · obtain ⟨text, htext⟩ := Text.exists_toUTF8_eq hline
        obtain rfl : Text.bytes text = line := Text.toUTF8_eq_iff.1 htext
        have hexchange : (exchange text).messages.flatMap (Message.pieces (some f)) =
            block (lineSource text) := by
          rw [exchange, List.flatMap_cons, List.flatMap_append, pieces_records h]
          exact List.append_nil _
        rw [repl_cons_bytes, Report.pieces, List.flatMap_append, hexchange]
        exact .line text ih
      · rw [repl_cons_of_not_valid hline]
        exact .notText lines hline

end

theorem pieces_batch (filter : Option Trace.LogFilter) (task : Task)
    (read : String → Except ReadFailure ByteArray) (paths : List String) :
    (batch task read paths).pieces filter =
      paths.flatMap fun path => (fileReport task path (read path)).pieces filter := by
  rw [batch, Report.pieces, List.flatMap_assoc, List.flatMap_map]
  rfl

theorem report_cases (args : List String) (read : String → Except ReadFailure ByteArray)
    (input : List UInt8) : (∃ notice, report args read input = refusal notice) ∨
      (∃ task paths, report args read input = batch task read paths) ∨
      report args read input = repl (Text.cutLines input) := by
  rw [report]
  cases Request.ofArgs args with
  | usage | unknown | noFiles => exact .inl ⟨_, rfl⟩
  | batch task paths => exact .inr (.inl ⟨task, paths, rfl⟩)
  | repl => exact .inr (.inr rfl)

theorem exists_refusal {args : List String} (h : AsksNothing args)
    (read : String → Except ReadFailure ByteArray) (input : List UInt8) :
    ∃ notice, report args read input = refusal notice := by
  have hcode := (exitCode_eq_two_iff read input args).2 h
  rcases report_cases args read input with hrefusal | ⟨task, paths, hbatch⟩ | hrepl
  · exact hrefusal
  · have := (exitCode_batch task read paths).1
    rw [hbatch] at hcode
    omega
  · have := (exitCode_repl (Text.cutLines input)).1
    rw [hrepl] at hcode
    omega

theorem exists_source_of_mem_block {source : Source} {r : Trace.Record}
    (h : .logged r ∈ block source) : ∃ source, r ∈ Trace.records source := by
  obtain ⟨other, hother, heq⟩ := List.mem_map.1 h
  exact ⟨source, Piece.logged.inj heq ▸ hother⟩

theorem FilePieces.exists_source {task : Task} {path : String}
    {content : Except ReadFailure ByteArray} {pieces : List Piece} {r : Trace.Record}
    (h : FilePieces path task content pieces) (hr : .logged r ∈ pieces) :
    ∃ source, r ∈ Trace.records source := by
  cases h with
  | unread | notText => cases List.mem_singleton.1 hr
  | listed => exact exists_source_of_mem_block hr
  | refused | counted =>
      rcases List.mem_append.1 hr with hr | hr
      · exact exists_source_of_mem_block hr
      · cases List.mem_singleton.1 hr

theorem LinePieces.exists_source {lines : List (List UInt8)} {pieces : List Piece}
    {r : Trace.Record} (h : LinePieces lines pieces) (hr : .logged r ∈ pieces) :
    ∃ source, r ∈ Trace.records source := by
  induction h with
  | ended => cases hr
  | line text _ ih =>
      rcases List.mem_append.1 hr with hr | hr
      · exact exists_source_of_mem_block hr
      · exact ih hr
  | notText => cases List.mem_singleton.1 hr

theorem FullPieces.exists_source {args : List String}
    {read : String → Except ReadFailure ByteArray} {input : List UInt8} {pieces : List Piece}
    {r : Trace.Record} (h : FullPieces read input args pieces) (hr : .logged r ∈ pieces) :
    ∃ source, r ∈ Trace.records source := by
  cases h with
  | nothing => cases List.mem_singleton.1 hr
  | files _ hfiles =>
      obtain ⟨path, -, hr⟩ := List.mem_flatMap.1 hr
      exact (hfiles path).exists_source hr
  | lines _ hlines => exact hlines.exists_source hr

section

variable (args : List String) (read : String → Except ReadFailure ByteArray) (input : List UInt8)

theorem pieces_execute (setting : String) : (execute (some setting) args read input).pieces =
    (report args read input).pieces (some (Trace.LogFilter.ofText setting)) := rfl

theorem execute_full {setting : String} (h : setting ∈ ["trace", "arith_lex=trace"]) :
    FullPieces read input args (execute (some setting) args read input).pieces := by
  have hkept := Trace.LogFilter.kept_of_full h
  rw [pieces_execute]
  rcases args_cases args with ⟨hargs, -⟩ | ⟨task, paths, hne, rfl⟩ | ⟨rest, rfl⟩
  · obtain ⟨notice, hnotice⟩ := exists_refusal hargs read input
    rw [hnotice]
    exact .nothing notice hargs
  · rw [report_task task hne, pieces_batch]
    exact .files hne fun path => filePieces hkept task path (read path)
  · exact .lines rest (linePieces hkept _)

theorem execute_debug {target : String} (h : target ∈ ["", "arith_lex=", "arith_lex::lexer="]) :
    (execute (some (target ++ "debug")) args read input).pieces =
      (execute (some (target ++ "trace")) args read input).pieces.filter Piece.isToldOrDebug := by
  have hfilters : ∀ target ∈ ["", "arith_lex=", "arith_lex::lexer="], ∃ f : Trace.LogFilter,
      Trace.LogFilter.ofText (target ++ "debug") = ⟨f.target, some .debug⟩ ∧
        Trace.LogFilter.ofText (target ++ "trace") = ⟨f.target, some .trace⟩ := by
    intro target h
    refine ⟨Trace.LogFilter.ofText (target ++ "trace"), ?_⟩
    revert target
    decide
  obtain ⟨f, hdebug, htrace⟩ := hfilters target h
  rw [pieces_execute, pieces_execute, hdebug, htrace, Report.pieces_debug]

theorem execute_lexer {level : String} (h : level ∈ ["trace", "debug"]) :
    (execute (some ("arith_lex::lexer=" ++ level)) args read input).pieces =
      (execute (some ("arith_lex=" ++ level)) args read input).pieces.map Piece.withoutRun := by
  have hfilters : ∀ level ∈ ["trace", "debug"],
      Trace.LogFilter.ofText ("arith_lex::lexer=" ++ level) =
          ⟨"arith_lex::lexer", Trace.Level.ofName? level⟩ ∧
        Trace.LogFilter.ofText ("arith_lex=" ++ level) =
          ⟨"arith_lex", Trace.Level.ofName? level⟩ := by decide
  obtain ⟨hlexer, hall⟩ := hfilters level h
  rw [pieces_execute, pieces_execute, hlexer, hall, Report.pieces_lexer]

variable {args read input} in
theorem exists_source_of_mem_execute {level : String} (h : level ∈ ["trace", "debug"])
    {r : Trace.Record}
    (hr : .logged r ∈ (execute (some ("arith_lex=" ++ level)) args read input).pieces) :
    ∃ source, r ∈ Trace.records source := by
  have htrace : .logged r ∈ (execute (some "arith_lex=trace") args read input).pieces := by
    rcases List.mem_pair.1 h with rfl | rfl
    · exact hr
    · rw [execute_debug args read input (List.mem_cons_of_mem _ List.mem_cons_self)] at hr
      exact List.mem_of_mem_filter hr
  exact (execute_full args read input (List.mem_cons_of_mem _ List.mem_cons_self)).exists_source htrace

end

/-- A log setting changes nothing but which log records stand on the standard error, and how much of them:
the exit code, the standard output and the program's own messages are the same under all. With full tracing
each text that is handed to a run has its records in one block, in front of its own message: one for each
token that is scanned, and one at the end. The other settings leave some of these, or leave out the run
of each. -/
theorem execute_noninterference (args : List String)
    (read : String → Except ReadFailure ByteArray) (input : List UInt8) :
    (∀ s t : Option String,
      (execute s args read input).exitCode = (execute t args read input).exitCode ∧
      (execute s args read input).output = (execute t args read input).output ∧
      (execute s args read input).pieces.filterMap Piece.told? =
        (execute t args read input).pieces.filterMap Piece.told?) ∧
    (∀ (s : Option String) (time : String),
      (report args read input).errorOutput (s.map Trace.LogFilter.ofText) time =
        String.join ((execute s args read input).pieces.map (Piece.text time))) ∧
    (∀ s ∈ Trace.LogFilter.quietSettings, ∀ r,
      .logged r ∉ (execute s args read input).pieces) ∧
    (∀ setting ∈ ["trace", "arith_lex=trace"],
      FullPieces read input args (execute (some setting) args read input).pieces) ∧
    (∀ source, ∃ records, block source = records.map Piece.logged ∧
      Trace.IsBlock source records) ∧
    (∀ target ∈ ["", "arith_lex=", "arith_lex::lexer="],
      (execute (some (target ++ "debug")) args read input).pieces =
        (execute (some (target ++ "trace")) args read input).pieces.filter Piece.isToldOrDebug) ∧
    ∀ level ∈ ["trace", "debug"],
      (execute (some ("arith_lex::lexer=" ++ level)) args read input).pieces =
        (execute (some ("arith_lex=" ++ level)) args read input).pieces.map Piece.withoutRun ∧
      ∀ (r : Trace.Record) (time : String),
        .logged r ∈ (execute (some ("arith_lex=" ++ level)) args read input).pieces →
        ∃ source rest, r.text time = time ++ " " ++ r.event.level.tag ++ " " ++
            ((Trace.Activity.run source).toText ++ ":") ++ rest ∧
          r.withoutRun.text time = time ++ " " ++ r.event.level.tag ++ " " ++ rest := by
  refine ⟨fun s t => ⟨rfl, rfl, ?_⟩, ?_, ?_, ?_, ?_, ?_, ?_⟩
  · exact (Report.told_pieces _ _).trans (Report.told_pieces _ _).symm
  · exact fun s time => Report.errorOutput_eq _ time _
  · exact fun s hs => Report.logged_notMem_pieces (Trace.LogFilter.kept_of_quiet hs) _
  · exact fun setting h => execute_full args read input h
  · exact fun source => ⟨_, rfl, Trace.isBlock_records source⟩
  · exact fun target h => execute_debug args read input h
  · refine fun level h => ⟨execute_lexer args read input h, fun r time hr => ?_⟩
    obtain ⟨source, hsource⟩ := exists_source_of_mem_execute h hr
    obtain ⟨-, -, -, -, -, -, hscope⟩ := Trace.isBlock_records source
    exact ⟨source, Trace.Record.text_withoutRun (hscope r hsource) time⟩

end ExprLexer.Cli

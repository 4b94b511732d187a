import ExprLexer.Cli.Command
import ExprLexer.Proofs.Cli.Streams
import ExprLexer.Proofs.Lines
import ExprLexer.Proofs.ListText

namespace ExprLexer.Cli

def Task.name : Task → String
  | tokens => "tokens"
  | check => "check"

theorem report_task (task : Task) {paths : List String} (hne : paths ≠ [])
    (read : String → Except ReadFailure ByteArray) (input : List UInt8) :
    report (task.name :: paths) read input = batch task read paths := by
  obtain ⟨path, paths, rfl⟩ := List.exists_cons_of_ne_nil hne
  cases task <;> rfl

/-- What one file comes to: an exit code, a text for the standard output and one for the standard error.
A file that cannot be read, is no text or is refused comes to the same under both tasks. -/
inductive FileRecord (path : String) :
    Task → Except ReadFailure ByteArray → Nat → String → String → Prop
  | unread (task : Task) (failure : ReadFailure) :
      FileRecord path task (.error failure) 1 "" (path ++ ": " ++ failure.reason ++ "\n")
  | notText (task : Task) {content : ByteArray} : ¬ content.IsValidUTF8 →
      FileRecord path task (.ok content) 1 "" (path ++ ": stream did not contain valid UTF-8\n")
  | refused (task : Task) {text trimmed : String} {e : LexError} :
      Text.TrimsTo text trimmed → run ⟨path, trimmed⟩ = .error e →
      FileRecord path task (.ok text.toUTF8) 1 "" (e.message ++ "\n")
  | listed {text trimmed : String} {tokens : List Token} :
      Text.TrimsTo text trimmed → run ⟨path, trimmed⟩ = .ok tokens →
      FileRecord path .tokens (.ok text.toUTF8) 0 (Token.listText tokens ++ "\n") ""
  | counted {text trimmed : String} {tokens : List Token} :
      Text.TrimsTo text trimmed → run ⟨path, trimmed⟩ = .ok tokens →
      FileRecord path .check (.ok text.toUTF8) 0 ""
        (path ++ ": ok (" ++ Nat.repr tokens.length ++ " token(s))\n")

section

variable {task : Task} {path : String}

theorem fileReport_error (failure : ReadFailure) :
    fileReport task path (.error failure) = ⟨1, [failureNotice path failure]⟩ := rfl

theorem fileReport_of_not_valid {content : ByteArray} (h : ¬ content.IsValidUTF8) :
    fileReport task path (.ok content) = ⟨1, [failureNotice path .notText]⟩ := by
  have hdecode : (Except.ok content).bind decodeText = .error .notText := decodeText_of_not_valid h
  rw [fileReport, hdecode]

theorem fileReport_of_run_error {text : String} {e : LexError}
    (h : run (fileSource path text) = .error e) : fileReport task path (.ok text.toUTF8) =
      ⟨1, (Trace.records (fileSource path text)).map Message.record ++
        [.notice (e.message ++ "\n")]⟩ := by
  have hdecode : (Except.ok text.toUTF8).bind decodeText = .ok text := decodeText_toUTF8 text
  simp only [fileReport, hdecode, h]

theorem fileReport_of_run_ok {text : String} {tokens : List Token}
    (h : run (fileSource path text) = .ok tokens) : fileReport task path (.ok text.toUTF8) =
      ⟨0, (Trace.records (fileSource path text)).map Message.record ++
        [success task path tokens]⟩ := by
  have hdecode : (Except.ok text.toUTF8).bind decodeText = .ok text := decodeText_toUTF8 text
  simp only [fileReport, hdecode, h]

theorem fileRecord (task : Task) (path : String) (content : Except ReadFailure ByteArray)
    (time : String) : FileRecord path task content (fileReport task path content).exitCode
      (fileReport task path content).output
      ((fileReport task path content).errorOutput none time) := by
  match content with
  | .error failure =>
      rw [fileReport_error, Report.output_singleton, Report.errorOutput_singleton]
      exact .unread task failure
  | .ok bytes =>
      by_cases hvalid : bytes.IsValidUTF8
      · obtain ⟨text, rfl⟩ := Text.exists_toUTF8_eq hvalid
        have htrim := Text.trimsTo_trimLineEnds text
        cases hrun : run (fileSource path text) with
        | error e =>
            rw [fileReport_of_run_error hrun, Report.output_closing, Report.errorOutput_closing]
            exact .refused task htrim hrun
        | ok tokens =>
            rw [fileReport_of_run_ok hrun, Report.output_closing, Report.errorOutput_closing]
            cases task with
            | tokens => exact .listed htrim hrun
            | check => exact .counted htrim hrun
      · rw [fileReport_of_not_valid hvalid, Report.output_singleton, Report.errorOutput_singleton,
          errorOutput_notText]
        exact .notText task hvalid

theorem fileReport_append (task : Task) (path : String) (content : ByteArray) {ending : String}
    (h : ∀ c ∈ ending.toList, c = '\n' ∨ c = '\r') :
    fileReport task path (.ok (content ++ ending.toUTF8)) = fileReport task path (.ok content) := by
  have hdecode : (Except.ok (content ++ ending.toUTF8)).bind decodeText =
      (decodeText content).map (· ++ ending) := decodeText_append content ending
  have hplain : (Except.ok content).bind decodeText = decodeText content := rfl
  rw [fileReport, hdecode, fileReport, hplain]
  cases decodeText content with
  | error failure => rfl
  | ok text =>
      have hsource : fileSource path (text ++ ending) = fileSource path text := by
        rw [fileSource, Text.trimLineEnds_append text h, fileSource]
      simp only [Except.map, hsource]

theorem FileRecord.count_lineFeed {content : Except ReadFailure ByteArray} {code : Nat}
    {out err : String} (h : FileRecord path .tokens content code out err) :
    out.toList.count '\n' = if code = 0 then 1 else 0 := by
  cases h with
  | unread | notText | refused => rfl
  | listed =>
      rw [String.toList_append, List.count_append,
        List.count_eq_zero.2 (Token.lineFeed_notMem_listText _)]
      rfl

theorem FileRecord.output_check {content : Except ReadFailure ByteArray} {code : Nat}
    {out err : String} (h : FileRecord path .check content code out err) : out = "" := by
  cases h <;> rfl

variable (task) (read : String → Except ReadFailure ByteArray)

theorem output_batch (paths : List String) : (batch task read paths).output =
    String.join (paths.map fun path => (fileReport task path (read path)).output) := by
  rw [batch, Report.output_flatMap, List.map_map]
  rfl

theorem errorOutput_batch (time : String) (paths : List String) :
    (batch task read paths).errorOutput none time =
      String.join (paths.map fun path => (fileReport task path (read path)).errorOutput none time) := by
  rw [batch, Report.errorOutput_flatMap, List.map_map]
  rfl

theorem count_output_batch (paths : List String) :
    (batch .tokens read paths).output.toList.count '\n' =
      paths.countP fun path => (fileReport .tokens path (read path)).exitCode = 0 := by
  rw [output_batch]
  induction paths with
  | nil => rfl
  | cons path paths ih =>
      rw [List.map_cons, String.join_cons, String.toList_append, List.count_append, ih,
        (fileRecord .tokens path (read path) "").count_lineFeed, List.countP_cons, Nat.add_comm]
      simp

theorem output_batch_check (paths : List String) : (batch .check read paths).output = "" := by
  rw [output_batch]
  induction paths with
  | nil => rfl
  | cons path paths ih =>
      rw [List.map_cons, String.join_cons, ih, (fileRecord .check path (read path) "").output_check]
      rfl

end

/-- What a task gives out is put together from one record for each file. So it is the same whether the
files are named at once or in parts, and whatever line ends are at their ends. A check leaves the
standard output empty, and a listing has one line for each file that is accepted. -/
theorem report_task_records (task : Task) {paths : List String} (hne : paths ≠ [])
    (read : String → Except ReadFailure ByteArray) (input : List UInt8) (time : String) :
    (report (task.name :: paths) read input).output =
      String.join (paths.map fun path => (fileReport task path (read path)).output) ∧
    (report (task.name :: paths) read input).errorOutput none time =
      String.join (paths.map fun path => (fileReport task path (read path)).errorOutput none time) ∧
    (∀ path content, FileRecord path task content (fileReport task path content).exitCode
      (fileReport task path content).output
      ((fileReport task path content).errorOutput none time)) ∧
    (∀ xs ys, xs ≠ [] → ys ≠ [] → paths = xs ++ ys →
      (report (task.name :: paths) read input).output =
        (report (task.name :: xs) read input).output ++
          (report (task.name :: ys) read input).output ∧
      (report (task.name :: paths) read input).errorOutput none time =
        (report (task.name :: xs) read input).errorOutput none time ++
          (report (task.name :: ys) read input).errorOutput none time) ∧
    (task = .check → (report (task.name :: paths) read input).output = "") ∧
    (task = .tokens → (∀ tokens, '\n' ∉ (Token.listText tokens).toList) ∧
      (report (task.name :: paths) read input).output.toList.count '\n' =
        paths.countP fun path => (fileReport task path (read path)).exitCode = 0) ∧
    ∀ other : String → Except ReadFailure ByteArray,
      (∀ path ∈ paths, other path = read path ∨ ∃ content ending, read path = .ok content ∧
        other path = .ok (content ++ String.toUTF8 ending) ∧
        ∀ c ∈ ending.toList, c = '\n' ∨ c = '\r') →
      report (task.name :: paths) other input = report (task.name :: paths) read input := by
  rw [report_task task hne]
  refine ⟨output_batch task read paths, errorOutput_batch task read time paths,
    fun path content => fileRecord task path content time, ?_, ?_, ?_, ?_⟩
  · rintro xs ys hxs hys rfl
    rw [report_task task hxs, report_task task hys]
    simp only [output_batch, errorOutput_batch, List.map_append, String.join_append, and_self]
  · rintro rfl
    exact output_batch_check read paths
  · rintro rfl
    exact ⟨Token.lineFeed_notMem_listText, count_output_batch read paths⟩
  · intro other hother
    rw [report_task task hne]
    have hreports : paths.map (fun path => fileReport task path (other path)) =
        paths.map fun path => fileReport task path (read path) := by
      refine List.map_congr_left fun path hpath => ?_
      rcases hother path hpath with hsame | ⟨content, ending, hread, hlonger, hending⟩
      · rw [hsame]
      · rw [hlonger, hread, fileReport_append task path content hending]
    rw [batch, batch, hreports]

theorem report_task_records_check : ["sum", "gone"] ≠ [] ∧
    (report ["check", "sum", "gone"] (fun path =>
      if path = "sum" then .ok "12\r\n".toUTF8 else .error .notFound) []).errorOutput none "" =
      "sum: ok (1 token(s))\ngone: No such file or directory (os error 2)\n" := by
  have hne : ["sum", "gone"] ≠ [] := List.cons_ne_nil _ _
  let twelve : Lexeme := .whole ['1', '2'] (List.cons_ne_nil _ _) (List.all_eq_true.1 rfl)
  have htext : (fileSource "sum" "12\r\n").text.toList = twelve.chars := by decide
  have hrun : run (fileSource "sum" "12\r\n") = .ok _ := (Split.Reads.lone_all twelve).run_ok htext
  obtain ⟨-, herr, -⟩ := report_task_records .check hne (fun path =>
    if path = "sum" then .ok "12\r\n".toUTF8 else .error .notFound) [] ""
  refine ⟨hne, herr.trans ?_⟩
  have hsum : (fileReport .check "sum" (.ok "12\r\n".toUTF8)).errorOutput none "" =
      "sum: ok (1 token(s))\n" := by
    rw [fileReport_of_run_ok hrun, Report.errorOutput_closing]
    decide
  have hgone : (fileReport .check "gone" (.error .notFound)).errorOutput none "" =
      "gone: No such file or directory (os error 2)\n" := by
    rw [fileReport_error, Report.errorOutput_singleton]
    decide
  rw [List.map_cons, List.map_cons, List.map_nil, String.join_cons, String.join_cons]
  simp only [reduceIte, String.reduceEq, hsum, hgone]
  decide

end ExprLexer.Cli

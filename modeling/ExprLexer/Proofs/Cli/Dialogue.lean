import ExprLexer.Cli.Command
import ExprLexer.Proofs.Cli.Streams
import ExprLexer.Proofs.Lines
import ExprLexer.Proofs.ListText
import ExprLexer.Proofs.Refusal

namespace ExprLexer.Cli

def transcript (texts : List String) : String :=
  String.join (texts.map fun text => "basic > " ++ lineAnswer text ++ "\n")

def lineLog (filter : Option Trace.LogFilter) (time text : String) : String :=
  String.join ((Trace.records (lineSource text)).map (Trace.Record.written filter time))

def exchange (text : String) : Report :=
  ⟨0, prompt :: ((Trace.records (lineSource text)).map Message.record ++
    [.answer (lineAnswer text ++ "\n")])⟩

theorem lineReport_bytes (text : String) : lineReport (Text.bytes text) =
    ⟨0, (Trace.records (lineSource text)).map Message.record ++
      [.answer (lineAnswer text ++ "\n")]⟩ := by
  have hbytes : (⟨(Text.bytes text).toArray⟩ : ByteArray) = text.toUTF8 := rfl
  rw [lineReport, hbytes, decodeText_toUTF8]

theorem lineReport_of_not_valid {line : List UInt8}
    (h : ¬ (ByteArray.mk line.toArray).IsValidUTF8) :
    lineReport line = ⟨1, [failureNotice "<stdin>" .notText]⟩ := by
  rw [lineReport, decodeText_of_not_valid h]
  rfl

theorem repl_cons_bytes (text : String) (lines : List (List UInt8)) :
    repl (Text.bytes text :: lines) =
      ⟨(repl lines).exitCode, (exchange text).messages ++ (repl lines).messages⟩ := by
  rw [repl, lineReport_bytes]
  rfl

theorem repl_cons_of_not_valid {line : List UInt8}
    (h : ¬ (ByteArray.mk line.toArray).IsValidUTF8) (lines : List (List UInt8)) :
    repl (line :: lines) = ⟨1, [prompt, failureNotice "<stdin>" .notText]⟩ := by
  rw [repl, lineReport_of_not_valid h]
  rfl

theorem repl_append (texts : List String) (lines : List (List UInt8)) :
    repl (texts.map Text.bytes ++ lines) = ⟨(repl lines).exitCode,
      (texts.map exchange).flatMap Report.messages ++ (repl lines).messages⟩ := by
  induction texts with
  | nil => rfl
  | cons text texts ih =>
      rw [List.map_cons, List.cons_append, repl_cons_bytes, ih, List.map_cons, List.flatMap_cons,
        List.append_assoc]

theorem output_exchange (text : String) :
    (exchange text).output = "basic > " ++ lineAnswer text ++ "\n" := by
  rw [exchange, Report.output_cons, Report.output_closing, String.append_assoc]
  rfl

theorem errorOutput_exchange (filter : Option Trace.LogFilter) (time text : String) :
    (exchange text).errorOutput filter time = lineLog filter time text := by
  rw [exchange, Report.errorOutput_cons, Report.errorOutput_append, Report.errorOutput_records,
    Report.errorOutput_singleton]
  exact String.empty_append.trans String.append_empty

theorem output_repl_append (texts : List String) (lines : List (List UInt8)) :
    (repl (texts.map Text.bytes ++ lines)).output = transcript texts ++ (repl lines).output := by
  rw [repl_append, Report.output_append, Report.output_flatMap, List.map_map, transcript,
    ← funext output_exchange]
  rfl

theorem errorOutput_repl_append (filter : Option Trace.LogFilter) (time : String)
    (texts : List String) (lines : List (List UInt8)) :
    (repl (texts.map Text.bytes ++ lines)).errorOutput filter time =
      String.join (texts.map (lineLog filter time)) ++ (repl lines).errorOutput filter time := by
  rw [repl_append, Report.errorOutput_append, Report.errorOutput_flatMap, List.map_map,
    ← funext (errorOutput_exchange filter time)]
  rfl

theorem repl_map (texts : List String) : repl (texts.map Text.bytes) =
    ⟨0, (texts.map exchange).flatMap Report.messages ++ [prompt, farewell]⟩ := by
  have h := repl_append texts []
  rwa [List.append_nil] at h

theorem output_repl_map (texts : List String) :
    (repl (texts.map Text.bytes)).output = transcript texts ++ "basic > \n" := by
  have h := output_repl_append texts []
  rwa [List.append_nil] at h

theorem errorOutput_repl_map (filter : Option Trace.LogFilter) (time : String)
    (texts : List String) : (repl (texts.map Text.bytes)).errorOutput filter time =
      String.join (texts.map (lineLog filter time)) := by
  have h := errorOutput_repl_append filter time texts []
  rw [List.append_nil] at h
  exact h.trans String.append_empty

theorem exists_texts {u : List UInt8} (h : (ByteArray.mk u.toArray).IsValidUTF8) :
    ∃ texts : List String, Text.cutLines u = texts.map Text.bytes := by
  obtain ⟨text, htext⟩ := Text.exists_toUTF8_eq h
  rw [Text.toUTF8_eq_iff] at htext
  obtain ⟨texts, htexts⟩ := Text.exists_texts_cutLines text
  exact ⟨texts, by rw [← htexts, htext]⟩

theorem texts_or_first_not_valid (lines : List (List UInt8)) :
    (∃ texts : List String, lines = texts.map Text.bytes) ∨
      ∃ (texts : List String) (line : List UInt8) (rest : List (List UInt8)),
        lines = texts.map Text.bytes ++ line :: rest ∧
          ¬ (ByteArray.mk line.toArray).IsValidUTF8 := by
  induction lines with
  | nil => exact .inl ⟨[], rfl⟩
  | cons line lines ih =>
      by_cases hline : (ByteArray.mk line.toArray).IsValidUTF8
      · obtain ⟨text, htext⟩ := Text.exists_toUTF8_eq hline
        obtain rfl : Text.bytes text = line := Text.toUTF8_eq_iff.1 htext
        rcases ih with ⟨texts, rfl⟩ | ⟨texts, broken, rest, rfl, hbroken⟩
        · exact .inl ⟨text :: texts, rfl⟩
        · exact .inr ⟨text :: texts, broken, rest, rfl, hbroken⟩
      · exact .inr ⟨[], line, lines, rfl, hline⟩

/-- An answer tells the tokens of the line without its line ends, or that a character of it is refused;
it is never a line feed that is. -/
inductive LineAnswer (text : String) : String → Prop
  | listed {trimmed : String} {tokens : List Token} : Text.TrimsTo text trimmed →
      run ⟨"<stdin>", trimmed⟩ = .ok tokens → LineAnswer text (Token.listText tokens)
  | refused {trimmed : String} {e : LexError} {c : Char} : Text.TrimsTo text trimmed →
      run ⟨"<stdin>", trimmed⟩ = .error e → e.cause = .illegalCharacter c → c ≠ '\n' →
      e.compactText = "Illegal character:'" ++ String.singleton c ++ "'Filename <stdin>, line1" →
      LineAnswer text e.compactText

section

variable {text : String} (h : '\n' ∉ (Text.trimLineEnds text).toList)
include h

theorem refused_character {e : LexError} (he : run (lineSource text) = .error e) :
    ∃ c, c ≠ '\n' ∧ e.cause = .illegalCharacter c ∧
      e.compactText = "Illegal character:'" ++ String.singleton c ++ "'Filename <stdin>, line1" := by
  obtain ⟨s, c, rest, hs, rfl⟩ := Split.run_eq_error_iff_reads.1 he
  have hmem : c ∈ (Text.trimLineEnds text).toList := by
    change c ∈ (lineSource text).text.toList
    rw [hs.chars_append]
    exact List.mem_append_right _ List.mem_cons_self
  refine ⟨c, ne_of_mem_of_not_mem hmem h, rfl, ?_⟩
  rw [Source.compactText_refusal, ← String.toList_inj]
  simp [lineSource, Source.defaultName]

theorem lineAnswer_spec : LineAnswer text (lineAnswer text) := by
  rw [lineAnswer]
  have htrim := Text.trimsTo_trimLineEnds text
  cases hrun : run (lineSource text) with
  | ok tokens => exact .listed htrim hrun
  | error e =>
      obtain ⟨c, hc, hcause, htext⟩ := refused_character h hrun
      exact .refused htrim hrun hcause hc htext

theorem lineFeed_notMem_lineAnswer : '\n' ∉ (lineAnswer text).toList := by
  rw [lineAnswer]
  cases hrun : run (lineSource text) with
  | ok tokens => exact Token.lineFeed_notMem_listText tokens
  | error e =>
      obtain ⟨c, hc, -, htext⟩ := refused_character h hrun
      simp [htext, hc.symm]

end

theorem count_transcript {texts : List String}
    (h : ∀ text ∈ texts, '\n' ∉ (lineAnswer text).toList) :
    (transcript texts).toList.count '\n' = texts.length := by
  induction texts with
  | nil => rfl
  | cons text texts ih =>
      rw [transcript, List.map_cons, String.join_cons, ← transcript, String.toList_append,
        List.count_append, ih fun t ht => h t (List.mem_cons_of_mem text ht), String.toList_append,
        String.toList_append, List.count_append, List.count_append,
        List.count_eq_zero.2 (h text List.mem_cons_self), List.length_cons, Nat.add_comm]
      rfl

theorem report_repl (args : List String) (read : String → Except ReadFailure ByteArray)
    (input : List UInt8) : report ("repl" :: args) read input = repl (Text.cutLines input) := rfl

/-- The lines of a dialogue are answered in their order, each for itself, up to the first one that is no
text. So a dialogue can be cut after any line end, but for the prompt that the first part ends with. -/
theorem report_repl_transcript (args : List String)
    (read : String → Except ReadFailure ByteArray) (input : List UInt8)
    (filter : Option Trace.LogFilter) (time : String) :
    (∀ lines, Text.IsCut input lines ↔ lines = Text.cutLines input) ∧
    ((∃ texts : List String, Text.cutLines input = texts.map Text.bytes ∧
        (report ("repl" :: args) read input).output = transcript texts ++ "basic > \n" ∧
        (report ("repl" :: args) read input).errorOutput filter time =
          String.join (texts.map (lineLog filter time)) ∧
        (report ("repl" :: args) read input).exitCode = 0 ∧
        (report ("repl" :: args) read input).output.toList.count '\n' =
          (Text.cutLines input).length + 1) ∨
      ∃ (texts : List String) (line : List UInt8) (rest : List (List UInt8)),
        Text.cutLines input = texts.map Text.bytes ++ line :: rest ∧
        ¬ (ByteArray.mk line.toArray).IsValidUTF8 ∧
        (report ("repl" :: args) read input).output = transcript texts ++ "basic > " ∧
        (report ("repl" :: args) read input).errorOutput filter time =
          String.join (texts.map (lineLog filter time)) ++
            "<stdin>: stream did not contain valid UTF-8\n" ∧
        (report ("repl" :: args) read input).exitCode = 1) ∧
    (∀ text, lineLog none time text = "") ∧
    (∀ text, Text.bytes text ∈ Text.cutLines input →
      LineAnswer text (lineAnswer text) ∧ '\n' ∉ (lineAnswer text).toList) ∧
    ∀ u v, input = u ++ v → (u = [] ∨ u.getLast? = some 10) →
      (ByteArray.mk u.toArray).IsValidUTF8 → ∃ before,
      (report ("repl" :: args) read u).output = before ++ "basic > \n" ∧
      (report ("repl" :: args) read input).output =
        before ++ (report ("repl" :: args) read v).output ∧
      (report ("repl" :: args) read input).errorOutput filter time =
        (report ("repl" :: args) read u).errorOutput filter time ++
          (report ("repl" :: args) read v).errorOutput filter time ∧
      (report ("repl" :: args) read input).exitCode =
        (report ("repl" :: args) read v).exitCode := by
  simp only [report_repl]
  have answer {text : String} (htext : Text.bytes text ∈ Text.cutLines input) :
      LineAnswer text (lineAnswer text) ∧ '\n' ∉ (lineAnswer text).toList := by
    have hfeed := Text.lineFeed_notMem_trimLineEnds htext
    exact ⟨lineAnswer_spec hfeed, lineFeed_notMem_lineAnswer hfeed⟩
  refine ⟨fun lines => Text.isCut_iff, ?_, ?_, ?_, ?_⟩
  · rcases texts_or_first_not_valid (Text.cutLines input) with
      ⟨texts, hlines⟩ | ⟨texts, line, rest, hlines, hline⟩
    · have hanswers : ∀ text ∈ texts, '\n' ∉ (lineAnswer text).toList := by
        intro text htext
        exact (answer (hlines ▸ List.mem_map_of_mem htext)).2
      refine .inl ⟨texts, hlines, ?_⟩
      rw [hlines, output_repl_map]
      refine ⟨rfl, errorOutput_repl_map filter time texts, by rw [repl_map], ?_⟩
      rw [String.toList_append, List.count_append, count_transcript hanswers, List.length_map]
      rfl
    · refine .inr ⟨texts, line, rest, hlines, hline, ?_⟩
      rw [hlines, output_repl_append, errorOutput_repl_append, repl_append,
        repl_cons_of_not_valid hline]
      refine ⟨rfl, ?_, rfl⟩
      rw [Report.errorOutput_cons, Report.errorOutput_singleton, errorOutput_notText]
      rfl
  · exact fun text => Report.join_written_none time _
  · exact fun text htext => answer htext
  · rintro u v rfl hend hvalid
    obtain ⟨texts, htexts⟩ := exists_texts hvalid
    refine ⟨transcript texts, ?_⟩
    rw [Text.cutLines_append hend, htexts, output_repl_map, output_repl_append,
      errorOutput_repl_append, errorOutput_repl_map, repl_append]
    exact ⟨rfl, rfl, rfl, rfl⟩

end ExprLexer.Cli

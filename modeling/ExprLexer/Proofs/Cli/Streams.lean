import ExprLexer.Cli.Report

namespace ExprLexer.Cli

theorem join_flatMap {α : Type} (f : α → List String) (l : List α) :
    String.join (l.flatMap f) = String.join (l.map fun a => String.join (f a)) := by
  induction l with
  | nil => rfl
  | cons a l ih => rw [List.flatMap_cons, String.join_append, ih, List.map_cons, String.join_cons]

theorem errorOutput_notText (filter : Option Trace.LogFilter) (time name : String) :
    (failureNotice name .notText).errorOutput filter time =
      name ++ ": stream did not contain valid UTF-8\n" := by
  simp [failureNotice, Message.errorOutput, ReadFailure.reason, String.append_assoc]

namespace Report

theorem output_flatMap (code : Nat) (reports : List Report) :
    output ⟨code, reports.flatMap messages⟩ = String.join (reports.map output) := by
  rw [output, List.map_flatMap, join_flatMap]
  rfl

theorem errorOutput_flatMap (filter : Option Trace.LogFilter) (time : String) (code : Nat)
    (reports : List Report) : errorOutput filter time ⟨code, reports.flatMap messages⟩ =
      String.join (reports.map (errorOutput filter time)) := by
  rw [errorOutput, List.map_flatMap, join_flatMap]
  rfl

theorem output_append (code : Nat) (a b : List Message) :
    output ⟨code, a ++ b⟩ = output ⟨code, a⟩ ++ output ⟨code, b⟩ := by
  rw [output, List.map_append, String.join_append]
  rfl

theorem errorOutput_append (filter : Option Trace.LogFilter) (time : String) (code : Nat)
    (a b : List Message) : errorOutput filter time ⟨code, a ++ b⟩ =
      errorOutput filter time ⟨code, a⟩ ++ errorOutput filter time ⟨code, b⟩ := by
  rw [errorOutput, List.map_append, String.join_append]
  rfl

theorem output_cons (code : Nat) (m : Message) (messages : List Message) :
    output ⟨code, m :: messages⟩ = m.output ++ output ⟨code, messages⟩ := by
  rw [output, List.map_cons, String.join_cons]
  rfl

theorem errorOutput_cons (filter : Option Trace.LogFilter) (time : String) (code : Nat)
    (m : Message) (messages : List Message) : errorOutput filter time ⟨code, m :: messages⟩ =
      m.errorOutput filter time ++ errorOutput filter time ⟨code, messages⟩ := by
  rw [errorOutput, List.map_cons, String.join_cons]
  rfl

@[simp]
theorem output_singleton (code : Nat) (m : Message) : output ⟨code, [m]⟩ = m.output := by
  rw [output_cons]
  exact String.append_empty

@[simp]
theorem errorOutput_singleton (filter : Option Trace.LogFilter) (time : String) (code : Nat)
    (m : Message) : errorOutput filter time ⟨code, [m]⟩ = m.errorOutput filter time := by
  rw [errorOutput_cons]
  exact String.append_empty

theorem output_records (code : Nat) (records : List Trace.Record) :
    output ⟨code, records.map Message.record⟩ = "" := by
  induction records with
  | nil => rfl
  | cons r records ih =>
      rw [List.map_cons, output_cons, ih]
      rfl

theorem errorOutput_records (filter : Option Trace.LogFilter) (time : String) (code : Nat)
    (records : List Trace.Record) : errorOutput filter time ⟨code, records.map Message.record⟩ =
      String.join (records.map (Trace.Record.written filter time)) := by
  rw [errorOutput, List.map_map]
  rfl

theorem join_written_none (time : String) (records : List Trace.Record) :
    String.join (records.map (Trace.Record.written none time)) = "" := by
  induction records with
  | nil => rfl
  | cons r records ih =>
      rw [List.map_cons, String.join_cons, ih]
      rfl

theorem output_closing (code : Nat) (records : List Trace.Record) (m : Message) :
    output ⟨code, records.map Message.record ++ [m]⟩ = m.output := by
  rw [output_append, output_records, output_singleton, String.empty_append]

theorem errorOutput_closing (time : String) (code : Nat) (records : List Trace.Record) (m : Message) :
    errorOutput none time ⟨code, records.map Message.record ++ [m]⟩ = m.errorOutput none time := by
  rw [errorOutput_append, errorOutput_records, join_written_none, errorOutput_singleton,
    String.empty_append]

end Report
end ExprLexer.Cli

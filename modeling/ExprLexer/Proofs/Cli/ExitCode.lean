import ExprLexer.Proofs.Acceptance
import ExprLexer.Proofs.Cli.Batch
import ExprLexer.Proofs.Cli.Dialogue

namespace ExprLexer

theorem IsWellSpelled.ne_lineEnd {text : List Char} (h : IsWellSpelled text) :
    ∀ c ∈ text, c ≠ '\n' ∧ c ≠ '\r' := by
  intro c hc
  refine ⟨?_, ?_⟩ <;> rintro rfl <;> exact absurd (h.known _ hc) (by decide)

namespace Cli

/-- The file can be read, and holds a well-spelled text with any line ends at its end. -/
def IsLexable (content : Except ReadFailure ByteArray) : Prop :=
  ∃ text ending : List Char, content = .ok (String.ofList (text ++ ending)).toUTF8 ∧
    (∀ c ∈ ending, c = '\n' ∨ c = '\r') ∧ IsWellSpelled text

/-- There is no command, help is asked for, the command is none that there is, or a task has no files. -/
def AsksNothing (args : List String) : Prop :=
  args = [] ∨ args.head? = some "--help" ∨ args.head? = some "-h" ∨
    (∃ command ∈ args.head?, command ∉ ["tokens", "check", "repl"]) ∨
    args = ["tokens"] ∨ args = ["check"]

theorem trimLineEnds_of_isWellSpelled {text ending : List Char} (h : IsWellSpelled text)
    (hending : ∀ c ∈ ending, c = '\n' ∨ c = '\r') :
    Text.trimLineEnds (String.ofList (text ++ ending)) = String.ofList text := by
  have htrim : Text.TrimsTo (String.ofList (text ++ ending)) (String.ofList text) := by
    refine ⟨⟨String.ofList ending, String.ofList_append, by simpa using hending⟩, fun c hc => ?_⟩
    rw [String.toList_ofList] at hc
    exact h.ne_lineEnd c (List.mem_of_getLast? hc)
  exact (Text.trimsTo_iff.1 htrim).symm

theorem isLexable_iff (path text : String) :
    IsLexable (.ok text.toUTF8) ↔ (fileSource path text).IsAccepted := by
  rw [Source.isAccepted_iff_isWellSpelled]
  constructor
  · rintro ⟨chars, ending, h, hending, hspelled⟩
    obtain rfl : text = String.ofList (chars ++ ending) :=
      Text.toUTF8_injective (Except.ok.inj h)
    rwa [fileSource, trimLineEnds_of_isWellSpelled hspelled hending, String.toList_ofList]
  · intro h
    obtain ⟨ending, htext, hending⟩ := (Text.trimsTo_trimLineEnds text).ending
    refine ⟨_, ending.toList, ?_, hending, h⟩
    rw [fileSource, ← String.toList_append, ← htext, String.ofList_toList]

theorem FileRecord.exitCode {task : Task} {path out err : String}
    {content : Except ReadFailure ByteArray} {code : Nat}
    (h : FileRecord path task content code out err) :
    code = 0 ∧ IsLexable content ∨ code = 1 ∧ ¬ IsLexable content := by
  cases h with
  | unread =>
      refine .inr ⟨rfl, ?_⟩
      rintro ⟨text, ending, h, -⟩
      cases h
  | notText task hvalid =>
      refine .inr ⟨rfl, ?_⟩
      rintro ⟨text, ending, h, -⟩
      rw [Except.ok.inj h] at hvalid
      exact hvalid (Text.isValidUTF8_toUTF8 _)
  | refused task htrim hrun =>
      obtain rfl := Text.trimsTo_iff.1 htrim
      rw [isLexable_iff path]
      exact .inr ⟨rfl, Source.not_isAccepted_iff.2 ⟨_, hrun⟩⟩
  | listed htrim hrun | counted htrim hrun =>
      obtain rfl := Text.trimsTo_iff.1 htrim
      rw [isLexable_iff path]
      exact .inl ⟨rfl, _, hrun⟩

theorem exitCode_batch (task : Task) (read : String → Except ReadFailure ByteArray)
    (paths : List String) : (batch task read paths).exitCode ≤ 1 ∧
      ((batch task read paths).exitCode = 1 ↔ ∃ path ∈ paths, ¬ IsLexable (read path)) := by
  have record (path : String) : (fileReport task path (read path)).exitCode ≠ 0 ↔
      ¬ IsLexable (read path) := by
    rcases (fileRecord task path (read path) "").exitCode with ⟨hcode, h⟩ | ⟨hcode, h⟩ <;>
      simp [hcode, h]
  have hany : (paths.map fun path => fileReport task path (read path)).any (·.exitCode ≠ 0) ↔
      ∃ path ∈ paths, ¬ IsLexable (read path) := by
    simp only [List.any_map, List.any_eq_true, Function.comp_apply, decide_eq_true_eq, record]
  have hcode : (batch task read paths).exitCode =
      if (paths.map fun path => fileReport task path (read path)).any (·.exitCode ≠ 0) then 1
      else 0 := rfl
  rw [hcode, ← hany]
  split
  · rename_i h
    exact ⟨le_rfl, iff_of_true rfl h⟩
  · rename_i h
    exact ⟨Nat.zero_le 1, iff_of_false Nat.zero_ne_one h⟩

theorem exitCode_repl (lines : List (List UInt8)) : (repl lines).exitCode ≤ 1 ∧
    ((repl lines).exitCode = 1 ↔
      ∃ line ∈ lines, ¬ (ByteArray.mk line.toArray).IsValidUTF8) := by
  induction lines with
  | nil => simp [repl]
  | cons line lines ih =>
      by_cases hline : (ByteArray.mk line.toArray).IsValidUTF8
      · obtain ⟨text, htext⟩ := Text.exists_toUTF8_eq hline
        obtain rfl : Text.bytes text = line := Text.toUTF8_eq_iff.1 htext
        rw [repl_cons_bytes]
        simpa [hline] using ih
      · rw [repl_cons_of_not_valid hline]
        simp [hline]

theorem ofName?_of_ne_name {command : String} (h : ∀ task : Task, command ≠ task.name) :
    Task.ofName? command = none := by
  rw [Task.ofName?.eq_def]
  split
  · exact absurd rfl (h .tokens)
  · exact absurd rfl (h .check)
  · rfl

theorem asksNothing_of_ne_name {command : String} (paths : List String)
    (h : ∀ task : Task, command ≠ task.name) (hrepl : command ≠ "repl") :
    AsksNothing (command :: paths) := by
  refine .inr (.inr (.inr (.inl ⟨command, rfl, ?_⟩)))
  simp only [List.mem_cons, List.not_mem_nil, or_false, not_or]
  exact ⟨h .tokens, h .check, hrepl⟩

theorem exitCode_of_ne_name {command : String} (paths : List String)
    (h : ∀ task : Task, command ≠ task.name) (hrepl : command ≠ "repl")
    (read : String → Except ReadFailure ByteArray) (input : List UInt8) :
    (report (command :: paths) read input).exitCode = 2 := by
  rw [report, Request.ofArgs, if_neg hrepl, ofName?_of_ne_name h]
  by_cases hhelp : (command = "--help" || command = "-h")
  · rw [if_pos hhelp]
    rfl
  · rw [if_neg hhelp]
    rfl

theorem args_cases (args : List String) :
    (AsksNothing args ∧ ∀ read input, (report args read input).exitCode = 2) ∨
      (∃ (task : Task) (paths : List String), paths ≠ [] ∧ args = task.name :: paths) ∨
      ∃ rest, args = "repl" :: rest := by
  match args with
  | [] => exact .inl ⟨.inl rfl, fun _ _ => rfl⟩
  | command :: paths =>
      by_cases hrepl : command = "repl"
      · exact .inr (.inr ⟨paths, by rw [hrepl]⟩)
      · by_cases htask : ∃ task : Task, command = task.name
        · obtain ⟨task, rfl⟩ := htask
          cases paths with
          | nil =>
              refine .inl ⟨?_, ?_⟩
              · cases task <;> simp [AsksNothing, Task.name]
              · cases task <;> exact fun _ _ => rfl
          | cons path paths => exact .inr (.inl ⟨task, path :: paths, List.cons_ne_nil _ _, rfl⟩)
        · rw [not_exists] at htask
          exact .inl ⟨asksNothing_of_ne_name paths htask hrepl,
            exitCode_of_ne_name paths htask hrepl⟩

theorem not_asksNothing_task {task : Task} {paths : List String} (hne : paths ≠ []) :
    ¬ AsksNothing (task.name :: paths) := by
  cases task <;> simp [AsksNothing, Task.name, hne]

theorem not_asksNothing_repl (rest : List String) : ¬ AsksNothing ("repl" :: rest) := by
  simp [AsksNothing]

theorem Task.name_ne_repl (task : Task) : task.name ≠ "repl" := by
  cases task <;> decide

section

variable (read : String → Except ReadFailure ByteArray) (input : List UInt8)

theorem exitCode_task (task : Task) {paths : List String} (hne : paths ≠ []) :
    (report (task.name :: paths) read input).exitCode ≤ 1 ∧
      ((report (task.name :: paths) read input).exitCode = 1 ↔
        ∃ path ∈ paths, ¬ IsLexable (read path)) := by
  rw [report_task task hne]
  exact exitCode_batch task read paths

theorem exitCode_le_two (args : List String) : (report args read input).exitCode ≤ 2 := by
  rcases args_cases args with ⟨-, hcode⟩ | ⟨task, paths, hne, rfl⟩ | ⟨rest, rfl⟩
  · exact (hcode read input).le
  · exact (exitCode_task read input task hne).1.trans (by decide)
  · exact (exitCode_repl (Text.cutLines input)).1.trans (by decide)

theorem exitCode_eq_two_iff (args : List String) :
    (report args read input).exitCode = 2 ↔ AsksNothing args := by
  rcases args_cases args with ⟨hargs, hcode⟩ | ⟨task, paths, hne, rfl⟩ | ⟨rest, rfl⟩
  · exact iff_of_true (hcode read input) hargs
  · have := (exitCode_task read input task hne).1
    exact iff_of_false (by omega) (not_asksNothing_task hne)
  · have := (exitCode_repl (Text.cutLines input)).1
    rw [report_repl]
    exact iff_of_false (by omega) (not_asksNothing_repl rest)

theorem exitCode_eq_one_iff (args : List String) : (report args read input).exitCode = 1 ↔
    (∃ (task : Task) (paths : List String), args = task.name :: paths ∧
      ∃ path ∈ paths, ¬ IsLexable (read path)) ∨
    ∃ rest lines, args = "repl" :: rest ∧ Text.IsCut input lines ∧
      ∃ line ∈ lines, ¬ (ByteArray.mk line.toArray).IsValidUTF8 := by
  rcases args_cases args with ⟨hargs, hcode⟩ | ⟨task, paths, hne, rfl⟩ | ⟨rest, rfl⟩
  · rw [hcode]
    refine iff_of_false (by decide) ?_
    rintro (⟨task, paths, rfl, path, hpath, -⟩ | ⟨rest, lines, rfl, -⟩)
    · exact not_asksNothing_task (List.ne_nil_of_mem hpath) hargs
    · exact not_asksNothing_repl rest hargs
  · rw [(exitCode_task read input task hne).2]
    constructor
    · exact fun h => .inl ⟨task, paths, rfl, h⟩
    · rintro (⟨other, others, heq, h⟩ | ⟨rest, lines, heq, -⟩)
      · rwa [(List.cons.inj heq).2]
      · exact absurd (List.cons.inj heq).1 task.name_ne_repl
  · rw [report_repl, (exitCode_repl _).2]
    constructor
    · exact fun h => .inr ⟨rest, _, rfl, Text.isCut_cutLines input, h⟩
    · rintro (⟨task, paths, heq, -⟩ | ⟨-, lines, -, hcut, h⟩)
      · exact absurd (List.cons.inj heq).1.symm task.name_ne_repl
      · rwa [← hcut.eq_cutLines]

theorem exitCode_task_congr (s t : Task) {paths others : List String}
    (h : ∀ path, path ∈ paths ↔ path ∈ others) :
    (report (s.name :: paths) read input).exitCode =
      (report (t.name :: others) read input).exitCode := by
  by_cases hne : paths = []
  · subst hne
    obtain rfl : others = [] := List.eq_nil_iff_forall_not_mem.2 fun path hpath =>
      List.not_mem_nil ((h path).2 hpath)
    cases s <;> cases t <;> rfl
  · obtain ⟨path, hpath⟩ := List.exists_mem_of_ne_nil paths hne
    have hpaths := exitCode_task read input s hne
    have hothers := exitCode_task read input t (List.ne_nil_of_mem ((h path).1 hpath))
    simp only [← h] at hothers
    rw [← hpaths.2] at hothers
    omega

theorem exitCode_congr (command : String) {paths others : List String}
    (h : ∀ path, path ∈ paths ↔ path ∈ others) :
    (report (command :: paths) read input).exitCode =
      (report (command :: others) read input).exitCode := by
  by_cases hrepl : command = "repl"
  · rw [hrepl, report_repl, report_repl]
  · by_cases htask : ∃ task : Task, command = task.name
    · obtain ⟨task, rfl⟩ := htask
      exact exitCode_task_congr read input task task h
    · rw [not_exists] at htask
      rw [exitCode_of_ne_name paths htask hrepl, exitCode_of_ne_name others htask hrepl]

end

/-- The exit code is told by the first argument, by whether the files are as they have to be, and by
whether the lines are texts. -/
theorem exitCode_report (args : List String) (read : String → Except ReadFailure ByteArray)
    (input : List UInt8) :
    ((report args read input).exitCode = 2 ↔ AsksNothing args) ∧
    ((report args read input).exitCode = 1 ↔
      (∃ (task : Task) (paths : List String), args = task.name :: paths ∧
        ∃ path ∈ paths, ¬ IsLexable (read path)) ∨
      ∃ rest lines, args = "repl" :: rest ∧ Text.IsCut input lines ∧
        ∃ line ∈ lines, ¬ (ByteArray.mk line.toArray).IsValidUTF8) ∧
    (report args read input).exitCode ≤ 2 ∧
    (∀ paths, (report ("tokens" :: paths) read input).exitCode =
      (report ("check" :: paths) read input).exitCode) ∧
    ∀ command paths others, (∀ path : String, path ∈ paths ↔ path ∈ others) →
      (report (command :: paths) read input).exitCode =
        (report (command :: others) read input).exitCode :=
  ⟨exitCode_eq_two_iff read input args, exitCode_eq_one_iff read input args,
    exitCode_le_two read input args, fun _ => exitCode_task_congr read input .tokens .check fun _ => Iff.rfl,
    fun command _ _ h => exitCode_congr read input command h⟩

end Cli
end ExprLexer

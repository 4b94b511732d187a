import ExprLexer.Proofs.Trace.Emission
import ExprLexer.Trace.Log

namespace ExprLexer

namespace Trace

theorem LogFilter.admits_all (target : String) (level : Level) :
    admits ⟨"", some .trace⟩ target level = true := by
  cases level <;> rfl

namespace Record

def text (time : String) (r : Record) : String := r.line ⟨"", some .trace⟩ time

/-- What a filter leaves of a record. -/
def kept (f : LogFilter) (r : Record) : Option Record :=
  if f.admits r.event.target r.event.level then
    some ⟨r.scope.filter fun a => f.admits a.target .debug, r.event⟩
  else none

def withoutRun (r : Record) : Record := ⟨r.scope.filter fun a => a.name ≠ "run", r.event⟩

theorem written_eq (filter : Option LogFilter) (time : String) (r : Record) :
    r.written filter time = ((filter.bind r.kept).map (text time)).getD "" := by
  cases filter with
  | none => rfl
  | some f =>
      rw [written, Option.bind_some, kept]
      split
      · simp only [Option.map_some, Option.getD_some, text, line, LogFilter.admits_all,
          List.filter_true]
      · rfl

end Record

theorem Event.level_mem (e : Event) : e.level ∈ [Level.debug, .trace] := by
  cases e <;> simp [level]

theorem Activity.target_mem (a : Activity) : a.target ∈ ["arith_lex", "arith_lex::lexer"] := by
  cases a <;> simp [target]

namespace LogFilter

theorem kept_of_full {setting : String} (h : setting ∈ ["trace", "arith_lex=trace"]) (r : Record) :
    r.kept (ofText setting) = some r := by
  have hall : ∀ setting ∈ ["trace", "arith_lex=trace"],
      ∀ target ∈ ["arith_lex", "arith_lex::lexer"], ∀ level ∈ [Level.debug, .trace],
        (ofText setting).admits target level = true := by decide
  have hscope : ∀ a ∈ r.scope, (ofText setting).admits a.target .debug = true :=
    fun a _ => hall setting h _ a.target_mem _ (by decide)
  have hevent : (ofText setting).admits r.event.target r.event.level = true :=
    hall setting h _ (List.mem_cons_of_mem _ (List.mem_singleton.2 rfl)) _ r.event.level_mem
  rw [Record.kept, if_pos hevent, List.filter_eq_self.2 hscope]

def quietSettings : List (Option String) :=
  [none, some "", some "off", some "error", some "warn", some "info", some "arith_lex=info",
    some "other=trace"]

theorem kept_of_quiet {setting : Option String} (h : setting ∈ quietSettings) (r : Record) :
    (setting.map ofText).bind r.kept = none := by
  have hnone : ∀ setting ∈ quietSettings, ∀ f ∈ setting.map ofText,
      ∀ level ∈ [Level.debug, .trace], f.admits "arith_lex::lexer" level = false := by decide
  cases setting with
  | none => rfl
  | some setting =>
      have hevent : (ofText setting).admits r.event.target r.event.level = false :=
        hnone _ h _ rfl _ r.event.level_mem
      rw [Option.map_some, Option.bind_some, Record.kept, hevent]
      rfl

theorem kept_debug (target : String) (r : Record) : r.kept ⟨target, some .debug⟩ =
    (r.kept ⟨target, some .trace⟩).filter fun r => r.event.level = .debug := by
  have hscope (a : Activity) : admits ⟨target, some .debug⟩ a.target .debug =
      admits ⟨target, some .trace⟩ a.target .debug := rfl
  rw [Record.kept, Record.kept, funext hscope]
  rcases List.mem_pair.1 r.event.level_mem with hlevel | hlevel
  · have hevent : admits ⟨target, some .debug⟩ r.event.target r.event.level =
        admits ⟨target, some .trace⟩ r.event.target r.event.level := by
      rw [hlevel]
      rfl
    rw [hevent]
    split
    · rw [Option.filter_some, if_pos (decide_eq_true hlevel)]
    · rfl
  · have hevent : admits ⟨target, some .debug⟩ r.event.target r.event.level = false := by
      rw [hlevel]
      exact Bool.and_false _
    rw [hevent, if_neg Bool.false_ne_true]
    split
    · rw [Option.filter_some, if_neg (by simp [hlevel])]
    · rfl

theorem kept_lexer (level : Option Level) (r : Record) : r.kept ⟨"arith_lex::lexer", level⟩ =
    (r.kept ⟨"arith_lex", level⟩).map Record.withoutRun := by
  have hscope (a : Activity) : admits ⟨"arith_lex::lexer", level⟩ a.target .debug =
      (decide (a.name ≠ "run") && admits ⟨"arith_lex", level⟩ a.target .debug) := by
    cases a <;> simp [admits, Activity.target, Activity.name]
  have hevent : admits ⟨"arith_lex::lexer", level⟩ r.event.target r.event.level =
      admits ⟨"arith_lex", level⟩ r.event.target r.event.level := by
    simp [admits, Event.target]
  rw [Record.kept, Record.kept, hevent]
  split
  · rw [Option.map_some, Record.withoutRun, List.filter_filter, funext hscope]
  · rfl

end LogFilter

/-- The records of one text: one at the level TRACE for each token that its run tells of, by their offsets,
and one at the level DEBUG after them. -/
def IsBlock (source : Source) (records : List Record) : Prop :=
  ∃ tokens closing, Tells source tokens closing ∧
    tokens.Pairwise (fun t u => t.span.start.offset < u.span.start.offset) ∧
    (records.map fun r => (Entry.event r.event).heard) = tokens.map heardToken ++ [closing] ∧
    (records.map fun r => r.event.level) = List.replicate tokens.length .trace ++ [.debug] ∧
    ∀ r ∈ records, r.scope = [.run source, .tokenize source]

theorem isBlock_records (source : Source) : IsBlock source (records source) := by
  obtain ⟨tokens, closing, htells, hevents⟩ := exists_tells source
  have hheard : ((records source).map fun r => (Entry.event r.event).heard) =
      tokens.map heardToken ++ [closing] := by
    rw [← hevents, records, List.map_map]
    rfl
  refine ⟨tokens, closing, htells, htells.pairwise_start, hheard, ?_, ?_⟩
  · have hlevel : (fun r : Record => r.event.level) =
        Heard.level ∘ fun r => (Entry.event r.event).heard := funext fun r => rfl
    have htokens : tokens.map (Heard.level ∘ heardToken) = List.replicate tokens.length .trace :=
      List.map_const'
    rw [hlevel, ← List.map_map, hheard, List.map_append, List.map_map, htokens, List.map_singleton,
      htells.level_closing]
  · intro r hr
    obtain ⟨e, -, rfl⟩ := List.mem_map.1 hr
    rfl

theorem Record.text_withoutRun {source : Source} {r : Record}
    (h : r.scope = [.run source, .tokenize source]) (time : String) : ∃ rest,
    r.text time = time ++ " " ++ r.event.level.tag ++ " " ++
      ((Activity.run source).toText ++ ":") ++ rest ∧
    r.withoutRun.text time = time ++ " " ++ r.event.level.tag ++ " " ++ rest := by
  have hwithout : r.withoutRun.scope = [.tokenize source] := by
    rw [withoutRun, h]
    rfl
  have hfull : String.intercalate ":" [(Activity.run source).toText, (Activity.tokenize source).toText] =
      (Activity.run source).toText ++ ":" ++ (Activity.tokenize source).toText := by simp
  have hone : String.intercalate ":" [(Activity.tokenize source).toText] =
      (Activity.tokenize source).toText := by simp
  refine ⟨(Activity.tokenize source).toText ++ ": " ++ r.event.target ++ ": " ++ r.event.message ++
    " " ++ fieldsText r.event.fields ++ "\n", ?_, ?_⟩
  · simp only [text, line, LogFilter.admits_all, List.filter_true, h, List.isEmpty_cons,
      Bool.false_eq_true, if_false, List.map_cons, List.map_nil, hfull, String.append_assoc]
  · simp only [text, line, LogFilter.admits_all, List.filter_true, hwithout, List.isEmpty_cons,
      Bool.false_eq_true, if_false, List.map_cons, List.map_nil, hone, String.append_assoc]
    rfl

end Trace
end ExprLexer

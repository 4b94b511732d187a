import ExprLexer.Proofs.Quoted
import ExprLexer.Proofs.Refusal
import ExprLexer.Trace.Basic

namespace ExprLexer

/-- One call as it goes on, after the tokens read so far: the events in the order in which the loop emits
them, what it returns, and the lexer that it leaves. -/
inductive Lexer.Emits :
    List Token → Lexer → List Trace.Event → Outcome → Lexer → Prop
  | finished {tokens : List Token} {l : Lexer} : l.unread = [] →
      Emits tokens l [.tokenized tokens.length] (.ok tokens) l
  | blank {tokens : List Token} {l last : Lexer} {c : Char} {rest : List Char}
      {events : List Trace.Event} {outcome : Outcome} : l.unread = c :: rest → isBlank c →
      Emits tokens l.advance events outcome last → Emits tokens l events outcome last
  | token {tokens : List Token} {l next last : Lexer} {c : Char} {rest : List Char} {t : Token}
      {events : List Trace.Event} {outcome : Outcome} : l.unread = c :: rest → isBlank c = false →
      l.takeToken? = some (t, next) → Emits (tokens ++ [t]) next events outcome last →
      Emits tokens l (.token t :: events) outcome last
  | refused {tokens : List Token} {l : Lexer} {c : Char} {rest : List Char} :
      l.unread = c :: rest → isBlank c = false → l.takeToken? = none →
      Emits tokens l [.illegalCharacter c l.position] (.error (l.refuse c)) l.advance

namespace Lexer

variable {tokens : List Token} {l last : Lexer} {events : List Trace.Event} {outcome : Outcome}

/-- What the loop emits and returns is what a scan that goes on from there tells and comes to. -/
theorem Emits.scanAfter_eq (h : Emits tokens l events outcome last) :
    (l.scanAfter tokens.reverse).events = tokens.map .token ++ events ∧
      (l.scanAfter tokens.reverse).outcome = outcome ∧
      (l.scanAfter tokens.reverse).lexer = last := by
  induction h with
  | finished hend =>
      rw [scanAfter_end _ hend, List.reverse_reverse]
      exact ⟨rfl, rfl, rfl⟩
  | blank hunread hblank _ ih => rwa [scanAfter_blank _ hunread hblank]
  | @token tokens l next last c rest t events outcome hunread hblank htake _ ih =>
      rw [List.reverse_concat, List.map_append, List.append_assoc] at ih
      rwa [scanAfter_token _ hunread hblank htake]
  | refused hunread hblank htake =>
      rw [scanAfter_illegal _ hunread hblank htake, List.reverse_reverse]
      exact ⟨rfl, rfl, rfl⟩

theorem exists_emits (tokens : List Token) (l : Lexer) :
    ∃ events outcome last, Emits tokens.reverse l events outcome last := by
  fun_induction scanAfter tokens l with
  | case1 tokens l hend => exact ⟨_, _, _, .finished hend⟩
  | case2 tokens l c rest hunread hblank ih =>
      obtain ⟨events, outcome, last, h⟩ := ih
      exact ⟨_, _, _, .blank hunread hblank h⟩
  | case3 tokens l c rest hunread hblank t next htake ih =>
      obtain ⟨events, outcome, last, h⟩ := ih
      rw [List.reverse_cons] at h
      exact ⟨_, _, _, .token hunread (by simpa using hblank) htake h⟩
  | case4 tokens l c rest hunread hblank htake =>
      exact ⟨_, _, _, .refused hunread (by simpa using hblank) htake⟩

theorem emits_iff : Emits [] l events outcome last ↔
    events = l.scan.events ∧ outcome = l.tokenize.1 ∧ last = l.tokenize.2 := by
  constructor
  · intro h
    obtain ⟨hevents, houtcome, hlast⟩ := h.scanAfter_eq
    exact ⟨hevents.symm, houtcome.symm, hlast.symm⟩
  · rintro ⟨rfl, rfl, rfl⟩
    obtain ⟨events, outcome, last, h⟩ := exists_emits [] l
    obtain ⟨hevents, houtcome, hlast⟩ := h.scanAfter_eq
    have hscan : l.scan.events = events := hevents
    have hrun : l.tokenize = (outcome, last) := Prod.ext houtcome hlast
    rwa [hscan, hrun]

end Lexer

namespace Trace

/-- What a subscriber hears: an activity that is made, entered or left, or an event with its fields. -/
inductive Heard where
  | opened (name target : String) (fields : Fields)
  | entered (name : String)
  | exited (name : String)
  | event (message : String) (level : Level) (target : String) (fields : Fields)

def Heard.level : Heard → Level
  | event _ level _ _ => level
  | _ => .debug

def Entry.heard : Entry → Heard
  | opened a => .opened a.name a.target a.fields
  | entered a => .entered a.name
  | exited a => .exited a.name
  | event e => .event e.message e.level e.target e.fields

theorem level_heard (e : Entry) : e.heard.level = e.level := by
  cases e <;> rfl

theorem heard_visible (limit : Level) (entries : List Entry) :
    (visible limit entries).map Entry.heard =
      (entries.map Entry.heard).filter fun h => h.level.rank ≤ limit.rank := by
  rw [visible, List.filter_map]
  congr 1
  refine List.filter_congr fun e _ => ?_
  rw [Function.comp_apply, level_heard]
  rfl

theorem visible_trace (entries : List Entry) : visible .trace entries = entries := by
  refine List.filter_eq_self.2 fun e _ => ?_
  rcases e with _ | _ | _ | ⟨_ | _ | _⟩ <;> rfl

theorem debug_le_level (e : Entry) : Level.debug.rank ≤ e.level.rank := by
  rcases e with _ | _ | _ | ⟨_ | _ | _⟩ <;> simp [Entry.level, Event.level, Level.rank]

theorem visible_of_le_info {limit : Level} (h : limit.rank ≤ Level.info.rank)
    (entries : List Entry) : visible limit entries = [] := by
  refine List.filter_eq_nil_iff.2 fun e _ => ?_
  have hbelow : Level.info.rank < Level.debug.rank := by decide
  have hlevel := debug_le_level e
  rw [Level.admits, decide_eq_true_eq]
  omega

def heardToken (t : Token) : Heard :=
  .event "token" .trace "arith_lex::lexer"
    [("token", .plain t.toText), ("offset", .count t.span.start.offset)]

def heardRun (source : Source) (tokens : List Token) (closing : Heard) : List Heard :=
  [.opened "run" "arith_lex"
      [("source_name", .quoted source.name), ("len", .count source.text.utf8ByteSize)],
    .entered "run",
    .opened "tokenize" "arith_lex::lexer"
      [("source", .plain source.name), ("len", .count source.text.toList.length)],
    .entered "tokenize"] ++
  (tokens.map heardToken ++ [closing]) ++ [.exited "tokenize", .exited "run"]

/-- The tokens that a run tells of and how it closes, told by what runs return. A refused run tells of the
tokens of the text before the refused character. -/
inductive Tells (source : Source) : List Token → Heard → Prop
  | tokenized {tokens : List Token} : run source = .ok tokens →
      Tells source tokens (.event "tokenized" .debug "arith_lex::lexer"
        [("count", .count tokens.length)])
  | refused {tokens : List Token} {c : Char} {span : Span} :
      run source = .error ⟨.illegalCharacter c, span⟩ →
      run (source.front span.start.offset) = .ok tokens →
      Tells source tokens (.event "illegal character" .debug "arith_lex::lexer"
        [("ch", .plain (Text.quoteChar c)), ("offset", .count span.start.offset),
          ("line", .count span.start.line)])

end Trace

namespace Split

theorem heard_tokensAt (s : Split) (p q : Position) (h : p.offset = q.offset) :
    (s.tokensAt p).map Trace.heardToken = (s.tokensAt q).map Trace.heardToken := by
  induction s generalizing p q with
  | last gap => rfl
  | piece gap x s ih =>
      rw [tokensAt, tokensAt, List.map_cons, List.map_cons,
        ih _ (q.forward (gap.chars.length + x.chars.length)) (by simp [h])]
      simp [Trace.heardToken, Lexeme.tokenAt, Token.toText, h]

/-- A scan tells of the lexemes that it reads, and then of how it ends. -/
theorem Reads.tells {s : Split} {source : Source} {following : List Char}
    (h : s.Reads source.text.toList following) : ∃ tokens,
    tokens.map Trace.heardToken = (s.tokensAt (.start source)).map Trace.heardToken ∧
      Trace.Tells source tokens
        (Trace.Entry.event (s.scanAt (.start source) following).closing).heard := by
  cases following with
  | nil => exact ⟨_, rfl, .tokenized (h.run_ok rfl)⟩
  | cons c rest =>
      -- the text in front of the refused character is read in the same way
      have hfront : s.Reads (source.front s.chars.length).text.toList [] := by
        rw [Source.toList_front, h.chars_append, List.take_left]
        exact h.of_chars
      have hrun : run source = .error (source.refusal s.chars.length c) :=
        run_eq_error_iff_reads.2 ⟨s, c, rest, h, rfl⟩
      have hclosing : (s.scanAt (.start source) (c :: rest)).closing =
          .illegalCharacter c (source.refusal s.chars.length c).span.start := by
        rw [← refusalAt_start]
        rfl
      refine ⟨s.tokensAt (.start (source.front s.chars.length)), s.heard_tokensAt _ _ rfl, ?_⟩
      rw [hclosing]
      exact .refused hrun (hfront.run_ok rfl)

end Split

theorem pairwise_start_of_run {source : Source} {tokens : List Token} (h : run source = .ok tokens) :
    tokens.Pairwise fun t u => t.span.start.offset < u.span.start.offset := by
  obtain ⟨s, -, rfl⟩ := Split.run_eq_ok_iff_reads.1 h
  refine (s.tokensAt_pairwise _).imp_of_mem fun ht _ hapart => ?_
  exact Nat.lt_of_lt_of_le (s.tokensAt_bounds _ ht).2.1 hapart

namespace Trace

theorem Tells.pairwise_start {source : Source} {tokens : List Token} {closing : Heard}
    (h : Tells source tokens closing) :
    tokens.Pairwise fun t u => t.span.start.offset < u.span.start.offset := by
  cases h with
  | tokenized hrun => exact pairwise_start_of_run hrun
  | refused _ hfront => exact pairwise_start_of_run hfront

theorem Tells.level_closing {source : Source} {tokens : List Token} {closing : Heard}
    (h : Tells source tokens closing) : closing.level = .debug := by
  cases h <;> rfl

theorem exists_tells (source : Source) : ∃ tokens closing, Tells source tokens closing ∧
    ((Lexer.ofSource source).scan.events.map fun e => (Entry.event e).heard) =
      tokens.map heardToken ++ [closing] := by
  obtain ⟨s, following, hs⟩ := Split.exists_reads source.text.toList
  obtain ⟨tokens, htokens, htells⟩ := hs.tells
  have hscan : (Lexer.ofSource source).scan = s.scanAt (.start source) following :=
    Split.Reads.scan_eq (l := .ofSource source) hs
  have hread : (s.scanAt (.start source) following).tokens = s.tokensAt (.start source) := by
    cases following <;> rfl
  refine ⟨tokens, _, htells, ?_⟩
  rw [hscan, Scan.events, hread, htokens, List.map_append, List.map_map]
  rfl

end Trace

/-- What a run tells goes with what it returns. It tells of the tokens that it returns, or if it refuses a
character of those that it returns for the text before it, and closes once; all this stands in the two
activities. A subscriber hears of it what its level admits, which is nothing at the level of an information
and below. The events are those that the loop emits, in its order. How a refused character is shown tells
which one it is. -/
theorem heard_traceRun (source : Source) :
    (∃ tokens closing, Trace.Tells source tokens closing ∧ ∀ limit : Trace.Level,
      (Trace.visible limit (traceRun source)).map Trace.Entry.heard =
        (Trace.heardRun source tokens closing).filter fun h => h.level.rank ≤ limit.rank) ∧
    Trace.visible .trace (traceRun source) = traceRun source ∧
    (∀ limit ∈ [Trace.Level.error, .warn, .info], Trace.visible limit (traceRun source) = []) ∧
    (∀ c d, Text.quoteChar c = Text.quoteChar d ↔ c = d) ∧
    ∃ events last, Lexer.Emits [] (.ofSource source) events (run source) last ∧
      traceRun source =
        Trace.within (.run source) (Trace.within (.tokenize source) (events.map .event)) := by
  refine ⟨?_, Trace.visible_trace _, ?_, fun c d => Text.quoteChar_inj, ?_⟩
  · obtain ⟨tokens, closing, htells, hevents⟩ := Trace.exists_tells source
    refine ⟨tokens, closing, htells, fun limit => ?_⟩
    rw [Trace.heard_visible, Trace.heardRun, ← hevents, traceRun, Lexer.trace]
    congr 1
    simp only [Trace.within, List.map_append, List.map_cons, List.map_map, List.cons_append,
      List.append_assoc]
    rfl
  · intro limit hlimit
    apply Trace.visible_of_le_info
    simp only [List.mem_cons, List.not_mem_nil, or_false] at hlimit
    rcases hlimit with rfl | rfl | rfl <;> decide
  · exact ⟨_, _, Lexer.emits_iff.2 ⟨rfl, rfl, rfl⟩, rfl⟩

end ExprLexer

import ExprLexer.Proofs.Concatenation

namespace ExprLexer

/-- The stretch between two texts is of number characters, and none goes on with it on either side. -/
structure IsNumberRun (before run after : List Char) : Prop where
  ne_nil : run ≠ []
  areNumberChars : ∀ c ∈ run, isNumberChar c
  before_last : ∀ c ∈ before.getLast?, isNumberChar c = false
  after_head : ∀ c ∈ after.head?, isNumberChar c = false

/-- All characters are known, and each stretch of digits and points starts with a digit and has one
point at most. -/
structure IsWellSpelled (text : List Char) : Prop where
  known : ∀ c ∈ text, c.isDigit ∨ c ∈ [' ', '\t', '.', '+', '-', '*', '/', '(', ')']
  runs : ∀ before run after, text = before ++ (run ++ after) → IsNumberRun before run after →
    (∃ c ∈ run.head?, c.isDigit) ∧ run.count '.' ≤ 1

theorem IsNumberRun.of_append {a b before run after : List Char} (h : IsNumberRun before run after)
    (hab : a ++ b = before ++ (run ++ after)) (hseam : Apart a b) :
    (∃ rest, a = before ++ (run ++ rest) ∧ IsNumberRun before run rest) ∨
      ∃ front, b = front ++ (run ++ after) ∧ IsNumberRun front run after := by
  rcases List.append_eq_append_iff.1 hab with ⟨front, hbefore, hb⟩ | ⟨tail, ha, htail⟩
  · refine .inr ⟨front, hb, h.ne_nil, h.areNumberChars, fun c hc => ?_, h.after_head⟩
    apply h.before_last
    rw [hbefore, List.getLast?_append, Option.mem_def.1 hc]
    rfl
  · rcases List.append_eq_append_iff.1 htail with ⟨rest, hrest, hafter⟩ | ⟨last, hrun, hb⟩
    · refine .inl ⟨rest, by rw [ha, hrest], h.ne_nil, h.areNumberChars, h.before_last, ?_⟩
      intro c hc
      apply h.after_head
      rw [hafter, List.head?_append, Option.mem_def.1 hc]
      rfl
    · -- the stretch begins before the seam and ends after it, or one of these parts is empty
      by_cases hne : last = []
      · refine .inl ⟨[], by rw [ha, hrun, hne]; simp, h.ne_nil, h.areNumberChars, h.before_last, ?_⟩
        simp
      · by_cases htail : tail = []
        · refine .inr ⟨[], by rw [hb, hrun, htail]; rfl, h.ne_nil, h.areNumberChars, ?_, h.after_head⟩
          simp
        · have hlast := h.areNumberChars _ (hrun ▸ List.mem_append_left last (List.getLast_mem htail))
          have hhead := h.areNumberChars _ (hrun ▸ List.mem_append_right tail (List.head_mem hne))
          refine absurd ⟨⟨_, ?_, hlast⟩, _, ?_, hhead⟩ hseam
          · rw [ha, List.getLast?_append, List.getLast?_eq_some_getLast htail]
            rfl
          · rw [hb, List.head?_append, List.head?_eq_some_head hne]
            rfl

theorem IsWellSpelled.append {a b : List Char} (ha : IsWellSpelled a) (hb : IsWellSpelled b)
    (hseam : Apart a b) : IsWellSpelled (a ++ b) := by
  refine ⟨List.forall_mem_append.2 ⟨ha.known, hb.known⟩, ?_⟩
  intro before run after hab h
  rcases h.of_append hab hseam with ⟨rest, hrest, h⟩ | ⟨front, hfront, h⟩
  · exact ha.runs _ _ _ hrest h
  · exact hb.runs _ _ _ hfront h

theorem isWellSpelled_of_no_number {text : List Char}
    (known : ∀ c ∈ text, c ∈ [' ', '\t', '+', '-', '*', '/', '(', ')']) : IsWellSpelled text := by
  have other : ∀ c ∈ [' ', '\t', '+', '-', '*', '/', '(', ')'], isNumberChar c = false := by
    simp [isNumberChar]
  have kept : [' ', '\t', '+', '-', '*', '/', '(', ')'] ⊆
      [' ', '\t', '.', '+', '-', '*', '/', '(', ')'] := by decide
  refine ⟨fun c hc => .inr (kept (known c hc)), fun before run after htext h => ?_⟩
  obtain ⟨c, rest, rfl⟩ := List.exists_cons_of_ne_nil h.ne_nil
  have hnumber := h.areNumberChars c List.mem_cons_self
  rw [other c (known c (by simp [htext]))] at hnumber
  cases hnumber

theorem isWellSpelled_of_number {text : List Char} (hall : ∀ c ∈ text, isNumberChar c)
    (hhead : ∃ c ∈ text.head?, c.isDigit) (hcount : text.count '.' ≤ 1) : IsWellSpelled text := by
  refine ⟨fun c hc => ?_, fun before run after htext h => ?_⟩
  · have hnumber := hall c hc
    rw [isNumberChar, Bool.or_eq_true, decide_eq_true_eq] at hnumber
    exact hnumber.imp_right (by rintro rfl; decide)
  · have hbefore : before = [] := by
      by_contra hne
      have hlast := h.before_last _ (List.getLast?_eq_some_getLast hne)
      rw [hall _ (by rw [htext]; exact List.mem_append_left _ (List.getLast_mem hne))] at hlast
      cases hlast
    have hafter : after = [] := by
      by_contra hne
      have hfirst := h.after_head _ (List.head?_eq_some_head hne)
      rw [hall _ (by rw [htext]; simp)] at hfirst
      cases hfirst
    obtain rfl : text = run := by simpa [hbefore, hafter] using htext
    exact ⟨hhead, hcount⟩

theorem split_around_point (front back : List Char) : front ++ '.' :: back =
    front.rdropWhile isNumberChar ++ ((front.rtakeWhile isNumberChar ++
      '.' :: back.takeWhile isNumberChar) ++ back.dropWhile isNumberChar) := by
  have hfront := List.rdropWhile_append_rtakeWhile (p := isNumberChar) (l := front)
  have hback := List.takeWhile_append_dropWhile (p := isNumberChar) (l := back)
  rw [List.append_assoc, List.cons_append, hback, ← List.append_assoc, hfront]

theorem isNumberRun_around_point (front back : List Char) :
    IsNumberRun (front.rdropWhile isNumberChar)
      (front.rtakeWhile isNumberChar ++ '.' :: back.takeWhile isNumberChar)
      (back.dropWhile isNumberChar) := by
  refine ⟨by simp, ?_, ?_, ?_⟩
  · intro c hc
    rcases List.mem_append.1 hc with hc | hc
    · exact List.mem_rtakeWhile_imp hc
    · rcases List.mem_cons.1 hc with rfl | hc
      · rfl
      · exact List.mem_takeWhile_imp hc
  · intro c hc
    have hne := List.ne_nil_of_mem (List.mem_of_getLast? hc)
    rw [List.getLast?_eq_some_getLast hne] at hc
    obtain rfl := Option.some.inj hc
    exact Bool.eq_false_iff.2 (List.rdropWhile_last_not isNumberChar front hne)
  · intro c hc
    have := List.head?_dropWhile_not isNumberChar back
    rw [Option.mem_def.1 hc] at this
    simpa using this

theorem rtakeWhile_append_of_forall {p : Char → Bool} (front : List Char) {back : List Char}
    (h : ∀ c ∈ back, p c) : (front ++ back).rtakeWhile p = front.rtakeWhile p ++ back := by
  rw [List.rtakeWhile, List.rtakeWhile, List.reverse_append,
    List.takeWhile_append_of_pos (by simpa using h), List.reverse_append, List.reverse_reverse]

theorem symbol_mem {c : Char} {kind : Kind} (names : (c, kind) ∈ symbolKinds) :
    c ∈ ['+', '-', '*', '/', '(', ')'] :=
  List.mem_map_of_mem (f := Prod.fst) names

theorem isNumberChar_symbol {c : Char} {kind : Kind} (names : (c, kind) ∈ symbolKinds) :
    isNumberChar c = false := by
  have other : ∀ c ∈ ['+', '-', '*', '/', '(', ')'], isNumberChar c = false := by
    simp [isNumberChar]
  exact other c (symbol_mem names)

theorem isNumberChar_blank {c : Char} (h : isBlank c) : isNumberChar c = false := by
  rcases isBlank_iff.1 h with rfl | rfl <;> rfl

theorem Lexeme.isWellSpelled (x : Lexeme) : IsWellSpelled x.chars := by
  cases x with
  | symbol c kind names =>
      apply isWellSpelled_of_no_number
      intro d hd
      rw [List.mem_singleton.1 hd]
      exact List.mem_cons_of_mem _ (List.mem_cons_of_mem _ (symbol_mem names))
  | whole digits nonempty areDigits =>
      refine isWellSpelled_of_number (fun c hc => isNumberChar_of_mem_chars
        (x := .whole digits nonempty areDigits) rfl hc) ?_ ?_
      · exact ⟨_, List.head?_eq_some_head nonempty, areDigits _ (List.head_mem nonempty)⟩
      · rw [chars, List.count_eq_zero.2 (point_notMem_digits areDigits)]
        exact Nat.zero_le 1
  | pointed digits fraction nonempty areDigits fractionDigits =>
      refine isWellSpelled_of_number (fun c hc => isNumberChar_of_mem_chars
        (x := .pointed digits fraction nonempty areDigits fractionDigits) rfl hc) ?_ ?_
      · refine ⟨digits.head nonempty, ?_, areDigits _ (List.head_mem nonempty)⟩
        rw [chars, List.head?_append, List.head?_eq_some_head nonempty]
        rfl
      · rw [chars, List.count_append, List.count_cons_self,
          List.count_eq_zero.2 (point_notMem_digits areDigits),
          List.count_eq_zero.2 (point_notMem_digits fractionDigits)]

namespace Split

theorem head?_chars (s : Split) : ∀ c ∈ s.chars.head?, c ≠ '.' := by
  have blank {c : Char} (h : c = ' ' ∨ c = '\t') : c ≠ '.' := by
    rintro rfl
    exact absurd h (by decide)
  rintro c hc
  cases s with
  | last gap => exact blank (gap.areBlank c (List.mem_of_head? hc))
  | piece gap x s =>
      rw [chars, List.head?_append, Option.mem_def, Option.or_eq_some_iff] at hc
      rcases hc with hc | ⟨-, hc⟩
      · exact blank (gap.areBlank c (List.mem_of_head? hc))
      · obtain ⟨d, rest, hd, -, hlegal⟩ := x.head_chars
        rw [hd] at hc
        obtain rfl : d = c := Option.some.inj hc
        rintro rfl
        exact absurd hlegal (by decide)

theorem apart_of_endsBefore {x : Lexeme} {s : Split} (h : x.EndsBefore s.chars) :
    Apart x.chars s.chars := by
  rintro ⟨⟨c, hc, hnumber⟩, d, hd, hnext⟩
  rw [isNumberChar, Bool.or_eq_true, decide_eq_true_eq] at hnext
  cases x with
  | symbol e kind names =>
      obtain rfl : e = c := Option.some.inj hc
      rw [isNumberChar_symbol names] at hnumber
      cases hnumber
  | whole => simp [h d hd] at hnext
  | pointed => simp [h d hd, s.head?_chars d hd] at hnext

theorem apart_gap (gap : Gap) (text : List Char) : Apart gap.chars text := by
  rintro ⟨⟨c, hc, hnumber⟩, -⟩
  rw [isNumberChar_blank (gap.isBlank_of_mem (List.mem_of_getLast? hc))] at hnumber
  cases hnumber

theorem isWellSpelled {s : Split} (hs : s.IsMaximal []) : IsWellSpelled s.chars := by
  have hgap (gap : Gap) : IsWellSpelled gap.chars := by
    apply isWellSpelled_of_no_number
    intro c hc
    rcases gap.areBlank c hc with rfl | rfl <;> decide
  induction s with
  | last gap => exact hgap gap
  | piece gap x s ih =>
      have hx : x.EndsBefore s.chars := by simpa using hs.1
      exact (hgap gap).append (x.isWellSpelled.append (ih hs.2) (apart_of_endsBefore hx))
        (apart_gap gap _)

theorem exists_pointed_of_getLast {s : Split} {rest : List Char} (hs : s.IsMaximal ('.' :: rest))
    (hlast : ∃ c ∈ s.chars.getLast?, isNumberChar c) : ∃ front number,
      s.chars = front ++ number ∧ '.' ∈ number ∧ ∀ c ∈ number, isNumberChar c := by
  induction s with
  | last gap => exact absurd ⟨hlast, '.', rfl, rfl⟩ (apart_gap gap ['.'])
  | piece gap x s ih =>
      cases hchars : s.chars with
      | nil =>
          have hx : x.EndsBefore ('.' :: rest) := by simpa [hchars] using hs.1
          rw [chars, hchars, List.append_nil] at hlast ⊢
          cases x with
          | symbol e kind names =>
              obtain ⟨c, hc, hnumber⟩ := hlast
              obtain rfl : e = c := by simpa [Lexeme.chars] using hc
              rw [isNumberChar_symbol names] at hnumber
              cases hnumber
          | whole => exact absurd rfl (hx '.' rfl).2
          | pointed digits fraction nonempty areDigits fractionDigits =>
              refine ⟨gap.chars, _, rfl, by simp [Lexeme.chars], fun c hc => ?_⟩
              exact Lexeme.isNumberChar_of_mem_chars
                (x := .pointed digits fraction nonempty areDigits fractionDigits) rfl hc
      | cons d more =>
          obtain ⟨c, hc, hnumber⟩ := hlast
          obtain ⟨front, number, hsplit, hpoint, hall⟩ := ih hs.2 ⟨c, by
            simpa [chars, hchars, List.getLast?_append] using hc, hnumber⟩
          exact ⟨gap.chars ++ (x.chars ++ front), number, by simp [chars, hsplit], hpoint, hall⟩

/-- The refused character would be a point, the second one in its stretch or the first of it. -/
theorem Reads.not_isWellSpelled {s : Split} {text rest : List Char} {c : Char}
    (hs : s.Reads text (c :: rest)) : ¬ IsWellSpelled text := by
  intro h
  have hc : c = '.' := by
    have hillegal := hs.stops c rfl
    have legal : ∀ c ∈ [' ', '\t', '.', '+', '-', '*', '/', '(', ')'], isIllegal c → c = '.' := by
      simp [isIllegal, isBlank, Kind.ofSymbol?]
    rcases h.known c (by simp [hs.chars_append]) with hdigit | hmem
    · simp [isIllegal, hdigit] at hillegal
    · exact legal c hmem hillegal
  subst hc
  obtain ⟨hhead, hcount⟩ := h.runs _ _ _ (hs.chars_append.trans (split_around_point s.chars rest))
    (isNumberRun_around_point s.chars rest)
  by_cases hne : s.chars.rtakeWhile isNumberChar = []
  · obtain ⟨c, hc, hdigit⟩ := hhead
    rw [hne] at hc
    obtain rfl : '.' = c := Option.some.inj hc
    cases hdigit
  · have hlast : ∃ c ∈ s.chars.getLast?, isNumberChar c := by
      obtain ⟨front, hsuffix⟩ := List.rtakeWhile_suffix isNumberChar s.chars
      refine ⟨_, ?_, List.mem_rtakeWhile_imp (List.getLast_mem hne)⟩
      rw [← congrArg List.getLast? hsuffix, List.getLast?_append,
        List.getLast?_eq_some_getLast hne]
      rfl
    obtain ⟨front, number, hsplit, hpoint, hall⟩ := exists_pointed_of_getLast hs.maximal hlast
    have hone : '.' ∈ s.chars.rtakeWhile isNumberChar := by
      rw [hsplit, rtakeWhile_append_of_forall front hall]
      exact List.mem_append_right _ hpoint
    have := List.count_pos_iff.2 hone
    rw [List.count_append, List.count_cons_self] at hcount
    omega

end Split

theorem known_iff_toNat {c : Char} :
    c.isDigit ∨ c ∈ [' ', '\t', '.', '+', '-', '*', '/', '(', ')'] ↔
      c.toNat = 9 ∨ c.toNat = 32 ∨ 40 ≤ c.toNat ∧ c.toNat ≤ 57 ∧ c.toNat ≠ 44 := by
  have codes : c ∈ [' ', '\t', '.', '+', '-', '*', '/', '(', ')'] ↔
      c.toNat ∈ [32, 9, 46, 43, 45, 42, 47, 40, 41] :=
    (List.mem_map_of_injective fun _ _ => Char.toNat_inj.1).symm
  rw [Char.isDigit_iff_toNat, codes]
  simp only [List.mem_cons, List.not_mem_nil, or_false]
  change 48 ≤ c.toNat ∧ c.toNat ≤ 57 ∨ _ ↔ _
  omega

namespace Source

theorem isAccepted_iff_isWellSpelled {source : Source} :
    source.IsAccepted ↔ IsWellSpelled source.text.toList := by
  rw [isAccepted_iff_reads]
  constructor
  · rintro ⟨s, hs⟩
    obtain ⟨hchars, hmax⟩ := Split.reads_all_iff.1 hs
    exact hchars ▸ Split.isWellSpelled hmax
  · intro h
    obtain ⟨s, following, hs⟩ := Split.exists_reads source.text.toList
    cases following with
    | nil => exact ⟨s, hs⟩
    | cons c rest => exact absurd h hs.not_isWellSpelled

theorem exists_isAccepted_of_known (name : String) {c : Char}
    (h : c.isDigit ∨ c ∈ [' ', '\t', '.', '+', '-', '*', '/', '(', ')']) :
    ∃ text : String, c ∈ text.toList ∧ IsAccepted ⟨name, text⟩ := by
  have accepted {text : List Char} (hc : c ∈ text) (htext : IsWellSpelled text) :
      ∃ text : String, c ∈ text.toList ∧ IsAccepted ⟨name, text⟩ := by
    refine ⟨String.ofList text, ?_, isAccepted_iff_isWellSpelled.2 ?_⟩
    · rwa [String.toList_ofList]
    · rwa [String.toList_ofList]
  rcases h with hdigit | hmark
  · have hspelled : IsWellSpelled [c] := isWellSpelled_of_number (by simp [isNumberChar, hdigit])
      ⟨c, rfl, hdigit⟩ List.count_le_length
    exact accepted List.mem_cons_self hspelled
  · by_cases hpoint : c = '.'
    · subst hpoint
      have hspelled : IsWellSpelled ['0', '.'] :=
        isWellSpelled_of_number (List.all_eq_true.1 rfl) ⟨'0', rfl, rfl⟩ (by decide)
      exact accepted (List.mem_cons_of_mem _ List.mem_cons_self) hspelled
    · have hspelled : IsWellSpelled [c] := by
        apply isWellSpelled_of_no_number
        intro d hd
        rw [List.mem_singleton.1 hd]
        simp only [List.mem_cons] at hmark ⊢
        tauto
      exact accepted List.mem_cons_self hspelled

end Source

/-- A text is accepted if and only if all of its characters are known and each of its stretches of
digits and points starts with a digit and has one point at most. The characters of accepted texts are
a tab, a blank, `(`, `)`, `*`, `+`, `-`, `.`, `/` and the digits from `0` to `9`, and no others. -/
theorem run_ok_iff_known_runs (source : Source) :
    ((∃ tokens, run source = .ok tokens) ↔
      (∀ c ∈ source.text.toList,
        c.isDigit ∨ c ∈ [' ', '\t', '.', '+', '-', '*', '/', '(', ')']) ∧
      ∀ before stretch after, source.text.toList = before ++ (stretch ++ after) →
        IsNumberRun before stretch after →
          (∃ c ∈ stretch.head?, c.isDigit) ∧ stretch.count '.' ≤ 1) ∧
    ∀ c : Char, (∃ text : String, c ∈ text.toList ∧ ∃ tokens, run ⟨source.name, text⟩ = .ok tokens) ↔
      c.toNat = 9 ∨ c.toNat = 32 ∨ 40 ≤ c.toNat ∧ c.toNat ≤ 57 ∧ c.toNat ≠ 44 := by
  constructor
  · exact Source.isAccepted_iff_isWellSpelled.trans
      ⟨fun h => ⟨h.known, h.runs⟩, fun h => ⟨h.1, h.2⟩⟩
  · intro c
    rw [← known_iff_toNat]
    constructor
    · rintro ⟨text, hc, haccepted⟩
      exact (Source.isAccepted_iff_isWellSpelled.1 haccepted).known c hc
    · exact Source.exists_isAccepted_of_known source.name

end ExprLexer

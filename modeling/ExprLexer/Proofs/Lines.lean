import ExprLexer.Proofs.Encoding
import ExprLexer.Text.Lines
import Mathlib.Data.List.DropRight

namespace ExprLexer.Text

theorem isLineEnd_iff {c : Char} : isLineEnd c ↔ c = '\n' ∨ c = '\r' := by
  rw [isLineEnd, Bool.or_eq_true, decide_eq_true_eq, decide_eq_true_eq]

theorem toList_trimLineEnds (text : String) :
    (trimLineEnds text).toList = text.toList.rdropWhile isLineEnd := by
  rw [trimLineEnds, String.toList_ofList, List.rdropWhile]

theorem trimLineEnds_append (text : String) {ending : String}
    (h : ∀ c ∈ ending.toList, c = '\n' ∨ c = '\r') :
    trimLineEnds (text ++ ending) = trimLineEnds text := by
  have hending : ∀ c ∈ ending.toList.reverse, isLineEnd c := by
    intro c hc
    exact isLineEnd_iff.2 (h c (List.mem_reverse.1 hc))
  rw [← String.toList_inj, toList_trimLineEnds, toList_trimLineEnds, String.toList_append,
    List.rdropWhile, List.reverse_append, List.dropWhile_append_of_pos hending, List.rdropWhile]

/-- The second text is the first one without the line feeds and carriage returns at its end. -/
structure TrimsTo (text trimmed : String) : Prop where
  ending : ∃ ending : String, text = trimmed ++ ending ∧ ∀ c ∈ ending.toList, c = '\n' ∨ c = '\r'
  last : ∀ c ∈ trimmed.toList.getLast?, c ≠ '\n' ∧ c ≠ '\r'

theorem trimsTo_trimLineEnds (text : String) : TrimsTo text (trimLineEnds text) := by
  refine ⟨⟨String.ofList (text.toList.rtakeWhile isLineEnd), ?_, ?_⟩, ?_⟩
  · rw [← String.toList_inj, String.toList_append, toList_trimLineEnds, String.toList_ofList,
      List.rdropWhile_append_rtakeWhile]
  · intro c hc
    rw [String.toList_ofList] at hc
    exact isLineEnd_iff.1 (List.mem_rtakeWhile_imp hc)
  · intro c hc
    rw [toList_trimLineEnds] at hc
    have hne := List.ne_nil_of_mem (List.mem_of_getLast? hc)
    rw [List.getLast?_eq_some_getLast hne] at hc
    obtain rfl := Option.some.inj hc
    simpa [isLineEnd_iff] using List.rdropWhile_last_not isLineEnd text.toList hne

theorem trimsTo_iff {text trimmed : String} : TrimsTo text trimmed ↔ trimmed = trimLineEnds text := by
  constructor
  · rintro ⟨⟨ending, rfl, hending⟩, hlast⟩
    rw [trimLineEnds_append trimmed hending, ← String.toList_inj, toList_trimLineEnds, eq_comm,
      List.rdropWhile_eq_self_iff]
    intro hne hend
    have := hlast _ (List.getLast?_eq_some_getLast hne)
    rw [isLineEnd_iff] at hend
    tauto
  · rintro rfl
    exact trimsTo_trimLineEnds text

theorem mem_of_mem_trimLineEnds {text : String} {c : Char} (h : c ∈ (trimLineEnds text).toList) :
    c ∈ text.toList := by
  obtain ⟨ending, htext, -⟩ := (trimsTo_trimLineEnds text).ending
  rw [htext, String.toList_append]
  exact List.mem_append_left _ h

/-- The lines of a stream are cut after each line feed, and what is left after the last one is a line
too unless it is empty. -/
inductive IsCut : List UInt8 → List (List UInt8) → Prop
  | none : IsCut [] []
  | unended {line : List UInt8} : line ≠ [] → 10 ∉ line → IsCut line [line]
  | ended {line stream : List UInt8} {lines : List (List UInt8)} : 10 ∉ line →
      IsCut stream lines → IsCut (line ++ 10 :: stream) ((line ++ [10]) :: lines)

theorem isCut_cutLines (stream : List UInt8) : IsCut stream (cutLines stream) := by
  induction stream with
  | nil => exact .none
  | cons b stream ih =>
      rw [cutLines]
      by_cases hb : b = 10
      · subst hb
        rw [if_pos rfl]
        exact .ended List.not_mem_nil ih
      · rw [if_neg hb]
        have longer {line : List UInt8} (h : 10 ∉ line) : 10 ∉ b :: line := by
          simp [h, Ne.symm hb]
        -- the byte goes to the front of the first line
        generalize cutLines stream = lines at ih
        cases ih with
        | none => exact .unended (List.cons_ne_nil b []) (longer List.not_mem_nil)
        | unended hne hline => exact .unended (List.cons_ne_nil _ _) (longer hline)
        | ended hline hcut => exact .ended (longer hline) hcut

theorem cutLines_append_of_notMem {front : List UInt8} (hne : front ≠ []) (h : 10 ∉ front)
    (stream : List UInt8) : cutLines (front ++ stream) =
      (front ++ (cutLines stream).headD []) :: (cutLines stream).tail := by
  induction front with
  | nil => exact absurd rfl hne
  | cons b front ih =>
      rw [List.mem_cons, not_or] at h
      rw [List.cons_append, cutLines, if_neg (Ne.symm h.1)]
      by_cases hfront : front = []
      · subst hfront
        rw [List.nil_append]
        cases cutLines stream <;> rfl
      · rw [ih hfront h.2]
        rfl

theorem IsCut.eq_cutLines {stream : List UInt8} {lines : List (List UInt8)}
    (h : IsCut stream lines) : lines = cutLines stream := by
  induction h with
  | none => rfl
  | @unended line hne hline =>
      have := cutLines_append_of_notMem hne hline []
      simpa [cutLines] using this.symm
  | @ended line stream lines hline hcut ih =>
      by_cases hne : line = []
      · subst hne
        rw [ih]
        rfl
      · rw [cutLines_append_of_notMem hne hline, ih]
        rfl

theorem isCut_iff {stream : List UInt8} {lines : List (List UInt8)} :
    IsCut stream lines ↔ lines = cutLines stream := by
  constructor
  · exact IsCut.eq_cutLines
  · rintro rfl
    exact isCut_cutLines stream

theorem IsCut.append {front stream : List UInt8} {before lines : List (List UInt8)}
    (hfront : IsCut front before) (hend : front = [] ∨ front.getLast? = some 10)
    (h : IsCut stream lines) : IsCut (front ++ stream) (before ++ lines) := by
  induction hfront with
  | none => exact h
  | unended hne hline =>
      exact absurd (List.mem_of_getLast? (hend.resolve_left hne)) hline
  | @ended line rest before hline hcut ih =>
      rw [List.append_assoc, List.cons_append, List.cons_append]
      refine .ended hline (ih ?_)
      rcases hend with hend | hend
      · exact absurd hend (by simp)
      · cases rest with
        | nil => exact .inl rfl
        | cons b rest => exact .inr (by simpa [List.getLast?_append] using hend)

theorem cutLines_append {front : List UInt8} (hend : front = [] ∨ front.getLast? = some 10)
    (stream : List UInt8) : cutLines (front ++ stream) = cutLines front ++ cutLines stream :=
  ((isCut_cutLines front).append hend (isCut_cutLines stream)).eq_cutLines.symm

theorem IsCut.cases_of_mem {stream line : List UInt8} {lines : List (List UInt8)}
    (h : IsCut stream lines) (hline : line ∈ lines) :
    10 ∉ line ∨ ∃ front, 10 ∉ front ∧ line = front ++ [10] := by
  induction h with
  | none => cases hline
  | unended hne hfeed =>
      rw [List.mem_singleton.1 hline]
      exact .inl hfeed
  | @ended front stream lines hfeed hcut ih =>
      rcases List.mem_cons.1 hline with rfl | hline
      · exact .inr ⟨front, hfeed, rfl⟩
      · exact ih hline

/-- A line feed is the one character whose bytes have the byte of a line feed. -/
theorem lineFeed_mem_utf8EncodeChar {c : Char} (h : 10 ∈ String.utf8EncodeChar c) : c = '\n' := by
  have hval : c.val.toNat = 10 := by
    simp only [String.utf8EncodeChar.eq_1] at h
    split_ifs at h <;>
      simp only [List.mem_cons, List.not_mem_nil, or_false, ← UInt8.toNat_inj,
        UInt8.toNat_ofNat', UInt8.reduceToNat] at h <;>
      omega
  exact Char.ext (UInt32.toNat_inj.1 hval)

theorem lineFeed_mem_bytes_iff {text : String} : 10 ∈ bytes text ↔ '\n' ∈ text.toList := by
  rw [bytes_eq_flatMap, List.mem_flatMap]
  constructor
  · rintro ⟨c, hc, hbyte⟩
    rwa [← lineFeed_mem_utf8EncodeChar hbyte]
  · intro h
    exact ⟨'\n', h, by decide⟩

theorem exists_texts_cutLines (text : String) :
    ∃ texts : List String, cutLines (bytes text) = texts.map bytes := by
  rw [bytes_eq_flatMap]
  induction text.toList with
  | nil => exact ⟨[], rfl⟩
  | cons c chars ih =>
      obtain ⟨texts, htexts⟩ := ih
      rw [List.flatMap_cons]
      by_cases hc : c = '\n'
      · subst hc
        refine ⟨"\n" :: texts, ?_⟩
        rw [List.map_cons, ← htexts]
        rfl
      · refine ⟨(String.singleton c ++ texts.headD "") :: texts.tail, ?_⟩
        rw [cutLines_append_of_notMem String.utf8EncodeChar_ne_nil
          (mt lineFeed_mem_utf8EncodeChar hc), htexts, List.map_cons, bytes_append]
        cases texts <;> simp [bytes_eq_flatMap]

theorem lineFeed_notMem_trimLineEnds {stream : List UInt8} {text : String}
    (h : bytes text ∈ cutLines stream) : '\n' ∉ (trimLineEnds text).toList := by
  intro hmem
  rcases (isCut_cutLines stream).cases_of_mem h with hfeed | ⟨front, hfeed, hline⟩
  · exact hfeed (lineFeed_mem_bytes_iff.2 (mem_of_mem_trimLineEnds hmem))
  · obtain ⟨t, rfl, htext⟩ : ∃ t, bytes t = front ∧ text = t ++ "\n" :=
      exists_of_bytes_eq_append hline
    rw [htext, trimLineEnds_append t (by simp)] at hmem
    exact hfeed (lineFeed_mem_bytes_iff.2 (mem_of_mem_trimLineEnds hmem))

end ExprLexer.Text

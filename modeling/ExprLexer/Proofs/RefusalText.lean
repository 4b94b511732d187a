import ExprLexer.LexError
import ExprLexer.Proofs.Decimal.Layout
import ExprLexer.Text.Front

namespace ExprLexer

theorem Text.back_unique {p : Char → Bool} {a b u v : List Char} (ha : ∀ c ∈ a, p c)
    (hb : ∀ c ∈ b, p c) (hu : ∀ c ∈ u.getLast?, p c = false) (hv : ∀ c ∈ v.getLast?, p c = false)
    (h : u ++ a = v ++ b) : u = v ∧ a = b := by
  have hreverse := congrArg List.reverse h
  rw [List.reverse_append, List.reverse_append] at hreverse
  obtain ⟨hback, hfront⟩ := Text.front_unique (by simpa using ha) (by simpa using hb)
    (by simpa using hu) (by simpa using hv) hreverse
  exact ⟨List.reverse_injective hfront, List.reverse_injective hback⟩

/-- Whatever stands before a label, the number after it is the one that the text ends with. -/
theorem Text.number_unique {u v label : List Char} {m n : Nat}
    (hlabel : ∃ c ∈ label.getLast?, c.isDigit = false)
    (h : u ++ (label ++ Nat.toDigits 10 m) = v ++ (label ++ Nat.toDigits 10 n)) :
    u = v ∧ m = n := by
  have hlast (w : List Char) : ∀ c ∈ (w ++ label).getLast?, c.isDigit = false := by
    obtain ⟨mark, hmark, hdigit⟩ := hlabel
    rw [List.getLast?_append, Option.mem_def.1 hmark]
    rintro c ⟨⟩
    exact hdigit
  rw [← List.append_assoc, ← List.append_assoc] at h
  obtain ⟨hfront, hdigits⟩ := Text.back_unique (Decimal.areDigits_toDigits m)
    (Decimal.areDigits_toDigits n) (hlast u) (hlast v) h
  have hnumber := congrArg Decimal.ofNumeral hdigits
  rw [Decimal.ofNumeral_toDigits, Decimal.ofNumeral_toDigits] at hnumber
  exact ⟨List.append_cancel_right hfront, hnumber⟩

namespace Cause

theorem toList_detail (c : Char) : (illegalCharacter c).detail.toList = ['\'', c, '\''] := by
  simp [detail]

theorem detail_unique {a b : Cause} {u v : List Char}
    (h : a.detail.toList ++ u = b.detail.toList ++ v) : a = b ∧ u = v := by
  obtain ⟨c⟩ := a
  obtain ⟨d⟩ := b
  rw [toList_detail, toList_detail] at h
  obtain ⟨hdetail, hrest⟩ := List.append_inj h rfl
  exact ⟨by simpa using hdetail, hrest⟩

end Cause

namespace LexError

variable (e f : LexError)

theorem toList_message : e.message.toList =
    "Illegal character: ".toList ++ (e.cause.detail.toList ++ (" in ".toList ++
      e.span.start.source.name.toList)) ++
    (", line ".toList ++ Nat.toDigits 10 (e.span.start.line + 1)) ++
    (", column ".toList ++ Nat.toDigits 10 (e.span.start.column + 1)) := by
  simp [message, Cause.toText, Cause.category, Nat.repr]

theorem toList_compactText : e.compactText.toList =
    "Illegal character:".toList ++ (e.cause.detail.toList ++ ("Filename ".toList ++
      e.span.start.source.name.toList)) ++
    (", line".toList ++ Nat.toDigits 10 (e.span.start.line + 1)) := by
  simp [compactText, Cause.category, Nat.repr]

/-- Up to the number of the line, a text of a refusal tells the character and the name. -/
theorem opening_unique {a b : Cause} {s t : String} {opening middle : List Char}
    (h : opening ++ (a.detail.toList ++ (middle ++ s.toList)) =
      opening ++ (b.detail.toList ++ (middle ++ t.toList))) : a = b ∧ s = t := by
  obtain ⟨hcause, hrest⟩ := Cause.detail_unique (List.append_cancel_left h)
  exact ⟨hcause, String.toList_inj.1 (List.append_cancel_left hrest)⟩

variable {e f}

theorem message_eq_iff : e.message = f.message ↔
    e.cause = f.cause ∧ e.span.start.source.name = f.span.start.source.name ∧
      e.span.start.line = f.span.start.line ∧ e.span.start.column = f.span.start.column := by
  constructor
  · intro h
    rw [← String.toList_inj, toList_message, toList_message] at h
    obtain ⟨h, hcolumn⟩ := Text.number_unique ⟨' ', rfl, rfl⟩ h
    obtain ⟨h, hline⟩ := Text.number_unique ⟨' ', rfl, rfl⟩ h
    obtain ⟨hcause, hname⟩ := opening_unique h
    exact ⟨hcause, hname, Nat.succ.inj hline, Nat.succ.inj hcolumn⟩
  · rintro ⟨hcause, hname, hline, hcolumn⟩
    rw [message, message, hcause, hname, hline, hcolumn]

theorem compactText_eq_iff : e.compactText = f.compactText ↔
    e.cause = f.cause ∧ e.span.start.source.name = f.span.start.source.name ∧
      e.span.start.line = f.span.start.line := by
  constructor
  · intro h
    rw [← String.toList_inj, toList_compactText, toList_compactText] at h
    obtain ⟨h, hline⟩ := Text.number_unique ⟨'e', rfl, rfl⟩ h
    obtain ⟨hcause, hname⟩ := opening_unique h
    exact ⟨hcause, hname, Nat.succ.inj hline⟩
  · rintro ⟨hcause, hname, hline⟩
    rw [compactText, compactText, hcause, hname, hline]

/-- Two refusals have one message if and only if character, name, line and column are the same, and one
compact text if and only if character, name and line are. Where the refusal ends, the offset and the
source text are not told by either. -/
theorem texts_eq_iff (e f : LexError) :
    (e.message = f.message ↔
      e.cause = f.cause ∧ e.span.start.source.name = f.span.start.source.name ∧
        e.span.start.line = f.span.start.line ∧ e.span.start.column = f.span.start.column) ∧
    (e.compactText = f.compactText ↔
      e.cause = f.cause ∧ e.span.start.source.name = f.span.start.source.name ∧
        e.span.start.line = f.span.start.line) ∧
    ∀ (offset : Nat) (text : String) (stop : Position),
      let elsewhere : LexError := ⟨e.cause, ⟨offset, e.span.start.line, e.span.start.column,
        ⟨e.span.start.source.name, text⟩⟩, stop⟩
      elsewhere.message = e.message ∧ elsewhere.compactText = e.compactText :=
  ⟨message_eq_iff, compactText_eq_iff, fun _ _ _ =>
    ⟨message_eq_iff.2 ⟨rfl, rfl, rfl, rfl⟩, compactText_eq_iff.2 ⟨rfl, rfl, rfl⟩⟩⟩

end LexError
end ExprLexer

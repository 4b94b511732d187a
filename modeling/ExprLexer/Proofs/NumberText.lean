import ExprLexer.Proofs.WrittenFloat

namespace ExprLexer

namespace Decimal

/-- Whichever layout a decimal is written in, it is read back with its sign and its value. -/
theorem read?_write (d : Decimal) : ∃ e, read? d.write = some e ∧ e.negative = d.negative ∧
    e.toFraction.toRat = d.toFraction.toRat := by
  by_cases hlayout : isPositional d.leadingExponent
  · obtain ⟨whole, fraction, htext, hne, hwhole, hfraction, hvalue⟩ :=
      exists_positional d.isDigit_of_mem_digits d.leadingExponent
    have hhead : ∀ c ∈ (whole ++ '.' :: fraction).head?, c ≠ '-' := by
      obtain ⟨first, more, rfl⟩ := List.exists_cons_of_ne_nil hne
      rintro c ⟨⟩ rfl
      exact absurd (hwhole '-' List.mem_cons_self) (by decide)
    refine ⟨⟨d.negative, ofNumeral (whole ++ fraction), -fraction.length⟩, ?_, rfl, ?_⟩
    · rw [write, if_pos hlayout, htext, read?_signed _ hhead,
        Literal.readUnsigned?_point _ hne hwhole hfraction]
    · rw [toRat_toFraction_pointed, hvalue, toRat_toFraction_digits]
  · apply d.exists_read?_write (Bool.eq_false_iff.2 hlayout)
    intro hzero
    rw [leadingExponent, if_pos hzero] at hlayout
    exact hlayout rfl

theorem mem_pointed {digits : List Char} {c : Char} (h : c ∈ pointed digits) :
    c ∈ digits ∨ c = '.' := by
  match digits, h with
  | [d], h => exact .inl h
  | first :: second :: rest, h =>
      rw [pointed, List.mem_cons, List.mem_cons] at h
      rw [List.mem_cons]
      tauto

theorem mem_exponentText {e : Int} {c : Char} (h : c ∈ exponentText e) :
    c.isDigit ∨ c ∈ ['-', '+'] := by
  rw [exponentText, List.mem_cons] at h
  rcases h with rfl | h
  · right
    split <;> simp
  · left
    exact areDigits_leftpad 2 (areDigits_toDigits _) c h

theorem mem_write {d : Decimal} {c : Char} (h : c ∈ d.write) :
    c.isDigit ∨ c ∈ ['-', '.', 'e', '+'] := by
  rw [write, List.mem_append] at h
  rcases h with h | h
  · right
    split at h
    · rw [List.mem_singleton.1 h]
      exact List.mem_cons_self
    · cases h
  · split at h
    · obtain ⟨whole, fraction, htext, -, hwhole, hfraction, -⟩ :=
        exists_positional d.isDigit_of_mem_digits d.leadingExponent
      rw [htext, List.mem_append, List.mem_cons] at h
      rcases h with h | rfl | h
      · exact .inl (hwhole c h)
      · simp
      · exact .inl (hfraction c h)
    · rw [scientific, List.mem_append, List.mem_cons] at h
      rcases h with h | rfl | h
      · rcases mem_pointed h with h | rfl
        · exact .inl (d.isDigit_of_mem_digits c h)
        · simp
      · simp
      · exact (mem_exponentText h).imp_right (by simp; tauto)

theorem exists_mark_mem_write (d : Decimal) : ∃ c ∈ d.write, c.isDigit = false := by
  rw [write]
  by_cases h : isPositional d.leadingExponent
  · refine ⟨'.', List.mem_append_right _ ?_, rfl⟩
    rw [if_pos h, positional]
    exact List.mem_append_right _ List.mem_cons_self
  · refine ⟨'e', List.mem_append_right _ ?_, rfl⟩
    rw [if_neg h, scientific]
    exact List.mem_append_right _ List.mem_cons_self

end Decimal

namespace Binary64

variable {x : Binary64}

theorem ofDecimal_congr {d e : Decimal} (hs : d.negative = e.negative)
    (hv : d.toFraction.toRat = e.toFraction.toRat) : ofDecimal d = ofDecimal e := by
  apply ext_parts
  · rw [isNegative_ofDecimal, isNegative_ofDecimal, hs]
  · rw [magnitude_ofDecimal, magnitude_ofDecimal]
    exact nearestMagnitude_congr d.toFraction_den_pos e.toFraction_den_pos hv

theorem ofDecimal_read?_write (h : x.isFinite) :
    (Decimal.read? x.write).map ofDecimal = some x := by
  obtain ⟨d, hread, hs, hvalue⟩ := x.shortest.read?_write
  rw [write_of_isFinite h, hread, Option.map_some, ofDecimal_congr hs hvalue, ofDecimal_shortest h]

theorem write_nan (h : x.isNaN) : x.write = ['N', 'a', 'N'] := if_pos h

theorem write_infinite (h : x.isInfinite) : x.write = signChars x.isNegative ++ ['i', 'n', 'f'] := by
  have hnan : ¬ x.isNaN := by
    rw [isInfinite, decide_eq_true_eq] at h
    simp [isNaN, h]
  rw [write, if_neg hnan, if_pos h]
  rfl

theorem write_cases (x : Binary64) : (x.isFinite ∧ x.write = x.shortest.write) ∨
    (x.isInfinite ∧ x.write = signChars x.isNegative ++ ['i', 'n', 'f']) ∨
    x.isNaN ∧ x.write = ['N', 'a', 'N'] := by
  by_cases hnan : x.isNaN
  · exact .inr (.inr ⟨hnan, write_nan hnan⟩)
  · by_cases hinf : x.isInfinite
    · exact .inr (.inl ⟨hinf, write_infinite hinf⟩)
    · have h := (isFinite_iff x).2 ⟨Bool.eq_false_iff.2 hnan, hinf⟩
      exact .inl ⟨h, write_of_isFinite h⟩

theorem exists_mark_mem_write (x : Binary64) : ∃ c ∈ x.write, c.isDigit = false := by
  rcases x.write_cases with ⟨-, h⟩ | ⟨-, h⟩ | ⟨-, h⟩
  · rw [h]
    exact x.shortest.exists_mark_mem_write
  · exact ⟨'i', by simp [h], rfl⟩
  · exact ⟨'N', by simp [h], rfl⟩

theorem mem_write {x : Binary64} {c : Char} (h : c ∈ x.write) :
    c.isDigit ∨ c ∈ ['-', '.', 'e', '+', 'i', 'n', 'f', 'N', 'a'] := by
  have nan : ['N', 'a', 'N'] ⊆ ['-', '.', 'e', '+', 'i', 'n', 'f', 'N', 'a'] := by decide
  have infinite : ∀ negative, signChars negative ++ ['i', 'n', 'f'] ⊆
      ['-', '.', 'e', '+', 'i', 'n', 'f', 'N', 'a'] := by decide
  rcases x.write_cases with ⟨-, hx⟩ | ⟨-, hx⟩ | ⟨-, hx⟩ <;> rw [hx] at h
  · exact (Decimal.mem_write h).imp_right (List.mem_append_left ['i', 'n', 'f', 'N', 'a'])
  · exact .inr (infinite _ h)
  · exact .inr (nan h)

theorem isSome_read?_write_iff (x : Binary64) : (Decimal.read? x.write).isSome ↔ x.isFinite := by
  constructor
  · intro h
    rcases x.write_cases with ⟨hx, -⟩ | ⟨-, htext⟩ | ⟨-, htext⟩
    · exact hx
    · rw [htext] at h
      cases hs : x.isNegative <;> rw [hs] at h <;> cases h
    · rw [htext] at h
      cases h
  · intro h
    rw [← Option.isSome_map (f := ofDecimal), ofDecimal_read?_write h]
    rfl

theorem signChars_injective : Function.Injective signChars := by decide

/-- Different bits have different texts, but all that are not a number have one. -/
theorem write_eq_iff {x y : Binary64} : x.write = y.write ↔ x = y ∨ x.isNaN ∧ y.isNaN := by
  constructor
  · intro h
    have hfinite : x.isFinite ↔ y.isFinite := by
      rw [← isSome_read?_write_iff, h, isSome_read?_write_iff]
    by_cases hx : x.isFinite
    · have hread := ofDecimal_read?_write hx
      rw [h, ofDecimal_read?_write (hfinite.1 hx)] at hread
      exact .inl (Option.some.inj hread).symm
    · have hy := mt hfinite.2 hx
      rcases x.write_cases.resolve_left (not_and_of_not_left _ hx) with ⟨hxi, htx⟩ | ⟨hxn, htx⟩ <;>
      rcases y.write_cases.resolve_left (not_and_of_not_left _ hy) with ⟨hyi, hty⟩ | ⟨hyn, hty⟩
      · rw [isInfinite, decide_eq_true_eq] at hxi hyi
        rw [htx, hty, List.append_left_inj] at h
        exact .inl (ext_parts (signChars_injective h) (hxi.trans hyi.symm))
      · rw [htx, hty] at h
        cases hs : x.isNegative <;> simp [hs, signChars] at h
      · rw [htx, hty] at h
        cases hs : y.isNegative <;> simp [hs, signChars] at h
      · exact .inr ⟨hxn, hyn⟩
  · rintro (rfl | ⟨hx, hy⟩)
    · rfl
    · rw [write_nan hx, write_nan hy]

end Binary64

/-- The same whole number, floats with the same bits, or two floats that are not a number. -/
def Number.Alike : Number → Number → Prop
  | int m, int n => m = n
  | float x, float y => x.bits = y.bits ∨ x.isNaN ∧ y.isNaN
  | _, _ => False

namespace Number

theorem write_int_ne_float (n : Nat) (x : Binary64) : (int n).write ≠ (float x).write := by
  intro h
  obtain ⟨c, hc, hmark⟩ := x.exists_mark_mem_write
  have hn : c ∈ (int n).write := by
    rw [h]
    exact hc
  have hdigit := Decimal.areDigits_toDigits n c hn
  rw [hmark] at hdigit
  cases hdigit

theorem write_eq_iff {m n : Number} : m.write = n.write ↔ m.Alike n := by
  match m, n with
  | int m, int n =>
      constructor
      · intro h
        have hvalue := congrArg Decimal.ofNumeral h
        rwa [write, write, Decimal.ofNumeral_toDigits, Decimal.ofNumeral_toDigits] at hvalue
      · rintro rfl
        rfl
  | int m, float y => exact iff_of_false (write_int_ne_float m y) id
  | float x, int n => exact iff_of_false (write_int_ne_float n x).symm id
  | float x, float y =>
      rw [write, write, Binary64.write_eq_iff, Alike, Binary64.mk.injEq]

theorem toText_eq_iff {m n : Number} : m.toText = n.toText ↔ m.Alike n := by
  rw [toText, toText, String.ofList_inj, write_eq_iff]

theorem mem_write {n : Number} {c : Char} (h : c ∈ n.write) :
    c.isDigit ∨ c ∈ ['-', '.', 'e', '+', 'i', 'n', 'f', 'N', 'a'] := by
  cases n with
  | int n => exact .inl (Decimal.areDigits_toDigits n c h)
  | float x => exact Binary64.mem_write h

end Number
end ExprLexer

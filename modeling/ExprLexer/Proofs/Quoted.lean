import ExprLexer.Text.Quoted
import Mathlib.Data.List.Basic

namespace ExprLexer.Text

theorem digitChar_injective {m n : Nat} (hm : m < 16) (hn : n < 16)
    (h : m.digitChar = n.digitChar) : m = n := by
  have all : ∀ i < 16, ∀ j < 16, i.digitChar = j.digitChar → i = j := by decide
  exact all m hm n hn h

theorem toDigits_sixteen_injective {m n : Nat} (h : Nat.toDigits 16 m = Nat.toDigits 16 n) :
    m = n := by
  have hlast (k : Nat) : ∃ front, Nat.toDigits 16 k = front ++ [(k % 16).digitChar] ∧
      (front = [] ∧ k < 16 ∨ front = Nat.toDigits 16 (k / 16) ∧ 16 ≤ k) := by
    rw [Nat.toDigits_eq_if (by decide)]
    split
    · rename_i hk
      exact ⟨[], by rw [Nat.mod_eq_of_lt hk]; rfl, .inl ⟨rfl, hk⟩⟩
    · rename_i hk
      exact ⟨_, rfl, .inr ⟨rfl, Nat.le_of_not_lt hk⟩⟩
  induction m using Nat.strongRecOn generalizing n with
  | ind m ih =>
      obtain ⟨u, hu, hm⟩ := hlast m
      obtain ⟨v, hv, hn⟩ := hlast n
      rw [hu, hv] at h
      obtain ⟨huv, hdigit⟩ := List.append_inj' h rfl
      have hmod := digitChar_injective (Nat.mod_lt m (by decide)) (Nat.mod_lt n (by decide))
        (List.singleton_inj.1 hdigit)
      rcases hm with ⟨rfl, hm⟩ | ⟨rfl, hm⟩ <;> rcases hn with ⟨rfl, hn⟩ | ⟨rfl, hn⟩
      · omega
      · exact absurd huv.symm Nat.toDigits_ne_nil
      · exact absurd huv Nat.toDigits_ne_nil
      · have := ih (m / 16) (by omega) huv
        omega

def shortEscapes : List (Char × Char) :=
  [('\x00', '0'), ('\t', 't'), ('\r', 'r'), ('\n', 'n'), ('\\', '\\'), ('\'', '\'')]

/-- Inside single quotes a character stands for itself, or has a short escape or that of its code. -/
theorem escape_cases (c : Char) :
    escape '\'' c = [c] ∧ c ≠ '\\' ∨ escape '\'' c = codeEscape c ∨
      ∃ mark, (c, mark) ∈ shortEscapes ∧ escape '\'' c = ['\\', mark] := by
  rw [escape.eq_def]
  split
  · exact .inr (.inr ⟨'0', by decide, rfl⟩)
  · exact .inr (.inr ⟨'t', by decide, rfl⟩)
  · exact .inr (.inr ⟨'r', by decide, rfl⟩)
  · exact .inr (.inr ⟨'n', by decide, rfl⟩)
  · exact .inr (.inr ⟨'\\', by decide, rfl⟩)
  · rename_i hbackslash
    split
    · rename_i hquote
      exact .inr (.inr ⟨c, by rw [hquote]; decide, rfl⟩)
    · split
      · exact .inr (.inl rfl)
      · exact .inl ⟨rfl, hbackslash⟩

theorem codeEscape_injective {c d : Char} (h : codeEscape c = codeEscape d) : c = d := by
  have hfront := List.append_cancel_right h
  simp only [List.cons.injEq, true_and] at hfront
  exact Char.toNat_inj.1 (toDigits_sixteen_injective hfront)

theorem escape_injective {c d : Char} (h : escape '\'' c = escape '\'' d) : c = d := by
  have hshort : ∀ x ∈ shortEscapes, ∀ y ∈ shortEscapes, x.2 = y.2 → x.1 = y.1 := by decide
  rcases escape_cases c with ⟨hc, hcne⟩ | hc | ⟨m, hm, hc⟩ <;>
    rcases escape_cases d with ⟨hd, hdne⟩ | hd | ⟨n, hn, hd⟩ <;> rw [hc, hd] at h
  · exact List.singleton_inj.1 h
  · exact absurd (List.cons.inj h).1 hcne
  · exact absurd (List.cons.inj h).1 hcne
  · exact absurd (List.cons.inj h).1.symm hdne
  · exact codeEscape_injective h
  · simp [codeEscape] at h
  · exact absurd (List.cons.inj h).1.symm hdne
  · simp [codeEscape] at h
  · exact hshort _ hm _ hn (by simpa using h)

theorem quoteChar_inj {c d : Char} : quoteChar c = quoteChar d ↔ c = d := by
  constructor
  · intro h
    have hchars := String.ofList_injective h
    exact escape_injective (List.append_cancel_right (List.cons.inj hchars).2)
  · rintro rfl
    rfl

end ExprLexer.Text

import ExprLexer.Proofs.Cursor
import Mathlib.Data.Prod.Lex
import Mathlib.Order.Interval.Set.Defs
import Mathlib.Order.Monotone.Basic

namespace ExprLexer

namespace Position

def place (p : Position) : ℕ ×ₗ ℕ := toLex (p.line, p.column)

theorem place_lt_iff {p q : Position} :
    p.place < q.place ↔ p.line < q.line ∨ p.line = q.line ∧ p.column < q.column :=
  Prod.Lex.toLex_lt_toLex

theorem place_inj {p q : Position} : p.place = q.place ↔ p.line = q.line ∧ p.column = q.column :=
  toLex_inj.trans Prod.mk_inj

/-- A line end leads to the next line, however far in its line it stands. -/
theorem place_lt_advance (p : Position) (passed : Option Char) :
    p.place < (p.advance passed).place := by
  rw [place_lt_iff]
  by_cases h : passed = some '\n'
  · subst h
    rw [advance_newline]
    exact .inl p.line.lt_succ_self
  · rw [advance_of_ne p h]
    exact .inr ⟨rfl, p.column.lt_succ_self⟩

/-- The position is the one that its offset has in its text. -/
structure IsPlaced (p : Position) : Prop where
  offset_le : p.offset ≤ p.source.text.toList.length
  eq_positionAt : p = p.source.positionAt p.offset

end Position

namespace Source

variable {source other : Source}

theorem isPlaced_positionAt {n : Nat} (h : n ≤ source.text.toList.length) :
    (source.positionAt n).IsPlaced := ⟨h, rfl⟩

theorem place_positionAt (h : source.text = other.text) (n : Nat) :
    (source.positionAt n).place = (other.positionAt n).place := by
  rw [Position.place, Position.place, positionAt, positionAt, h]

theorem place_positionAt_lt {i j : Nat} (hij : i < j) (hj : j ≤ source.text.toList.length) :
    (source.positionAt i).place < (source.positionAt j).place := by
  have step {n : Nat} (hn : n < source.text.toList.length) :
      (source.positionAt n).place < (source.positionAt (n + 1)).place := by
    rw [← advance_positionAt (List.getElem?_eq_getElem hn)]
    exact Position.place_lt_advance _ _
  induction hij with
  | refl => exact step hj
  | step _ ih => exact (ih (Nat.le_of_succ_le hj)).trans (step hj)

theorem strictMonoOn_place :
    StrictMonoOn (fun n => (source.positionAt n).place) (Set.Iic source.text.toList.length) :=
  fun _ _ _ hj hij => place_positionAt_lt hij hj

end Source

namespace Position

variable {p q : Position}

theorem IsPlaced.eq_iff (hp : p.IsPlaced) (hq : q.IsPlaced) :
    p = q ↔ p.source.name = q.source.name ∧ p.source.text = q.source.text ∧
      p.offset = q.offset := by
  constructor
  · rintro rfl
    exact ⟨rfl, rfl, rfl⟩
  · rintro ⟨hname, htext, hoffset⟩
    have hsource : p.source = q.source := congrArg₂ Source.mk hname htext
    rw [hp.eq_positionAt, hq.eq_positionAt, hsource, hoffset]

theorem IsPlaced.place_eq (hp : p.IsPlaced) {source : Source} (htext : p.source.text = source.text) :
    p.offset ≤ source.text.toList.length ∧ p.place = (source.positionAt p.offset).place := by
  rw [← Source.place_positionAt htext, ← hp.eq_positionAt, ← htext]
  exact ⟨hp.offset_le, rfl⟩

theorem IsPlaced.offset_lt_iff (hp : p.IsPlaced) (hq : q.IsPlaced)
    (htext : p.source.text = q.source.text) : p.offset < q.offset ↔ p.place < q.place := by
  obtain ⟨hple, hpplace⟩ := hp.place_eq htext
  obtain ⟨hqle, hqplace⟩ := hq.place_eq rfl
  rw [hpplace, hqplace]
  exact (Source.strictMonoOn_place.lt_iff_lt hple hqle).symm

theorem IsPlaced.offset_eq_iff (hp : p.IsPlaced) (hq : q.IsPlaced)
    (htext : p.source.text = q.source.text) : p.offset = q.offset ↔ p.place = q.place := by
  obtain ⟨hple, hpplace⟩ := hp.place_eq htext
  obtain ⟨hqle, hqplace⟩ := hq.place_eq rfl
  rw [hpplace, hqplace]
  exact (Source.strictMonoOn_place.eq_iff_eq hple hqle).symm

end Position
end ExprLexer

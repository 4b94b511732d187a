import ExprLexer.Cli.FileTree
import Mathlib.Data.List.Infix

namespace ExprLexer.Cli

namespace Place

def IsPlain (names : List String) : Prop := ∀ name ∈ names, name ≠ "" ∧ name ≠ "." ∧ name ≠ ".."

variable {name : String} {names : List String}

theorem IsPlain.tail (h : IsPlain (name :: names)) : IsPlain names := fun n hn =>
  h n (List.mem_cons_of_mem name hn)

theorem IsPlain.enter? (h : IsPlain (name :: names)) (outer : List String) :
    (inside outer).enter? name = some (inside (name :: outer)) := by
  have hname := h name List.mem_cons_self
  simp [Place.enter?, hname]

theorem IsPlain.along_cons (h : IsPlain (name :: names)) (outer : List String) :
    (inside outer).along (name :: names) = inside outer :: (inside (name :: outer)).along names := by
  rw [along, h.enter?, Option.getD_some]

theorem IsPlain.getLast?_along (h : IsPlain names) (outer : List String) :
    ((inside outer).along names).getLast? = some (inside (names.reverse ++ outer)) := by
  induction names generalizing outer with
  | nil => rfl
  | cons name names ih =>
      rw [h.along_cons, List.getLast?_cons, ih h.tail, List.reverse_cons, List.append_assoc]
      rfl

end Place

namespace FileTree

/-- The way that names lead from a place: past no file but the last, and to nothing that there is not. -/
inductive Leads (t : FileTree) : Place → List String → Place → Prop
  | here (place : Place) : Leads t place [] place
  | onward {place next last : Place} {name : String} {names : List String} :
      t.file? place = none → place.enter? name = some next → t.holds next →
      Leads t next names last → Leads t place (name :: names) last

variable {t : FileTree} {place last : Place} {names : List String} {path : String}
  {bytes : ByteArray}

theorem step_eq_ok_iff {name : String} {next : Place} : t.step place name = .ok next ↔
    t.file? place = none ∧ place.enter? name = some next ∧ t.holds next := by
  rw [← Option.filter_eq_some_iff, step]
  cases t.file? place with
  | some bytes => simp
  | none => cases (place.enter? name).filter t.holds <;> simp

theorem foldlM_step_eq_ok_iff :
    names.foldlM t.step place = .ok last ↔ t.Leads place names last := by
  induction names generalizing place with
  | nil =>
      constructor
      · rintro ⟨⟩
        exact .here _
      · rintro ⟨⟩
        rfl
  | cons name names ih =>
      rw [List.foldlM_cons]
      constructor
      · intro h
        cases hstep : t.step place name with
        | error failure =>
            rw [hstep] at h
            cases h
        | ok next =>
            rw [hstep] at h
            obtain ⟨hfile, hnext, hholds⟩ := step_eq_ok_iff.1 hstep
            exact .onward hfile hnext hholds (ih.1 h)
      · rintro (_ | ⟨hfile, hnext, hholds, hrest⟩)
        rw [step_eq_ok_iff.2 ⟨hfile, hnext, hholds⟩]
        exact ih.2 hrest

theorem resolve_eq_ok_iff : t.resolve path = .ok place ↔ path ≠ "" ∧
    t.Leads (if path.startsWith "/" then .outside else .root) (path.splitOn "/") place := by
  rw [← foldlM_step_eq_ok_iff, resolve]
  by_cases h : path = ""
  · simp [h]
  · simp [h, String.isEmpty_iff]

theorem read_eq_ok_iff : t.read path = .ok bytes ↔
    ∃ place, t.resolve path = .ok place ∧ t.file? place = some bytes := by
  rw [read]
  cases t.resolve path with
  | error failure =>
      refine iff_of_false ?_ ?_
      · rintro ⟨⟩
      · rintro ⟨place, ⟨⟩, -⟩
  | ok place =>
      simp only [bind, Except.bind]
      cases hfile : t.file? place with
      | none => simp [hfile]
      | some content => simp [hfile, pure, Except.pure]

section

variable (hlast : (Place.root.along (path.splitOn "/")).getLast? = some last) (bytes : ByteArray)
include hlast

theorem add_some : t.add path (some bytes) = ⟨(last, bytes) :: t.files,
    (Place.root.along (path.splitOn "/")).dropLast ++ t.directories⟩ := by
  simp only [add, hlast]

theorem file?_add_self : (t.add path (some bytes)).file? last = some bytes := by
  rw [add_some hlast, file?, List.lookup_cons_self]

theorem file?_add_of_ne (h : place ≠ last) :
    (t.add path (some bytes)).file? place = t.file? place := by
  rw [add_some hlast, file?, List.lookup_cons, beq_false_of_ne h]
  rfl

theorem holds_add (h : t.holds place ∨ place ∈ Place.root.along (path.splitOn "/")) :
    (t.add path (some bytes)).holds place := by
  by_cases hplace : place = last
  · rw [hplace, holds, file?_add_self hlast]
    rfl
  · rw [← List.dropLast_append_getLast? last hlast, List.mem_append, List.mem_singleton,
      or_iff_left hplace] at h
    rw [holds, file?_add_of_ne hlast bytes hplace, add_some hlast]
    simp only [holds, Bool.or_eq_true, decide_eq_true_eq, List.mem_append] at h ⊢
    tauto

theorem Leads.add {dest : Place} (h : t.Leads place names dest) (hapart : last ∉ place.along names) :
    (t.add path (some bytes)).Leads place names dest ∧ dest ≠ last := by
  induction h with
  | here place => exact ⟨.here place, by simpa [Place.along, eq_comm] using hapart⟩
  | @onward place next dest name names hfile hnext hholds hrest ih =>
      rw [Place.along, hnext, Option.getD_some, List.mem_cons, not_or] at hapart
      obtain ⟨hleads, hdest⟩ := ih hapart.2
      refine ⟨.onward ?_ hnext (holds_add hlast bytes (.inl hholds)) hleads, hdest⟩
      rw [file?_add_of_ne hlast bytes (Ne.symm hapart.1), hfile]

/-- A path that does not lead past the place of a new file is read as before. -/
theorem read_add_of_notMem {other : String} {content : ByteArray} (h : t.read other = .ok content)
    (hapart : last ∉ Place.along (if other.startsWith "/" then .outside else .root)
      (other.splitOn "/")) : (t.add path (some bytes)).read other = .ok content := by
  obtain ⟨dest, hresolve, hfile⟩ := read_eq_ok_iff.1 h
  obtain ⟨hother, hleads⟩ := resolve_eq_ok_iff.1 hresolve
  obtain ⟨hnew, hdest⟩ := hleads.add hlast bytes hapart
  refine read_eq_ok_iff.2 ⟨dest, resolve_eq_ok_iff.2 ⟨hother, hnew⟩, ?_⟩
  rw [file?_add_of_ne hlast bytes hdest, hfile]

end

theorem Leads.of_isPlain (h : Place.IsPlain names) (outer : List String)
    (hfile : ∀ front, front <+: names → front ≠ names →
      t.file? (.inside (front.reverse ++ outer)) = none)
    (hholds : ∀ place ∈ (Place.inside outer).along names, t.holds place) :
    t.Leads (.inside outer) names (.inside (names.reverse ++ outer)) := by
  induction names generalizing outer with
  | nil => exact .here _
  | cons name names ih =>
      rw [h.along_cons, List.forall_mem_cons] at hholds
      have hnext : Place.inside (name :: outer) ∈ (Place.inside (name :: outer)).along names := by
        cases names <;> exact List.mem_cons_self
      rw [List.reverse_cons, List.append_assoc]
      refine .onward (hfile [] (List.nil_prefix) (by simp)) (h.enter? outer) (hholds.2 _ hnext)
        (ih h.tail (name :: outer) (fun front hfront hne => ?_) hholds.2)
      have := hfile (name :: front) (List.cons_prefix_cons.2 ⟨rfl, hfront⟩) (by simpa using hne)
      rwa [List.reverse_cons, List.append_assoc] at this

/-- A file that is put into a tree under a plain path is read under it, if no file stands in the way. -/
theorem read_add (hpath : path ≠ "") (hinside : path.startsWith "/" = false)
    (hplain : Place.IsPlain (path.splitOn "/"))
    (hway : ∀ front, front <+: path.splitOn "/" → front ≠ path.splitOn "/" →
      t.file? (.inside front.reverse) = none) (bytes : ByteArray) :
    (t.add path (some bytes)).read path = .ok bytes := by
  have hlast := hplain.getLast?_along []
  rw [List.append_nil] at hlast
  refine read_eq_ok_iff.2 ⟨_, resolve_eq_ok_iff.2 ⟨hpath, ?_⟩, file?_add_self hlast bytes⟩
  rw [if_neg (by rw [hinside]; exact Bool.false_ne_true), ← List.append_nil (List.reverse _)]
  refine Leads.of_isPlain hplain [] (fun front hfront hne => ?_) fun place hplace =>
    holds_add hlast bytes (.inr hplace)
  rw [List.append_nil, file?_add_of_ne hlast bytes (by simpa using hne)]
  exact hway front hfront hne

end FileTree
end ExprLexer.Cli

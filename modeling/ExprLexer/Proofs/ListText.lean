import ExprLexer.Proofs.NumberEquality
import Mathlib.Data.List.Forall2

namespace ExprLexer

theorem append_unique {mark : Char} {a b u v : List Char} (ha : mark ∉ a) (hb : mark ∉ b)
    (hu : ∀ c ∈ u.head?, c = mark) (hv : ∀ c ∈ v.head?, c = mark) (h : a ++ u = b ++ v) :
    a = b ∧ u = v := by
  have other {w : List Char} (hw : mark ∉ w) : ∀ c ∈ w, decide (c ≠ mark) := fun c hc =>
    decide_eq_true (ne_of_mem_of_not_mem hc hw)
  exact Text.front_unique (other ha) (other hb) (by simpa using hu) (by simpa using hv) h

theorem head?_flatMap_comma (xs : List (List Char)) :
    ∀ c ∈ (xs.flatMap ([',', ' '] ++ ·)).head?, c = ',' := by
  cases xs <;> simp

/-- Items without a comma are told apart by the commas before them. -/
theorem flatMap_comma_injective {xs ys : List (List Char)} (hx : ∀ x ∈ xs, ',' ∉ x)
    (hy : ∀ y ∈ ys, ',' ∉ y)
    (h : xs.flatMap ([',', ' '] ++ ·) = ys.flatMap ([',', ' '] ++ ·)) : xs = ys := by
  induction xs generalizing ys with
  | nil =>
      cases ys with
      | nil => rfl
      | cons y ys => simp at h
  | cons x xs ih =>
      cases ys with
      | nil => simp at h
      | cons y ys =>
          obtain ⟨rfl, hrest⟩ := append_unique (hx x List.mem_cons_self)
            (hy y List.mem_cons_self) (head?_flatMap_comma xs) (head?_flatMap_comma ys)
            (by simpa using h)
          rw [ih (fun z hz => hx z (List.mem_cons_of_mem x hz))
            (fun z hz => hy z (List.mem_cons_of_mem x hz)) hrest]

theorem intercalate_cons (sep x : List Char) (xs : List (List Char)) :
    sep.intercalate (x :: xs) = x ++ xs.flatMap (sep ++ ·) := by
  induction xs generalizing x with
  | nil => simp
  | cons y xs ih =>
      rw [List.intercalate_cons_cons, ih]
      simp

theorem intercalate_comma_injective {xs ys : List (List Char)} (hx : ∀ x ∈ xs, ',' ∉ x ∧ x ≠ [])
    (hy : ∀ y ∈ ys, ',' ∉ y ∧ y ≠ [])
    (h : [',', ' '].intercalate xs = [',', ' '].intercalate ys) : xs = ys := by
  cases xs with
  | nil =>
      cases ys with
      | nil => rfl
      | cons y ys =>
          rw [List.intercalate_nil, intercalate_cons, eq_comm, List.append_eq_nil_iff] at h
          exact absurd h.1 (hy y List.mem_cons_self).2
  | cons x xs =>
      cases ys with
      | nil =>
          rw [List.intercalate_nil, intercalate_cons, List.append_eq_nil_iff] at h
          exact absurd h.1 (hx x List.mem_cons_self).2
      | cons y ys =>
          rw [intercalate_cons, intercalate_cons] at h
          obtain ⟨rfl, hrest⟩ := append_unique (hx x List.mem_cons_self).1
            (hy y List.mem_cons_self).1 (head?_flatMap_comma xs) (head?_flatMap_comma ys) h
          rw [flatMap_comma_injective (fun z hz => (hx z (List.mem_cons_of_mem x hz)).1)
            (fun z hz => (hy z (List.mem_cons_of_mem x hz)).1) hrest]

namespace Kind

theorem all_isUpper_tag (k : Kind) : k.tag.toList.all Char.isUpper := by
  cases k <;> decide

theorem notMem_tag {k : Kind} {c : Char} (h : c.isUpper = false) : c ∉ k.tag.toList := by
  intro hc
  rw [List.all_eq_true.1 k.all_isUpper_tag c hc] at h
  cases h

theorem tag_ne_empty (k : Kind) : k.tag.toList ≠ [] := by
  cases k <;> decide

theorem tag_injective {j k : Kind} (h : j.tag = k.tag) : j = k := by
  cases j <;> cases k <;> simp_all [tag]

end Kind

namespace Token

def valueChars : Option Number → List Char
  | none => []
  | some n => ':' :: n.write

theorem toList_toText (t : Token) : t.toText.toList = t.kind.tag.toList ++ valueChars t.value := by
  rw [toText]
  cases t.value with
  | none => simp [valueChars]
  | some n => simp [valueChars, Number.toText]

theorem valueChars_eq_iff {v w : Option Number} :
    valueChars v = valueChars w ↔ Option.Rel Number.Alike v w := by
  match v, w with
  | none, none => simp
  | none, some n => simp [valueChars]
  | some m, none => simp [valueChars]
  | some m, some n => simp [valueChars, Number.write_eq_iff]

theorem head?_valueChars (v : Option Number) : ∀ c ∈ (valueChars v).head?, c = ':' := by
  cases v <;> simp [valueChars]

theorem toText_eq_iff {s t : Token} :
    s.toText = t.toText ↔ s.kind = t.kind ∧ Option.Rel Number.Alike s.value t.value := by
  rw [← String.toList_inj, toList_toText, toList_toText, ← valueChars_eq_iff]
  constructor
  · intro h
    obtain ⟨htag, hvalue⟩ := append_unique (Kind.notMem_tag rfl) (Kind.notMem_tag rfl)
      (head?_valueChars _) (head?_valueChars _) h
    exact ⟨Kind.tag_injective (String.toList_inj.1 htag), hvalue⟩
  · rintro ⟨hk, hv⟩
    rw [hk, hv]

theorem mem_toText {t : Token} {c : Char} (h : c ∈ t.toText.toList) : c.isUpper ∨ c.isDigit ∨
    c ∈ [':', '-', '.', 'e', '+', 'i', 'n', 'f', 'N', 'a'] := by
  rw [toList_toText, List.mem_append] at h
  rcases h with h | h
  · exact .inl (List.all_eq_true.1 t.kind.all_isUpper_tag c h)
  · right
    cases hv : t.value with
    | none => simp [hv, valueChars] at h
    | some n =>
        rw [hv, valueChars, List.mem_cons] at h
        rcases h with rfl | h
        · exact .inr List.mem_cons_self
        · exact (Number.mem_write h).imp_right (List.mem_cons_of_mem ':')

theorem comma_notMem_toText (t : Token) : ',' ∉ t.toText.toList := by
  intro h
  exact absurd (mem_toText h) (by decide)

theorem toText_ne_empty (t : Token) : t.toText.toList ≠ [] := by
  rw [toList_toText]
  exact List.append_ne_nil_of_left_ne_nil t.kind.tag_ne_empty _

theorem toList_listText (tokens : List Token) : (listText tokens).toList =
    '[' :: ([',', ' '].intercalate (tokens.map fun t => t.toText.toList) ++ [']']) := by
  simp [listText, Function.comp_def]

theorem lineFeed_notMem_listText (tokens : List Token) : '\n' ∉ (listText tokens).toList := by
  have item (t : Token) : '\n' ∉ t.toText.toList := by
    intro h
    exact absurd (mem_toText h) (by decide)
  rw [toList_listText]
  cases tokens with
  | nil => decide
  | cons t tokens =>
      rw [List.map_cons, intercalate_cons]
      simp [item]

theorem listText_eq_iff {a b : List Token} :
    listText a = listText b ↔ List.Forall₂ (fun s t => s.toText = t.toText) a b := by
  have item (tokens : List Token) :
      ∀ x ∈ tokens.map fun t => t.toText.toList, ',' ∉ x ∧ x ≠ [] :=
    List.forall_mem_map.2 fun t _ => ⟨t.comma_notMem_toText, t.toText_ne_empty⟩
  rw [← String.toList_inj, toList_listText, toList_listText, List.cons_inj_right,
    List.append_left_inj]
  constructor
  · intro h
    have hitems := intercalate_comma_injective (item a) (item b) h
    rw [← List.forall₂_eq_eq_eq, List.forall₂_map_left_iff, List.forall₂_map_right_iff] at hitems
    exact hitems.imp fun _ _ => String.toList_inj.1
  · intro h
    congr 1
    rw [← List.forall₂_eq_eq_eq, List.forall₂_map_left_iff, List.forall₂_map_right_iff]
    exact h.imp fun _ _ => String.toList_inj.2

end Token

namespace Binary64

theorem beq_iff_of_not_isNegative {x y : Binary64} (hx : x.isNaN = false) (hy : y.isNaN = false)
    (hsx : x.isNegative = false) (hsy : y.isNegative = false) : x == y ↔ x.bits = y.bits := by
  rw [beq_iff]
  constructor
  · rintro ⟨-, -, rfl | ⟨hzx, hzy⟩⟩
    · rfl
    · exact congrArg bits (ext_parts (hsx.trans hsy.symm) (hzx.trans hzy.symm))
  · exact fun h => ⟨hx, hy, .inl (congrArg mk h)⟩

end Binary64

namespace Lexeme

theorem float_value {x : Lexeme} {z : Binary64} (h : x.value = some (.float z)) :
    z.isNaN = false ∧ z.isNegative = false := by
  cases x with
  | symbol => cases h
  | whole => cases h
  | pointed digits fraction =>
      obtain rfl := Number.float.inj (Option.some.inj h)
      exact ⟨(Binary64.isRounded_ofDecimal _).notNaN, Binary64.isNegative_ofDecimal _⟩

theorem alike_iff_beq {x y : Lexeme} {m n : Number} (hm : x.value = some m)
    (hn : y.value = some n) : m.Alike n ↔ m == n := by
  match m, n with
  | .int m, .int n => exact beq_iff_eq.symm
  | .int m, .float b => exact iff_of_false id Bool.false_ne_true
  | .float a, .int n => exact iff_of_false id Bool.false_ne_true
  | .float a, .float b =>
      obtain ⟨ha, hsa⟩ := float_value hm
      obtain ⟨hb, hsb⟩ := float_value hn
      have hbeq : (Number.float a == Number.float b) = (a == b) := rfl
      rw [hbeq, Binary64.beq_iff_of_not_isNegative ha hb hsa hsb, Number.Alike, ha]
      simp

theorem rel_alike_iff_rel_beq (x y : Lexeme) : Option.Rel Number.Alike x.value y.value ↔
    Option.Rel (fun m n : Number => m == n) x.value y.value := by
  cases hm : x.value <;> cases hn : y.value
  · simp
  · simp
  · simp
  · simp [alike_iff_beq hm hn]

end Lexeme

theorem exists_value_of_mem_run {source : Source} {tokens : List Token}
    (h : run source = .ok tokens) {t : Token} (ht : t ∈ tokens) :
    ∃ x : Lexeme, t.value = x.value := by
  obtain ⟨s, -, rfl⟩ := Split.run_eq_ok_iff_reads.1 h
  obtain ⟨x, n, -, rfl⟩ := Split.exists_tokenAt_of_mem ht
  exact ⟨x, rfl⟩

theorem forall₂_congr_of_mem {α : Type} {R S : α → α → Prop} {a b : List α}
    (h : ∀ x ∈ a, ∀ y ∈ b, (R x y ↔ S x y)) : List.Forall₂ R a b ↔ List.Forall₂ S a b := by
  rw [List.forall₂_iff_zip, List.forall₂_iff_zip]
  apply and_congr_right
  intro _
  constructor
  · intro hR x y hxy
    obtain ⟨hx, hy⟩ := List.of_mem_zip hxy
    exact (h x hx y hy).1 (hR hxy)
  · intro hS x y hxy
    obtain ⟨hx, hy⟩ := List.of_mem_zip hxy
    exact (h x hx y hy).2 (hS hxy)

/-- Two lists of tokens are written alike if and only if they have the same kinds and, with them, no
values or values that are alike. For the tokens of accepted texts that is equality of the values. -/
theorem listText_eq_iff_alike :
    (∀ a b : List Token, Token.listText a = Token.listText b ↔ List.Forall₂
      (fun s t => s.kind = t.kind ∧ Option.Rel Number.Alike s.value t.value) a b) ∧
    (∀ (n : Nat) (x : Binary64), (Number.int n).toText ≠ (Number.float x).toText) ∧
    (Number.float (.ofParts true 0)).toText ≠ (Number.float (.ofParts false 0)).toText ∧
    (∀ a : List Token, Token.listText a = Token.listText [] ↔ a = []) ∧
    ∀ (s t : Source) (a b : List Token), run s = .ok a → run t = .ok b →
      (Token.listText a = Token.listText b ↔ List.Forall₂
        (fun u v => u.kind = v.kind ∧ Option.Rel (fun m n : Number => m == n) u.value v.value)
        a b) := by
  simp only [Token.listText_eq_iff, Token.toText_eq_iff]
  refine ⟨fun _ _ => trivial, ?_, ?_, ?_, ?_⟩
  · intro n x
    exact mt Number.toText_eq_iff.1 id
  · rw [ne_eq, Number.toText_eq_iff]
    rintro (h | ⟨h, -⟩)
    · exact absurd h (by decide)
    · exact absurd h (by decide)
  · intro a
    exact List.forall₂_nil_right_iff
  · intro s t a b ha hb
    apply forall₂_congr_of_mem
    intro u hu v hv
    obtain ⟨x, hx⟩ := exists_value_of_mem_run ha hu
    obtain ⟨y, hy⟩ := exists_value_of_mem_run hb hv
    apply and_congr_right
    intro _
    rw [hx, hy]
    exact x.rel_alike_iff_rel_beq y

end ExprLexer

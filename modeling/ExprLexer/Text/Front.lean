namespace ExprLexer.Text

variable {p : Char → Bool}

theorem split_front {front : List Char} (hf : ∀ c ∈ front, p c) (rest : List Char)
    (hr : ∀ c ∈ rest.head?, p c = false) :
    (front ++ rest).takeWhile p = front ∧ (front ++ rest).dropWhile p = rest := by
  rw [List.takeWhile_append_of_pos hf, List.dropWhile_append_of_pos hf]
  cases rest with
  | nil => simp
  | cons c rest => simp [hr c rfl]

theorem front_unique {a b u v : List Char} (ha : ∀ c ∈ a, p c) (hb : ∀ c ∈ b, p c)
    (hu : ∀ c ∈ u.head?, p c = false) (hv : ∀ c ∈ v.head?, p c = false) (h : a ++ u = b ++ v) :
    a = b ∧ u = v := by
  have hsplit := split_front ha u hu
  rw [h, (split_front hb v hv).1, (split_front hb v hv).2] at hsplit
  exact ⟨hsplit.1.symm, hsplit.2.symm⟩

end ExprLexer.Text

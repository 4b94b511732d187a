import ExprLexer.Number
import ExprLexer.Text.Front

namespace ExprLexer.Literal

/-- The literal at the front of a text that starts with a digit. A second point ends it. -/
def longest (text : List Char) : List Char :=
  let whole := text.takeWhile Char.isDigit
  match text.dropWhile Char.isDigit with
  | '.' :: rest => whole ++ '.' :: rest.takeWhile Char.isDigit
  | _ => whole

/-- The number that a literal writes; the zero stands in for texts that are no literals. -/
def value (text : List Char) : Number := (Number.read? text).getD (.int 0)

theorem longest_ne_nil {c : Char} (h : c.isDigit) (rest : List Char) :
    longest (c :: rest) ≠ [] := by
  simp only [longest, List.takeWhile_cons, h]
  split <;> simp

theorem longest_prefix (text : List Char) : longest text <+: text := by
  have hsplit := List.takeWhile_append_dropWhile (p := Char.isDigit) (l := text)
  rw [longest]
  split
  · rename_i rest hrest
    rw [hrest] at hsplit
    refine ⟨rest.dropWhile Char.isDigit, ?_⟩
    rw [List.append_assoc, List.cons_append, List.takeWhile_append_dropWhile, hsplit]
  · exact List.takeWhile_prefix _

theorem readUnsigned?_point (negative : Bool) {whole fraction : List Char} (hn : whole ≠ [])
    (hw : ∀ c ∈ whole, c.isDigit) (hf : ∀ c ∈ fraction, c.isDigit) :
    Decimal.readUnsigned? negative (whole ++ '.' :: fraction) =
      some ⟨negative, Decimal.ofNumeral (whole ++ fraction), -fraction.length⟩ := by
  have hs := Text.split_front hw ('.' :: fraction) (by simp)
  have hd := Text.split_front hf [] (by simp)
  rw [List.append_nil] at hd
  simp only [Decimal.readUnsigned?, hs, Decimal.splitFraction, hd, Decimal.readExponent?]
  simp [hn]

theorem read?_point {whole fraction : List Char} (hn : whole ≠ []) (hw : ∀ c ∈ whole, c.isDigit)
    (hf : ∀ c ∈ fraction, c.isDigit) :
    Number.read? (whole ++ '.' :: fraction) = some (.float (Binary64.ofDecimal
      ⟨false, Decimal.ofNumeral (whole ++ fraction), -fraction.length⟩)) := by
  have hunsigned := readUnsigned?_point false hn hw hf
  obtain ⟨first, more, rfl⟩ := List.exists_cons_of_ne_nil hn
  have hm : first ≠ '-' := by
    rintro rfl
    exact absurd (hw '-' List.mem_cons_self) (by decide)
  have hread : Decimal.read? (first :: more ++ '.' :: fraction) =
      Decimal.readUnsigned? false (first :: more ++ '.' :: fraction) := by
    unfold Decimal.read?
    split
    · simp_all
    · rfl
  simp only [Number.read?, Decimal.isNumeral, hread, hunsigned]
  simp

theorem read?_digits {whole : List Char} (hn : whole ≠ []) (hw : ∀ c ∈ whole, c.isDigit) :
    Number.read? whole = some (.int (Decimal.ofNumeral whole)) := by
  have : Decimal.isNumeral whole := by
    simpa [Decimal.isNumeral, hn] using hw
  simp [Number.read?, this]

end ExprLexer.Literal

import ExprLexer.Cli.Report
import Mathlib.Data.List.Induction

namespace ExprLexer

namespace Text

theorem exists_toUTF8_eq {content : ByteArray} (h : content.IsValidUTF8) :
    ∃ text : String, text.toUTF8 = content := ⟨⟨content, h⟩, rfl⟩

theorem isValidUTF8_toUTF8 (text : String) : text.toUTF8.IsValidUTF8 := text.isValidUTF8

theorem toUTF8_append (a b : String) : (a ++ b).toUTF8 = a.toUTF8 ++ b.toUTF8 := by
  simp [String.toUTF8_eq_toByteArray]

theorem toUTF8_injective : Function.Injective String.toUTF8 := by
  intro a b h
  rwa [String.toUTF8_eq_toByteArray, String.toUTF8_eq_toByteArray, String.toByteArray_inj] at h

def bytes (text : String) : List UInt8 := text.toUTF8.data.toList

theorem bytes_eq_flatMap (text : String) :
    bytes text = text.toList.flatMap String.utf8EncodeChar := by
  rw [bytes, String.toUTF8_eq_toByteArray, ← String.utf8Encode_toList, List.utf8Encode,
    List.toList_data_toByteArray]

@[simp]
theorem bytes_append (a b : String) : bytes (a ++ b) = bytes a ++ bytes b := by
  simp [bytes_eq_flatMap]

theorem toUTF8_eq_iff {text : String} {content : ByteArray} :
    text.toUTF8 = content ↔ bytes text = content.data.toList := by
  rw [bytes, Array.toList_inj, ByteArray.ext_iff]

theorem bytes_injective : Function.Injective bytes :=
  fun _ _ h => toUTF8_injective (toUTF8_eq_iff.2 h)

/-- The first byte of a character is no later byte of one. -/
theorem utf8EncodeChar_eq_of_suffix {c d : Char}
    (h : String.utf8EncodeChar c <:+ String.utf8EncodeChar d) :
    String.utf8EncodeChar c = String.utf8EncodeChar d := by
  obtain ⟨front, hfront⟩ := h
  have hlength := congrArg List.length hfront
  rw [List.length_append] at hlength
  have hpos := List.length_pos_iff.2 (String.utf8EncodeChar_ne_nil (c := c))
  have hfirst : (String.utf8EncodeChar d)[front.length].IsUTF8FirstByte := by
    have hbyte : (String.utf8EncodeChar d)[front.length] = (String.utf8EncodeChar c)[0] := by
      simp [← hfront]
    rw [hbyte, UInt8.isUTF8FirstByte_getElem_utf8EncodeChar]
  have hzero := UInt8.isUTF8FirstByte_getElem_utf8EncodeChar.1 hfirst
  rw [← hfront, List.eq_nil_of_length_eq_zero hzero, List.nil_append]

theorem exists_flatMap_utf8EncodeChar {chars ending : List Char} {front : List UInt8}
    (h : chars.flatMap String.utf8EncodeChar = front ++ ending.flatMap String.utf8EncodeChar) :
    ∃ init : List Char, init.flatMap String.utf8EncodeChar = front := by
  -- the last characters of both sides have the same bytes, and are taken off one by one
  induction ending using List.reverseRecOn generalizing chars with
  | nil => exact ⟨chars, by rw [h, List.flatMap_nil, List.append_nil]⟩
  | append_singleton ending c ih =>
      rw [List.flatMap_append, List.flatMap_singleton, ← List.append_assoc] at h
      rcases List.eq_nil_or_concat chars with rfl | ⟨chars, d, rfl⟩
      · exact absurd (List.append_eq_nil_iff.1 h.symm).2 String.utf8EncodeChar_ne_nil
      · rw [List.concat_eq_append, List.flatMap_append, List.flatMap_singleton] at h
        have hlast : String.utf8EncodeChar c = String.utf8EncodeChar d := by
          rcases List.suffix_or_suffix_of_suffix (List.suffix_append _ _) ⟨_, h⟩ with hcd | hdc
          · exact utf8EncodeChar_eq_of_suffix hcd
          · exact (utf8EncodeChar_eq_of_suffix hdc).symm
        rw [hlast] at h
        exact ih (List.append_cancel_right h)

theorem exists_of_bytes_eq_append {text ending : String} {front : List UInt8}
    (h : bytes text = front ++ bytes ending) :
    ∃ init, bytes init = front ∧ text = init ++ ending := by
  have hchars := h
  rw [bytes_eq_flatMap, bytes_eq_flatMap] at hchars
  obtain ⟨init, hinit⟩ := exists_flatMap_utf8EncodeChar hchars
  have hfront : bytes (String.ofList init) = front := by
    rw [bytes_eq_flatMap, String.toList_ofList, hinit]
  refine ⟨String.ofList init, hfront, bytes_injective ?_⟩
  rw [h, bytes_append, hfront]

end Text

namespace Cli

theorem decodeText_toUTF8 (text : String) : decodeText text.toUTF8 = .ok text := by
  rw [decodeText, String.fromUTF8?, dif_pos (Text.isValidUTF8_toUTF8 text)]
  rfl

theorem decodeText_of_not_valid {content : ByteArray} (h : ¬ content.IsValidUTF8) :
    decodeText content = .error .notText := by
  rw [decodeText, String.fromUTF8?, dif_neg h]

/-- A text at the end makes no bytes a text that were none. -/
theorem decodeText_append (content : ByteArray) (ending : String) :
    decodeText (content ++ ending.toUTF8) = (decodeText content).map (· ++ ending) := by
  by_cases h : content.IsValidUTF8
  · obtain ⟨text, rfl⟩ := Text.exists_toUTF8_eq h
    rw [← Text.toUTF8_append, decodeText_toUTF8, decodeText_toUTF8]
    rfl
  · have hsum : ¬ (content ++ ending.toUTF8).IsValidUTF8 := by
      intro hvalid
      obtain ⟨text, htext⟩ := Text.exists_toUTF8_eq hvalid
      rw [Text.toUTF8_eq_iff, ByteArray.data_append, Array.toList_append] at htext
      obtain ⟨init, hinit, -⟩ := Text.exists_of_bytes_eq_append htext
      rw [← Text.toUTF8_eq_iff.2 hinit] at h
      exact h (Text.isValidUTF8_toUTF8 init)
    rw [decodeText_of_not_valid h, decodeText_of_not_valid hsum]
    rfl

end Cli
end ExprLexer

import ExprLexer.Proofs.Decimal.Canonical
import ExprLexer.Proofs.MaximalMunch
import Mathlib.Algebra.BigOperators.Fin

namespace ExprLexer

namespace Decimal

/-- The sum of the digits, each times the power of ten of its place. -/
def placeSum (digits : List Char) : Nat :=
  ∑ i : Fin digits.length, (digits[i].toNat - '0'.toNat) * 10 ^ (digits.length - 1 - i)

theorem placeSum_cons (c : Char) (digits : List Char) :
    placeSum (c :: digits) = (c.toNat - '0'.toNat) * 10 ^ digits.length + placeSum digits := by
  refine (Fin.sum_univ_succ fun i : Fin (digits.length + 1) => _).trans ?_
  apply congrArg₂ _ rfl
  refine Finset.sum_congr rfl fun i _ => ?_
  have hplace : (c :: digits).length - 1 - i.succ = digits.length - 1 - i := by
    rw [List.length_cons, Fin.val_succ]
    omega
  rw [hplace]
  rfl

theorem ofNumeral_eq_placeSum (digits : List Char) : ofNumeral digits = placeSum digits := by
  induction digits with
  | nil => rfl
  | cons c digits ih => rw [ofNumeral_cons, ih, placeSum_cons]

theorem ofNumeral_dropWhile_zero (digits : List Char) :
    ofNumeral (digits.dropWhile (· = '0')) = ofNumeral digits := by
  have hsplit := List.takeWhile_append_dropWhile (p := (· = '0')) (l := digits)
  rw [takeWhile_zero] at hsplit
  conv_rhs => rw [← hsplit, ofNumeral_zeros_append]

/-- Numerals stand for the same number if and only if they are the same but for zeros in front. -/
theorem ofNumeral_eq_iff {a b : List Char} (ha : AreDigits a) (hb : AreDigits b) :
    ofNumeral a = ofNumeral b ↔ a.dropWhile (· = '0') = b.dropWhile (· = '0') := by
  constructor
  · intro h
    -- filled up with zeros to the same length, they are the same
    have hfilled : List.replicate b.length '0' ++ a = List.replicate a.length '0' ++ b := by
      apply eq_of_ofNumeral_eq ((areDigits_zeros _).append ha) ((areDigits_zeros _).append hb)
      · simp [Nat.add_comm]
      · rw [ofNumeral_zeros_append, ofNumeral_zeros_append, h]
    rw [← dropWhile_zeros b.length a, hfilled, dropWhile_zeros]
  · intro h
    rw [← ofNumeral_dropWhile_zero a, h, ofNumeral_dropWhile_zero]

/-- The digits that a number is written with: none of them could be left out. -/
structure IsNumeralOf (n : Nat) (digits : List Char) : Prop where
  nonempty : digits ≠ []
  areDigits : AreDigits digits
  value : placeSum digits = n
  no_zero_in_front : digits = ['0'] ∨ ∀ c ∈ digits.head?, c ≠ '0'

theorem isNumeralOf_toDigits (n : Nat) : IsNumeralOf n (Nat.toDigits 10 n) := by
  refine ⟨Nat.toDigits_ne_nil, areDigits_toDigits n, ?_, ?_⟩
  · rw [← ofNumeral_eq_placeSum, ofNumeral_toDigits]
  · by_cases hn : n = 0
    · subst hn
      exact .inl (by decide)
    · exact .inr (head?_toDigits hn)

theorem toDigits_ofNumeral {digits : List Char} (hd : AreDigits digits) :
    Nat.toDigits 10 (ofNumeral digits) = orZero (digits.dropWhile (· = '0')) := by
  have hsame := (ofNumeral_eq_iff (areDigits_toDigits (ofNumeral digits)) hd).1
    (ofNumeral_toDigits _)
  have hnumeral := isNumeralOf_toDigits (ofNumeral digits)
  rw [← hsame, orZero_dropWhile hnumeral.nonempty hnumeral.no_zero_in_front]

end Decimal

open Decimal (AreDigits IsNumeralOf ofNumeral orZero placeSum)

def wholeSource (name : String) (digits : List Char) : Source := ⟨name, String.ofList digits⟩

def wholeToken (source : Source) (digits : List Char) : Token :=
  ⟨.int, some (.int (ofNumeral digits)),
    ⟨.start source, (Position.start source).forward digits.length⟩⟩

theorem run_wholeSource (name : String) {digits : List Char} (hn : digits ≠ [])
    (hd : AreDigits digits) :
    run (wholeSource name digits) = .ok [wholeToken (wholeSource name digits) digits] :=
  (Split.Reads.lone_all (.whole digits hn hd)).run_ok String.toList_ofList

theorem toText_wholeToken (source : Source) {digits : List Char} (hd : AreDigits digits) :
    (wholeToken source digits).toText =
      "INT:" ++ String.ofList (orZero (digits.dropWhile (· = '0'))) := by
  rw [← Decimal.toDigits_ofNumeral hd]
  rfl

/-- Digits alone are one token, and its number is what they stand for. It is written with these digits
but for zeros in front, so digits that differ in such zeros alone, and no others, are the same number. -/
theorem run_whole_literal (name : String) :
    (∀ n, ∃ digits, IsNumeralOf n digits ∧ ∀ k, ∃ token,
      run (wholeSource name (List.replicate k '0' ++ digits)) = .ok [token] ∧
      token.kind = .int ∧ token.value = some (.int n) ∧
      token.toText = "INT:" ++ String.ofList digits) ∧
    (∀ digits, digits ≠ [] → AreDigits digits → ∃ token,
      run (wholeSource name digits) = .ok [token] ∧
      token.kind = .int ∧ token.value = some (.int (placeSum digits)) ∧
      token.toText = "INT:" ++ String.ofList (orZero (digits.dropWhile (· = '0')))) ∧
    ∀ a b s t, a ≠ [] → AreDigits a → b ≠ [] → AreDigits b →
      run (wholeSource name a) = .ok [s] → run (wholeSource name b) = .ok [t] →
      (s.value = t.value ↔ a.dropWhile (· = '0') = b.dropWhile (· = '0')) := by
  refine ⟨fun n => ?_, fun digits hn hd => ?_, ?_⟩
  · have hnumeral := Decimal.isNumeralOf_toDigits n
    refine ⟨Nat.toDigits 10 n, hnumeral, fun k => ?_⟩
    have hn := List.append_ne_nil_of_right_ne_nil (List.replicate k '0') hnumeral.nonempty
    have hd := (Decimal.areDigits_zeros k).append hnumeral.areDigits
    refine ⟨_, run_wholeSource name hn hd, rfl, ?_, ?_⟩
    · rw [wholeToken, Decimal.ofNumeral_zeros_append, Decimal.ofNumeral_toDigits]
    · rw [toText_wholeToken _ hd, Decimal.dropWhile_zeros,
        Decimal.orZero_dropWhile hnumeral.nonempty hnumeral.no_zero_in_front]
  · refine ⟨_, run_wholeSource name hn hd, rfl, ?_, toText_wholeToken _ hd⟩
    rw [wholeToken, Decimal.ofNumeral_eq_placeSum]
  · intro a b s t hna hda hnb hdb hs ht
    rw [run_wholeSource name hna hda] at hs
    rw [run_wholeSource name hnb hdb] at ht
    obtain rfl := (List.cons.inj (Except.ok.inj hs)).1
    obtain rfl := (List.cons.inj (Except.ok.inj ht)).1
    rw [← Decimal.ofNumeral_eq_iff hda hdb]
    simp [wholeToken]

end ExprLexer

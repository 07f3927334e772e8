import Mathlib.Data.List.Basic
import FormulaExport.Index
import FormulaExport.Proofs.Text.Numeral

/-!
# How positions are spelled

A position is a numeral of value zero or one, however many zeros stand in front: an optional `+`,
any number of zeros and the digit of the position (`Position.IsSpelled`). The reader of positions
accepts these spellings and no others (`Position.ofLabel?_eq_some_iff`).
-/

set_option autoImplicit false

namespace FormulaExport.Position

open FormulaExport.Text

def digit : Position → Char
  | first => '0'
  | second => '1'

/-- A label spells a position by an optional `+`, any number of zeros and the digit of the position.
-/
def IsSpelled (position : Position) (label : String) : Prop :=
  ∃ sign zeros, (sign = [] ∨ sign = ['+']) ∧
    label.toList = sign ++ List.replicate zeros '0' ++ [position.digit]

/-! ## Digits of small numbers -/

theorem isDigit_ten_iff {c : Char} {digit : Nat} :
    IsDigit 10 c digit ↔ digit < 10 ∧ c = Nat.digitChar digit := by
  have oneForm : ∀ d < 10, (Nat.digitChar d).toUpper = Nat.digitChar d := by decide
  constructor
  · rintro ⟨small, rfl | rfl⟩
    · exact ⟨small, rfl⟩
    · exact ⟨small, oneForm digit small⟩
  · rintro ⟨small, rfl⟩
    exact ⟨small, Or.inl rfl⟩

theorem forall₂_isDigit_ten_iff {characters : List Char} {digits : List Nat} :
    List.Forall₂ (IsDigit 10) characters digits ↔
      (∀ digit ∈ digits, digit < 10) ∧ characters = digits.map Nat.digitChar := by
  induction digits generalizing characters with
  | nil => simp
  | cons digit digits ih =>
      rw [List.forall₂_cons_right_iff, List.map_cons, List.forall_mem_cons]
      constructor
      · rintro ⟨c, characters, isDigit, areDigits, rfl⟩
        obtain ⟨small, rfl⟩ := isDigit_ten_iff.mp isDigit
        obtain ⟨allSmall, rfl⟩ := ih.mp areDigits
        exact ⟨⟨small, allSmall⟩, rfl⟩
      · rintro ⟨⟨small, allSmall⟩, rfl⟩
        exact ⟨_, _, isDigit_ten_iff.mpr ⟨small, rfl⟩, ih.mpr ⟨allSmall, rfl⟩, rfl⟩

theorem eq_zero_of_ofDigits_eq_zero {digits : List Nat} (h : Nat.ofDigits 10 digits = 0) :
    ∀ digit ∈ digits, digit = 0 := by
  induction digits with
  | nil => nofun
  | cons digit digits ih =>
      rw [Nat.ofDigits_cons] at h
      exact List.forall_mem_cons.mpr ⟨by omega, ih (by omega)⟩

theorem digits_eq_of_le_one {digits : List Nat} (nonempty : digits ≠ [])
    (h : Nat.ofDigits 10 digits.reverse ≤ 1) :
    ∃ zeros, digits = List.replicate zeros 0 ++ [Nat.ofDigits 10 digits.reverse] := by
  obtain ⟨front, last, rfl⟩ := (List.eq_nil_or_concat digits).resolve_left nonempty
  rw [List.concat_eq_append, List.reverse_append, List.reverse_singleton, List.singleton_append,
    Nat.ofDigits_cons] at h ⊢
  have none : Nat.ofDigits 10 front.reverse = 0 := by omega
  refine ⟨front.length, ?_⟩
  have zeros : front = List.replicate front.length 0 := by
    refine List.eq_replicate_of_mem ?_
    intro digit inside
    exact eq_zero_of_ofDigits_eq_zero none digit (List.mem_reverse.mpr inside)
  rw [none, ← zeros]
  simp

/-! ## Spellings -/

theorem digit_eq_digitChar (position : Position) :
    position.digit = Nat.digitChar position.number := by
  cases position <;> rfl

theorem number_le_one (position : Position) : position.number ≤ 1 := by
  cases position <;> decide

theorem ofLabel?_eq_some_iff_numeral {position : Position} {label : String} :
    ofLabel? label = some position ↔ numeral? 10 label.toList = some position.number := by
  unfold ofLabel?
  constructor
  · intro h
    split at h
    · next value =>
      cases h
      exact value
    · next value =>
      cases h
      exact value
    · cases h
  · intro value
    rw [value]
    cases position <;> rfl

/-- The digits of a spelling: those of the number behind zeros. -/
theorem digits_of_position (position : Position) (zeros : Nat) :
    List.Forall₂ (IsDigit 10) (List.replicate zeros '0' ++ [position.digit])
        (List.replicate zeros 0 ++ [position.number]) ∧
      Nat.ofDigits 10 (List.replicate zeros 0 ++ [position.number]).reverse = position.number := by
  constructor
  · rw [forall₂_isDigit_ten_iff, List.map_append, List.map_replicate, List.map_singleton,
      digit_eq_digitChar]
    refine ⟨?_, rfl⟩
    intro digit inside
    rcases List.mem_append.mp inside with inside | inside
    · rw [List.eq_of_mem_replicate inside]
      decide
    · rw [List.mem_singleton.mp inside]
      exact position.number_le_one.trans_lt (by decide)
  · rw [List.reverse_append, List.reverse_singleton, List.singleton_append, List.reverse_replicate,
      Nat.ofDigits_cons, Nat.ofDigits_replicate_zero]
    simp

/-- The positions that can be read are those that a label spells. -/
theorem ofLabel?_eq_some_iff {position : Position} {label : String} :
    ofLabel? label = some position ↔ position.IsSpelled label := by
  rw [ofLabel?_eq_some_iff_numeral, numeral?_eq_some_iff (by decide), IsSpelled]
  constructor
  · intro h
    generalize value : position.number = n at h
    generalize label.toList = text at h ⊢
    obtain ⟨isSign, nonempty, areDigits⟩ := h
    have small := position.number_le_one
    rw [value] at small
    obtain ⟨zeros, digits⟩ := digits_eq_of_le_one nonempty small
    rw [← value] at digits
    obtain ⟨-, rfl⟩ := forall₂_isDigit_ten_iff.mp areDigits
    refine ⟨_, zeros, isSign, ?_⟩
    rw [digits, List.map_append, List.map_replicate, List.map_singleton, ← digit_eq_digitChar,
      List.append_assoc]
    rfl
  · rintro ⟨sign, zeros, isSign, text⟩
    obtain ⟨areDigits, value⟩ := digits_of_position position zeros
    have numeral := IsNumeral.mk isSign (by simp) areDigits
    rw [value, ← List.append_assoc, ← text] at numeral
    exact numeral

instance (position : Position) (label : String) : Decidable (position.IsSpelled label) :=
  decidable_of_iff _ ofLabel?_eq_some_iff

theorem IsSpelled.unique {position other : Position} {label : String} (h : position.IsSpelled label)
    (h' : other.IsSpelled label) : position = other :=
  Option.some.inj ((ofLabel?_eq_some_iff.mpr h).symm.trans (ofLabel?_eq_some_iff.mpr h'))

end FormulaExport.Position

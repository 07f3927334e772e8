import Mathlib.Data.List.Basic
import Mathlib.Tactic.SplitIfs

/-!
# Lexicographic orders

A place in a tree is given by the keys that lead there, and the **order of places** is that of
lists: the first key that differs decides, and a place comes before those behind it. Places that are
listed branch by branch, with the branches in the order of their keys, stand in this order
(`pairwise_lt_append`, `pairwise_lt_flatMap`).

Strings are ordered character by character. UTF-8 is made so that this is also the order of their
**bytes** (`utf8_lt`).
-/

set_option autoImplicit false

namespace FormulaExport

/-! ## Places -/

section

variable {κ : Type} [LT κ] {key : κ} {within behind : List (List κ)}

theorem pairwise_lt_map_cons (h : within.Pairwise (· < ·)) :
    (within.map (key :: ·)).Pairwise (· < ·) :=
  List.pairwise_map.mpr (h.imp fun less => List.Lex.cons less)

theorem pairwise_lt_append (h : within.Pairwise (· < ·)) (h' : behind.Pairwise (· < ·))
    (larger : ∀ place ∈ behind, ∃ other place', place = other :: place' ∧ key < other) :
    (within.map (key :: ·) ++ behind).Pairwise (· < ·) := by
  refine List.pairwise_append.mpr ⟨pairwise_lt_map_cons h, h', ?_⟩
  intro place inside place' inside'
  obtain ⟨_, -, rfl⟩ := List.mem_map.mp inside
  obtain ⟨_, _, rfl, less⟩ := larger place' inside'
  exact .rel less

/-- Branches in the order of their keys, each with its places in order, have all places in order. -/
theorem pairwise_lt_flatMap {branches : List (κ × List (List κ))}
    (keys : branches.Pairwise fun branch other => branch.1 < other.1)
    (each : ∀ branch ∈ branches, branch.2.Pairwise (· < ·)) :
    (branches.flatMap fun branch => branch.2.map (branch.1 :: ·)).Pairwise (· < ·) := by
  induction keys with
  | nil => exact .nil
  | @cons branch branches less _ ih =>
      rw [List.flatMap_cons]
      refine pairwise_lt_append (each branch List.mem_cons_self)
        (ih fun other inside => each other (List.mem_cons_of_mem _ inside)) ?_
      intro place inside
      obtain ⟨other, among, inside⟩ := List.mem_flatMap.mp inside
      obtain ⟨place', -, rfl⟩ := List.mem_map.mp inside
      exact ⟨other.1, place', rfl, less other among⟩

end

/-! ## Bytes -/

theorem div_lt_or_mod_lt {m n : Nat} (h : m < n) (unit : Nat) :
    m / unit < n / unit ∨ m / unit = n / unit ∧ m % unit < n % unit := by
  rcases Nat.lt_or_eq_of_le (Nat.div_le_div_right (c := unit) (Nat.le_of_lt h)) with less | same
  · exact Or.inl less
  · have ofM := Nat.div_add_mod m unit
    have ofN := Nat.div_add_mod n unit
    rw [same] at ofM
    exact Or.inr ⟨same, by omega⟩

/-- The digits to the base 64 that decide which of two numbers is smaller. -/
theorem digits_lt {m n : Nat} (h : m < n) :
    m / 262144 < n / 262144 ∨ m / 262144 = n / 262144 ∧
      (m / 4096 % 64 < n / 4096 % 64 ∨ m / 4096 % 64 = n / 4096 % 64 ∧
        (m / 64 % 64 < n / 64 % 64 ∨ m / 64 % 64 = n / 64 % 64 ∧ m % 64 < n % 64)) := by
  have last := div_lt_or_mod_lt h 64
  have second := fun h => div_lt_or_mod_lt (m := m / 64) (n := n / 64) h 64
  have first := fun h => div_lt_or_mod_lt (m := m / 4096) (n := n / 4096) h 64
  simp only [Nat.div_div_eq_div_mul] at second first
  omega

/-- The bytes of a smaller character come first, whatever stands behind them. -/
theorem utf8EncodeChar_append_lt {c d : Char} (h : c < d) (rest rest' : List UInt8) :
    String.utf8EncodeChar c ++ rest < String.utf8EncodeChar d ++ rest' := by
  have less : c.val.toNat < d.val.toNat := h
  have bound : d.val.toNat < 0x110000 := by
    rcases d.valid with small | large
    · exact Nat.lt_trans small (by decide)
    · exact large.2
  simp only [String.utf8EncodeChar]
  generalize c.val.toNat = m at *
  generalize d.val.toNat = n at *
  have digits := digits_lt less
  -- fewer bytes mean a smaller first byte; with equally many bytes the digits decide
  split_ifs <;>
    simp (disch := omega) only [List.cons_append, List.nil_append, List.cons_lt_cons_iff,
      UInt8.lt_iff_toNat_lt, ← UInt8.toNat_inj, UInt8.toNat_ofNat', Nat.mod_eq_of_lt,
      Nat.add_lt_add_iff_right, Nat.add_right_cancel_iff] <;>
    omega

theorem flatMap_utf8EncodeChar_lt {text text' : List Char} (h : text < text') :
    text.flatMap String.utf8EncodeChar < text'.flatMap String.utf8EncodeChar := by
  induction h with
  | @nil c text' =>
      rw [List.flatMap_nil, List.flatMap_cons]
      have nonempty : String.utf8EncodeChar c ≠ [] := String.utf8EncodeChar_ne_nil
      obtain ⟨byte, bytes, split⟩ := List.exists_cons_of_ne_nil nonempty
      rw [split]
      exact List.nil_lt_cons _ _
  | @rel c text d text' less =>
      rw [List.flatMap_cons, List.flatMap_cons]
      exact utf8EncodeChar_append_lt less _ _
  | @cons c text text' _ ih =>
      rw [List.flatMap_cons, List.flatMap_cons]
      exact List.append_left_lt ih

/-- The bytes of a string, in UTF-8. -/
def utf8 (text : String) : List UInt8 := text.toUTF8.data.toList

theorem utf8_eq (text : String) : utf8 text = text.toList.flatMap String.utf8EncodeChar := by
  rw [utf8, String.toUTF8_eq_toByteArray, ← String.utf8Encode_toList, List.utf8Encode,
    List.toList_data_toByteArray]

/-- The order of strings is the order of their bytes. -/
theorem utf8_lt {text text' : String} (h : text < text') : utf8 text < utf8 text' := by
  rw [utf8_eq, utf8_eq]
  exact flatMap_utf8EncodeChar_lt h

end FormulaExport

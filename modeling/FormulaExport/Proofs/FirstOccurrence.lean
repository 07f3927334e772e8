import Mathlib.Data.List.Basic
import Mathlib.Data.List.Induction

/-!
# Lists by first occurrence

A list gives the members of another one **by first occurrence** if it has the same members and they
stand in the order in which they come first there. So every member stands in it once. This is what
becomes of a list whose members are added one after the other, each unless it is there already
(`ByFirstOccurrence.add`), and what erasing duplicates leaves of it (`byFirstOccurrence_eraseDups`).
-/

set_option autoImplicit false

namespace FormulaExport

variable {α : Type} [BEq α]

/-- A list gives the members of another one by first occurrence. -/
def ByFirstOccurrence (listed all : List α) : Prop :=
  (∀ a, a ∈ listed ↔ a ∈ all) ∧ listed.Pairwise fun a b => all.idxOf a < all.idxOf b

variable {listed all : List α} {a : α}

theorem byFirstOccurrence_nil : ByFirstOccurrence ([] : List α) [] :=
  ⟨fun _ => Iff.rfl, .nil⟩

theorem ByFirstOccurrence.nodup (h : ByFirstOccurrence listed all) : listed.Nodup := by
  refine h.2.imp ?_
  rintro a _ less rfl
  exact Nat.lt_irrefl _ less

variable [LawfulBEq α]

/-- The order of what is listed stays the same when more comes behind. -/
theorem ByFirstOccurrence.pairwise_append (h : ByFirstOccurrence listed all) (more : List α) :
    listed.Pairwise fun a b => (all ++ more).idxOf a < (all ++ more).idxOf b := by
  refine h.2.imp_of_mem ?_
  intro a b inside inside' less
  rw [List.idxOf_append_of_mem ((h.1 a).mp inside), List.idxOf_append_of_mem ((h.1 b).mp inside')]
  exact less

theorem ByFirstOccurrence.concat_of_mem (h : ByFirstOccurrence listed all) (inside : a ∈ listed) :
    ByFirstOccurrence listed (all ++ [a]) := by
  refine ⟨?_, h.pairwise_append [a]⟩
  intro b
  rw [List.mem_append, List.mem_singleton, ← h.1]
  exact ⟨Or.inl, fun either => either.elim id fun same => same ▸ inside⟩

theorem ByFirstOccurrence.concat_of_not_mem (h : ByFirstOccurrence listed all)
    (outside : a ∉ listed) : ByFirstOccurrence (listed ++ [a]) (all ++ [a]) := by
  have new : a ∉ all := fun inside => outside ((h.1 a).mpr inside)
  refine ⟨?_, List.pairwise_append.mpr ⟨h.pairwise_append [a], List.pairwise_singleton _ _, ?_⟩⟩
  · intro b
    rw [List.mem_append, List.mem_append, h.1]
  · intro b inside _ isLast
    obtain rfl := List.mem_singleton.mp isLast
    have old := (h.1 b).mp inside
    rw [List.idxOf_append_of_mem old, List.idxOf_append_of_notMem new]
    exact Nat.lt_add_right _ (List.idxOf_lt_length_of_mem old)

/-- Adding members one by one, each unless it is there, lists them by first occurrence. -/
theorem ByFirstOccurrence.add (h : ByFirstOccurrence listed all) (a : α) [Decidable (a ∈ listed)] :
    ByFirstOccurrence (if a ∈ listed then listed else listed ++ [a]) (all ++ [a]) := by
  by_cases inside : a ∈ listed
  · rw [if_pos inside]
    exact h.concat_of_mem inside
  · rw [if_neg inside]
    exact h.concat_of_not_mem inside

/-! ## Erasing duplicates -/

theorem eraseDups_concat_of_mem (h : a ∈ all) : (all ++ [a]).eraseDups = all.eraseDups := by
  have nothing : [a].removeAll all = [] := by simp [List.removeAll, h]
  rw [List.eraseDups_append, nothing, List.eraseDups_nil, List.append_nil]

theorem eraseDups_concat_of_not_mem (h : a ∉ all) :
    (all ++ [a]).eraseDups = all.eraseDups ++ [a] := by
  have one : [a].removeAll all = [a] := by simp [List.removeAll, h]
  rw [List.eraseDups_append, one, List.eraseDups_cons]
  rfl

theorem byFirstOccurrence_eraseDups (all : List α) : ByFirstOccurrence all.eraseDups all := by
  induction all using List.reverseRecOn with
  | nil => exact byFirstOccurrence_nil
  | append_singleton all a ih =>
      by_cases inside : a ∈ all
      · rw [eraseDups_concat_of_mem inside]
        exact ih.concat_of_mem ((ih.1 a).mpr inside)
      · rw [eraseDups_concat_of_not_mem inside]
        exact ih.concat_of_not_mem fun known => inside ((ih.1 a).mp known)

end FormulaExport

import Mathlib.Data.List.TakeWhile

/-!
# Runs of characters

Numbers, names and labels are read in the same way: characters of one kind are taken as long as
there are any. Such a run is read off exactly if what stands behind it does not go on with it.
-/

set_option autoImplicit false

namespace FormulaExport.Text

/-- A run is taken off as a whole if what stands behind it does not go on with it. -/
theorem takeWhile_run {p : Char → Bool} {run rest : List Char} (all : ∀ c ∈ run, p c = true)
    (stop : ∀ c ∈ rest.head?, p c = false) :
    (run ++ rest).takeWhile p = run ∧ (run ++ rest).dropWhile p = rest := by
  rw [List.takeWhile_append_of_pos all, List.dropWhile_append_of_pos all]
  cases rest with
  | nil => exact ⟨List.append_nil run, rfl⟩
  | cons c rest =>
      have other : ¬ p c = true := by
        rw [stop c rfl]
        exact Bool.false_ne_true
      rw [List.takeWhile_cons_of_neg other, List.dropWhile_cons_of_neg other]
      exact ⟨List.append_nil run, rfl⟩

theorem stop_dropWhile (p : Char → Bool) (text : List Char) :
    ∀ c ∈ (text.dropWhile p).head?, p c = false := by
  intro c first
  have stop := List.head?_dropWhile_not p text
  rw [first] at stop
  exact stop

end FormulaExport.Text

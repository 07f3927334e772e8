import Mathlib.Data.List.Induction
import FormulaExport.Text.Place

/-!
# Lines and columns

The place behind a text, said without counting along the text: its line is told by the line feeds of
the text, its column by the characters behind the last of them.
-/

set_option autoImplicit false

namespace FormulaExport.Text.Place

/-- The characters of a text behind its last line feed. -/
def lastLine (text : List Char) : List Char :=
  (text.reverse.takeWhile (· != '\n')).reverse

theorem lastLine_concat (text : List Char) (c : Char) :
    lastLine (text ++ [c]) = if c = '\n' then [] else lastLine text ++ [c] := by
  by_cases feed : c = '\n'
  · simp [lastLine, feed]
  · simp [lastLine, feed]

theorem behind_concat (text : List Char) (c : Char) :
    behind (text ++ [c]) = (behind text).next c := by
  rw [behind, behind, List.foldl_append, List.foldl_cons, List.foldl_nil]

/-- The line behind a text is one more than its line feeds, and the column one more than the
characters of its last line. -/
theorem behind_eq (text : List Char) :
    behind text = ⟨text.count '\n' + 1, (lastLine text).length + 1⟩ := by
  induction text using List.reverseRecOn with
  | nil => rfl
  | append_singleton text c ih =>
      rw [behind_concat, ih, next, lastLine_concat, List.count_append, List.count_singleton]
      by_cases feed : c = '\n'
      · simp [feed]
      · simp [feed]

end FormulaExport.Text.Place

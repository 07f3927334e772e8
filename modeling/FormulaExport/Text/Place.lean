/-!
# Places in a text

A **place** is named by its line and column, both counted from one. A line ends at a line feed,
and columns count characters.
-/

set_option autoImplicit false

namespace FormulaExport.Text

/-- A **place** in a text. -/
structure Place where
  line : Nat
  column : Nat
deriving DecidableEq, Repr

namespace Place

/-- The place of the first character of a text. -/
def start : Place := ⟨1, 1⟩

/-- The place behind a character that stands at a given place. -/
def next (place : Place) (c : Char) : Place :=
  if c = '\n' then ⟨place.line + 1, 1⟩ else ⟨place.line, place.column + 1⟩

/-- The place behind a text that begins at the start. -/
def behind (text : List Char) : Place := text.foldl next start

end Place

end FormulaExport.Text

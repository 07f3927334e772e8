import Std.Data.HashMap
import FormulaExport.Traced

/-!
# Letters for identifiers

Identifiers are replaced by single **letters**: the first one by `x`, each new one by the next
Unicode scalar value, and a known one by the letter it has. When no scalar value is left, an
identifier gets no letter.
-/

set_option autoImplicit false

namespace FormulaExport

/-- The letters handed out so far, and the code point from which the next one is taken. -/
structure Letters where
  assigned : Std.HashMap String Char
  cursor : Nat

namespace Letters

/-- No letter has been handed out; the first one will be `x`. -/
def fresh : Letters := ⟨∅, 'x'.toNat⟩

instance : Inhabited Letters := ⟨fresh⟩

def size (letters : Letters) : Nat := letters.assigned.size

/-- The first code point from `n` on that is not a surrogate. -/
def skipSurrogates (n : Nat) : Nat :=
  if 0xD800 ≤ n ∧ n ≤ 0xDFFF then 0xE000 else n

def next? (letters : Letters) : Option Char :=
  let n := skipSurrogates letters.cursor
  if n.isValidChar then some (Char.ofNat n) else none

/-- The letter of an identifier, which is handed out if the identifier has none yet. -/
def name (letters : Letters) (identifier : String) : Traced (Option Char × Letters) :=
  match letters.assigned[identifier]? with
  | some letter => pure (some letter, letters)
  | none =>
    match letters.next? with
    | some letter => do
      Traced.note (.renaming identifier letter)
      pure (some letter, ⟨letters.assigned.insert identifier letter, letter.toNat + 1⟩)
    | none => do
      Traced.note (.outOfLetters identifier)
      pure (none, letters)

end Letters

end FormulaExport

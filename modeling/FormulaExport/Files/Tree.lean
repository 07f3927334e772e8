/-!
# File trees

A **tree** is a regular file or a directory of named trees. The names of a directory stand in no
particular order; wherever order matters it is the order of the names (`filesBelow`).
-/

set_option autoImplicit false

namespace FormulaExport

/-- A **regular file** or a **directory** of named trees. -/
inductive Tree where
  | file (content : ByteArray)
  | directory (entries : List (String × Tree))

namespace Tree

def emptyDirectory : Tree := directory []

instance : Inhabited Tree := ⟨emptyDirectory⟩

def lookup (name : String) : List (String × Tree) → Option Tree
  | [] => none
  | (other, tree) :: rest => if other = name then some tree else lookup name rest

/-- Puts an entry under a name, in the place of the entry that was there. -/
def replace (name : String) (tree : Tree) : List (String × Tree) → List (String × Tree)
  | [] => [(name, tree)]
  | (other, old) :: rest =>
    if other = name then (name, tree) :: rest else (other, old) :: replace name tree rest

def entries : Tree → List (String × Tree)
  | file _ => []
  | directory entries => entries

/-- Puts a tree at a place below a tree, given by the names that lead there. Directories on the way
are created where they are missing. -/
def place (new : Tree) : List String → Tree → Tree
  | [], _ => new
  | name :: names, old =>
    let inner := (lookup name old.entries).getD emptyDirectory
    directory (replace name (place new names inner) old.entries)

/-- Makes sure that there is a directory at a place; what is in it stays. -/
def makeDirectory : List String → Tree → Tree
  | [], directory entries => directory entries
  | [], file _ => emptyDirectory
  | name :: names, old =>
    let inner := (lookup name old.entries).getD emptyDirectory
    directory (replace name (makeDirectory names inner) old.entries)

/-! ## Walking a tree -/

/-- Whether a name is at most another one, in the order of their characters. -/
def nameLe {α : Type} (left right : String × α) : Bool :=
  decide (left.1 ≤ right.1)

mutual

/-- The places of all regular files of a tree, depth first and in the order of their names. A place
is given by the names that lead there. -/
def filesBelow : Tree → List (List String)
  | file _ => [[]]
  | directory entries =>
    ((filesOfEntries entries).mergeSort nameLe).flatMap fun entry =>
      entry.2.map (entry.1 :: ·)

def filesOfEntries : List (String × Tree) → List (String × List (List String))
  | [] => []
  | (name, tree) :: rest => (name, filesBelow tree) :: filesOfEntries rest

end

end Tree

end FormulaExport

import FormulaExport.Index
import FormulaExport.Formula.Kind

/-!
# Formulas from an index

The formula below a node is found by following the index: the kind of a node says which entries it
needs, and its entries name the nodes below it. Entries of a node are looked up before any node
below it, so the first missing entry in this order is the error.

An index may lead in a circle, and then there is no formula. Without a circle no branch is longer
than the index allows (`Index.longestBranch`), so the search is cut off there.
-/

set_option autoImplicit false

namespace FormulaExport

/-- Why there is **no formula**. -/
inductive ReconstructionError where
  | missingRoot
  | missingEntry (field : Field) (label : String)
  | circular (label : String)
deriving DecidableEq, Repr

def ReconstructionError.message : ReconstructionError → String
  | .missingRoot => "the export has no `root` tuple"
  | .missingEntry field label => s!"node `{label}` has no `{field.label}` tuple"
  | .circular label => s!"node `{label}` lies on a circle"

namespace Index

/-- The entry of a node that its kind needs. -/
def entry (map : OrderedMap String String) (field : Field) (label : String) :
    Attempt ReconstructionError String :=
  match map.get? label with
  | some value => pure value
  | none => throw (.missingEntry field label)

def noteUnfilled (atom : String) : Term → Traced Unit
  | .var _ => pure ()
  | .placeholder => Traced.note (.unfilledArgument atom)

/-- The arguments of an atom. An atom without an entry has both left open. -/
def arguments (index : Index) (atom : String) : Traced Arguments :=
  match index.argumentsOf.get? atom with
  | some arguments => do
    noteUnfilled atom arguments.first
    noteUnfilled atom arguments.second
    pure arguments
  | none => do
    Traced.note (.missingArguments atom)
    pure .unfilled

/-- A bound on the number of nodes on a branch that does not lead in a circle: every node but the
last is a negation, a quantification or a connective with an entry of its own. -/
def longestBranch (index : Index) : Nat :=
  1 + index.childOf.size + index.bodyOf.size + index.leftOf.size

/-- The formula below a node, as long as no branch has more nodes than a limit. -/
def formulaWithin (index : Index) : Nat → String → Attempt ReconstructionError Formula
  | 0, label => throw (.circular label)
  | limit + 1, label =>
    match Kind.of label with
    | .atom => do
      let relation ← entry index.relationOf .relation label
      let arguments ← index.arguments label
      pure (.atom relation arguments)
    | .negation => do
      let child ← entry index.childOf .child label
      let inner ← index.formulaWithin limit child
      pure (.negation inner)
    | .quantifier quantifier => do
      let bound ← entry index.boundOf .boundVar label
      let body ← entry index.bodyOf .body label
      let inner ← index.formulaWithin limit body
      pure (.quantified quantifier bound inner)
    | .connective connective => do
      -- both sides are looked up before either of them is followed
      let left ← entry index.leftOf .left label
      let right ← entry index.rightOf .right label
      let leftFormula ← index.formulaWithin limit left
      let rightFormula ← index.formulaWithin limit right
      pure (.binary connective leftFormula rightFormula)
    | .leaf => pure (.leaf label)

def formulaBelow (index : Index) (label : String) : Attempt ReconstructionError Formula :=
  index.formulaWithin index.longestBranch label

/-- The formula of an export: the one below its root. -/
def formula (index : Index) : Attempt ReconstructionError Formula :=
  match index.root with
  | none => throw .missingRoot
  | some root => do
    Traced.note (.reconstructing root)
    index.formulaBelow root

end Index

end FormulaExport

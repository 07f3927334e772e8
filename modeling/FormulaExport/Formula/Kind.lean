import FormulaExport.Formula.Basic

/-!
# Kinds of nodes

The nodes of an exported formula are known by their labels alone, and the beginning of a label says
what **kind** of node it is. A label with none of the seven beginnings is a leaf.
-/

set_option autoImplicit false

namespace FormulaExport

/-- The **kind** of a node. -/
inductive Kind where
  | atom
  | negation
  | quantifier (quantifier : Quantifier)
  | connective (connective : Connective)
  | leaf
deriving DecidableEq, Repr

namespace Kind

/-- The beginnings of labels with the kinds they stand for. No beginning begins another. -/
def beginnings : List (List Char × Kind) :=
  [(['A', 't', 'o', 'm'], atom),
   (['N', 'o', 't'], negation),
   (['F', 'o', 'r', 'a', 'l', 'l'], quantifier .universal),
   (['E', 'x', 'i', 's', 't', 's'], quantifier .existential),
   (['I', 'm', 'p', 'l', 'i', 'e', 's'], connective .implication),
   (['A', 'n', 'd'], connective .conjunction),
   (['O', 'r'], connective .disjunction)]

/-- The kind of the node with a given label. -/
def of (label : String) : Kind :=
  match beginnings.find? fun entry => entry.1.isPrefixOf label.toList with
  | some (_, kind) => kind
  | none => leaf

end Kind

end FormulaExport

/-!
# First-order formulas

Formulas over binary relations: atoms, negations, the three binary connectives and the two
quantifiers. A label that encodes none of these is kept as a **leaf**. An argument of an atom that
the export left open is a **placeholder**.
-/

set_option autoImplicit false

namespace FormulaExport

/-- An **argument** of an atom: a variable, or the placeholder of an argument left open. -/
inductive Term where
  | var (name : String)
  | placeholder
deriving DecidableEq, Repr

/-- The mark of a placeholder, among the labels of variables. -/
def placeholderMark : String := "_"

/-- The term that a label stands for. -/
def Term.ofLabel (label : String) : Term :=
  if label = placeholderMark then .placeholder else .var label

/-- The two **arguments** of an atom. -/
structure Arguments where
  first : Term
  second : Term
deriving DecidableEq, Repr

/-- The **binary connectives**. -/
inductive Connective where
  | implication
  | conjunction
  | disjunction
deriving DecidableEq, Repr

/-- The **quantifiers**. -/
inductive Quantifier where
  | universal
  | existential
deriving DecidableEq, Repr

/-- A **formula**. -/
inductive Formula where
  | atom (relation : String) (arguments : Arguments)
  | negation (inner : Formula)
  | binary (connective : Connective) (left right : Formula)
  | quantified (quantifier : Quantifier) (bound : String) (body : Formula)
  | leaf (label : String)
deriving DecidableEq, Repr

namespace Formula

/-- The depth of a formula: the number of nodes on its longest branch. -/
def depth : Formula → Nat
  | atom _ _ => 1
  | negation inner => 1 + inner.depth
  | binary _ left right => 1 + max left.depth right.depth
  | quantified _ _ body => 1 + body.depth
  | leaf _ => 1

end Formula

end FormulaExport

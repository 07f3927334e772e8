import FormulaExport.Formula.Basic

/-!
# Printing formulas

Formulas are printed with **full parentheses**: precedence plays no part. A negation and a
quantification put parentheses around what they govern, a binary connective around both its sides.
-/

set_option autoImplicit false

namespace FormulaExport

/-- The characters of a term: the name of a variable, or the placeholder mark. -/
def Term.characters : Term → List Char
  | .var name => name.toList
  | .placeholder => placeholderMark.toList

def Term.print (term : Term) : String := String.ofList term.characters

def negationSign : Char := '¬'

def Connective.sign : Connective → Char
  | .implication => '→'
  | .conjunction => '∧'
  | .disjunction => '∨'

def Quantifier.sign : Quantifier → Char
  | .universal => '∀'
  | .existential => '∃'

namespace Formula

/-- An atom, as characters: the relation and its two arguments in parentheses. -/
def atomCharacters (relation : String) (arguments : Arguments) : List Char :=
  relation.toList ++ '(' :: (arguments.first.characters ++ ',' :: ' ' ::
    (arguments.second.characters ++ [')']))

/-- A quantifier with its variable, as characters. -/
def quantificationCharacters (quantifier : Quantifier) (bound : String) : List Char :=
  quantifier.sign :: bound.toList

def characters : Formula → List Char
  | atom relation arguments => atomCharacters relation arguments
  | negation inner => negationSign :: '(' :: (inner.characters ++ [')'])
  | binary connective left right =>
    '(' :: (left.characters ++ ' ' :: connective.sign :: ' ' :: (right.characters ++ [')']))
  | quantified quantifier bound body =>
    quantificationCharacters quantifier bound ++ '.' :: '(' :: (body.characters ++ [')'])
  | leaf label => label.toList

/-- The printed form of a formula. -/
def print (formula : Formula) : String := String.ofList formula.characters

end Formula

end FormulaExport

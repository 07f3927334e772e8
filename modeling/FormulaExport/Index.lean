import FormulaExport.Traced
import FormulaExport.Relations
import FormulaExport.Text.Numeral
import FormulaExport.Text.Quoted
import FormulaExport.Formula.Basic

/-!
# The index of an export

An **index** answers, for the label of a node, what the fields of an export say about it. It is
built from the relations field by field (`Index.build`). Of several tuples with one source the last
one counts, and each that replaces another is reported. A tuple of the wrong length, or an argument
at a position other than 0 and 1, makes the export unusable: the first such tuple is the error.
-/

set_option autoImplicit false

namespace FormulaExport

open FormulaExport.Text

/-! ## Errors -/

/-- The number of labels that a tuple of a field has to have. -/
def Field.arity : Field → Nat
  | .vars => 3
  | _ => 2

/-- Why relations **cannot be indexed**. -/
inductive IndexError where
  | arity (field : Field) (tuple : Tuple)
  | position (atom index : String)
deriving DecidableEq, Repr

def IndexError.message : IndexError → String
  | .arity field tuple =>
    s!"a tuple of field `{field.label}` has {tuple.length} atoms instead of {field.arity}: " ++
      bracketed (tuple.map quoted)
  | .position atom index =>
    s!"atom `{atom}` has a variable at position `{index}` but only positions 0 and 1 exist"

/-! ## Positions -/

/-- The two **positions** of arguments. -/
inductive Position where
  | first
  | second
deriving DecidableEq, Repr

namespace Position

/-- Positions are counted from zero. -/
def number : Position → Nat
  | first => 0
  | second => 1

/-- The position that a label names: a numeral of value zero or one. -/
def ofLabel? (label : String) : Option Position :=
  match numeral? 10 label.toList with
  | some 0 => some first
  | some 1 => some second
  | _ => none

end Position

namespace Arguments

def unfilled : Arguments := ⟨.placeholder, .placeholder⟩

def get (arguments : Arguments) : Position → Term
  | .first => arguments.first
  | .second => arguments.second

def set (arguments : Arguments) (position : Position) (term : Term) : Arguments :=
  match position with
  | .first => { arguments with first := term }
  | .second => { arguments with second := term }

end Arguments

/-! ## The index -/

/-- What an export says about its nodes, by label. -/
structure Index where
  relationOf : OrderedMap String String := ∅
  argumentsOf : OrderedMap String Arguments := ∅
  boundOf : OrderedMap String String := ∅
  bodyOf : OrderedMap String String := ∅
  childOf : OrderedMap String String := ∅
  leftOf : OrderedMap String String := ∅
  rightOf : OrderedMap String String := ∅
  root : Option String := none

namespace Index

/-- Adds the tuples of a field that are pairs of a source and a target. -/
def addPairs (field : Field) (known : OrderedMap String String) :
    List Tuple → Attempt IndexError (OrderedMap String String)
  | [] => pure known
  | [source, target] :: rest => do
    if let some previous := known.get? source then
      Traced.note (.replacedTarget field source previous target)
    addPairs field (known.insert source target) rest
  | tuple :: _ => throw (.arity field tuple)

/-- Adds the tuples of the field `vars`: an atom, a position and a variable. -/
def addArguments (known : OrderedMap String Arguments) :
    List Tuple → Attempt IndexError (OrderedMap String Arguments)
  | [] => pure known
  | [atom, index, label] :: rest =>
    match Position.ofLabel? index with
    | none => throw (.position atom index)
    | some position => do
      let arguments := (known.get? atom).getD .unfilled
      -- a placeholder in the place is not reported, even if a tuple has put it there
      if let .var previous := arguments.get position then
        Traced.note (.replacedArgument atom position.number previous label)
      addArguments (known.insert atom (arguments.set position (.ofLabel label))) rest
  | tuple :: _ => throw (.arity .vars tuple)

/-- The root is the target of the first tuple of its field. -/
def rootOf : List Tuple → Attempt IndexError (Option String)
  | [] => pure none
  | first :: rest => do
    if rest ≠ [] then
      Traced.note (.extraRoots (rest.length + 1))
    match first with
    | [_, root] => pure (some root)
    | _ => throw (.arity .root first)

def pairsOf (relations : Relations) (field : Field) :
    Attempt IndexError (OrderedMap String String) :=
  addPairs field ∅ (relations.tuples field.label)

/-- The index of some relations. The fields are gone through in a fixed order, which decides which
error is found first. -/
def build (relations : Relations) : Attempt IndexError Index := do
  let root ← rootOf (relations.tuples Field.root.label)
  let relationOf ← pairsOf relations .relation
  let argumentsOf ← addArguments ∅ (relations.tuples Field.vars.label)
  let boundOf ← pairsOf relations .boundVar
  let bodyOf ← pairsOf relations .body
  let childOf ← pairsOf relations .child
  let leftOf ← pairsOf relations .left
  let rightOf ← pairsOf relations .right
  Traced.note (.indexed relationOf.size boundOf.size childOf.size leftOf.size)
  pure ⟨relationOf, argumentsOf, boundOf, bodyOf, childOf, leftOf, rightOf, root⟩

end Index

end FormulaExport

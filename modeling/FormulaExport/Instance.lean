import FormulaExport.Traced
import FormulaExport.Relations
import FormulaExport.Markup.Element

/-!
# Instances

An **instance** is what a document says about formulas: the atoms of the signature `this/Atom`, and
the relations. It is found by looking at all elements below the root, however deep they stand.

* A `sig` element labelled `this/Atom` contributes the labels of its `atom` children.
* A labelled `field` element contributes one tuple for each of its `tuple` children: the labels of
  the `atom` children of that child. An element without a label contributes nothing.
-/

set_option autoImplicit false

namespace FormulaExport

open FormulaExport.Markup

/-- What a document says about formulas: its **atoms**, none of them twice, and its relations. -/
structure Instance where
  atoms : List String
  relations : Relations

namespace Instance

/-- The labels of the `atom` children of an element, in order. -/
def atomLabels (element : Element) : List String :=
  (element.childrenNamed "atom").filterMap Element.label?

def atomSignature : String := "this/Atom"

/-- The atoms of all elements below the root, by first occurrence. -/
def atomsBelow (root : Element) : List String :=
  (((root.descendantsNamed "sig").filter fun sig => sig.hasLabel atomSignature).flatMap
    atomLabels).eraseDups

def tuplesOf (field : Element) : List Tuple :=
  (field.childrenNamed "tuple").map atomLabels

/-- Adds the tuples of `field` elements to relations, one element after the other. -/
def addFields (relations : Relations) : List Element → Traced Relations
  | [] => pure relations
  | field :: rest =>
    match field.label? with
    | some label => addFields (relations.extend label (tuplesOf field)) rest
    | none => do
      Traced.note .unlabelledField
      addFields relations rest

/-- The instance of a document. -/
def ofDocument (document : Document) : Traced Instance := do
  let relations ← addFields ∅ (document.root.descendantsNamed "field")
  pure ⟨atomsBelow document.root, relations⟩

end Instance

end FormulaExport

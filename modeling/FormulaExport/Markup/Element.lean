import FormulaExport.OrderedMap

/-!
# Elements of a markup document

An **element** has a name, attributes and child elements; character data is not kept. The
questions about an element that the rest of the library asks are answered here: its attributes, its
children of a name, and its descendants in document order.
-/

set_option autoImplicit false

namespace FormulaExport.Markup

/-- An **element**: its name, its attributes in the order written, and its child elements. -/
structure Element where
  name : String
  attributes : OrderedMap String String
  children : List Element

/-- A **document** is given by its root element. -/
structure Document where
  root : Element

namespace Element

def attribute? (element : Element) (name : String) : Option String :=
  element.attributes.get? name

/-- The label of an element is its attribute of that name. -/
def label? (element : Element) : Option String :=
  element.attribute? "label"

def hasLabel (element : Element) (label : String) : Bool :=
  element.label? == some label

/-- The children of a name, in the order written. -/
def childrenNamed (element : Element) (name : String) : List Element :=
  element.children.filter fun child => child.name == name

/-! ## Equality up to the order of attributes -/

mutual

/-- Two elements are the same if their names agree, their attributes agree up to order and their
children are the same one by one. -/
def same : Element → Element → Bool
  | ⟨name, attributes, children⟩, ⟨name', attributes', children'⟩ =>
    name == name' && attributes.same attributes' && allSame children children'

/-- Two lists of elements are the same one by one. -/
def allSame : List Element → List Element → Bool
  | [], [] => true
  | element :: rest, element' :: rest' => same element element' && allSame rest rest'
  | _, _ => false

end

/-! ## Descendants -/

mutual

/-- The number of elements of a tree, its root included. -/
def weight : Element → Nat
  | ⟨_, _, children⟩ => 1 + weightOfAll children

def weightOfAll : List Element → Nat
  | [] => 0
  | element :: rest => weight element + weightOfAll rest

end

theorem weight_eq (element : Element) : weight element = 1 + weightOfAll element.children := by
  cases element
  rw [weight]

theorem weightOfAll_append (front back : List Element) :
    weightOfAll (front ++ back) = weightOfAll front + weightOfAll back := by
  induction front with
  | nil => simp [weightOfAll]
  | cons element rest ih => simp only [List.cons_append, weightOfAll, ih, Nat.add_assoc]

/-- The elements of several trees in document order: each before its children, and its children
before what stands to its right. -/
def inOrder : List Element → List Element
  | [] => []
  | element :: rest => element :: inOrder (element.children ++ rest)
termination_by trees => weightOfAll trees
decreasing_by
  rw [weightOfAll_append, weightOfAll, weight_eq]
  omega

/-- The elements strictly below an element, in document order. -/
def descendants (element : Element) : List Element :=
  inOrder element.children

def descendantsNamed (element : Element) (name : String) : List Element :=
  element.descendants.filter fun below => below.name == name

end Element

def Document.same (left right : Document) : Bool :=
  left.root.same right.root

end FormulaExport.Markup

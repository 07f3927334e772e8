import FormulaExport.Text.Place
import FormulaExport.Markup.Lexeme

/-!
# Reading elements and documents

An **element** begins with its tag at the very front of the text. Unless the tag is the whole
element, its content follows, and a closing tag that names the element that is open. The reader
keeps the elements that are open as a list, innermost first, and takes one step per item.

A **document** is an element with white space, comments, declarations and at most one document type
before it, and white space and comments behind it. `Element.read` and `Document.read` are the
readers: each has a rule that has to take the whole text (`readWhole`). What can go wrong is
`ReadError`.
-/

set_option autoImplicit false

namespace FormulaExport.Markup

open FormulaExport.Text

/-! ## Open elements -/

/-- An **open element**: its name and attributes, and the children read so far, last first. -/
structure OpenElement where
  name : String
  attributes : OrderedMap String String
  earlier : List Element

namespace OpenElement

def ofTag (tag : Tag) : OpenElement := ⟨tag.name, tag.attributes, []⟩

def add (element : OpenElement) (child : Element) : OpenElement :=
  { element with earlier := child :: element.earlier }

/-- Closes an element: the children read so far are all its children. -/
def close (element : OpenElement) : Element :=
  ⟨element.name, element.attributes, element.earlier.reverse⟩

end OpenElement

/-! ## Content -/

/-- Reads the content of the innermost open element, and then of the elements around it, until the
outermost one is closed. At each step the innermost element is closed, or ignored material is left
out, or a tag adds a child or opens one. -/
def readContent (inner : OpenElement) (outer : List OpenElement) (text : List Char) :
    Option (Element × List Char) :=
  match _closed : behindClosingTag? inner.name (skipTrivia text) with
  | some rest =>
    match outer with
    | [] => some (inner.close, rest)
    | parent :: outer => readContent (parent.add inner.close) outer rest
  | none =>
    -- any other closing tag is neither ignored material nor a tag, and fails below
    match _ignored : behindIgnored? (skipTrivia text) with
    | some rest => readContent inner outer rest
    | none =>
      match _opened : tag? (skipTrivia text) with
      | some (tag, rest) =>
        if tag.isWhole then readContent (inner.add (OpenElement.ofTag tag).close) outer rest
        else readContent (.ofTag tag) (inner :: outer) rest
      | none => none
termination_by text.length
decreasing_by
  all_goals have skipped := length_skipTrivia_le text
  · have := length_of_behindClosingTag? _closed
    omega
  · have := length_of_behindIgnored? _ignored
    omega
  · have := length_of_tag? _opened
    omega
  · have := length_of_tag? _opened
    omega

/-- Reads an element that begins with the text, and answers the text behind it. -/
def readElement (text : List Char) : Option (Element × List Char) :=
  (tag? text).bind fun (tag, rest) =>
    if tag.isWhole then some ((OpenElement.ofTag tag).close, rest)
    else readContent (.ofTag tag) [] rest

/-! ## Documents -/

/-- Leaves out declarations and the white space and comments around them. -/
def skipDeclarations (text : List Char) : List Char :=
  match _found : behindDeclaration? (skipTrivia text) with
  | some rest => skipDeclarations rest
  | none => skipTrivia text
termination_by text.length
decreasing_by
  have := length_of_behindDeclaration? _found
  have := length_skipTrivia_le text
  omega

/-- Leaves out a document type, if there is one, and white space and comments behind it. -/
def skipDocumentType (text : List Char) : List Char :=
  match behindDocumentType? text with
  | some rest => skipTrivia rest
  | none => text

/-- The end of a text: nothing is left of it. -/
def atEnd? (text : List Char) : Option (List Char) :=
  if text = [] then some [] else none

/-- Reads a document, which ends where the text does, and answers the text behind it. -/
def readDocument (text : List Char) : Option (Document × List Char) :=
  (readElement (skipDocumentType (skipDeclarations text))).bind fun (element, rest) =>
    (atEnd? (skipTrivia rest)).map fun behind => (⟨element⟩, behind)

/-! ## The readers -/

/-- What can go **wrong** in reading: the text does not begin as it has to, or it goes on behind
what has been read. -/
inductive ReadError where
  | malformed
  | trailing (place : Place)
deriving DecidableEq, Repr

/-- Reads a text with a rule that has to take all of it. If the rule stops before the end of the
text, the error names the place behind what it has taken. -/
def readWhole {α : Type} (rule : List Char → Option (α × List Char)) (text : String) :
    Except ReadError α :=
  match rule text.toList with
  | none => .error .malformed
  | some (value, []) => .ok value
  | some (_, rest) =>
    .error (.trailing (Place.behind (text.toList.take (text.toList.length - rest.length))))

/-- Reads a text that is one element and nothing else. -/
def Element.read (text : String) : Except ReadError Element :=
  readWhole readElement text

/-- Reads a text that is one document. -/
def Document.read (text : String) : Except ReadError Document :=
  readWhole readDocument text

end FormulaExport.Markup

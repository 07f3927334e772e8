import FormulaExport.Text.Quoted
import FormulaExport.Markup.Reader

/-!
# Expectations on readers

A reader is held against **examples**: texts with the value they have to be read as, and texts that
have to be refused. The report names the first example that fails, with both values spelled out
part by part.
-/

set_option autoImplicit false

namespace FormulaExport.Markup

open FormulaExport.Text

/-! ## Values spelled out -/

/-- Attributes spelled out in braces, in their order. -/
def attributesSpelled (attributes : OrderedMap String String) : String :=
  "\x7b" ++ ", ".intercalate (attributes.entries.map fun entry =>
    quoted entry.1 ++ ": " ++ quoted entry.2) ++ "\x7d"

namespace Element

mutual

def spelled : Element → String
  | ⟨name, attributes, children⟩ =>
    "Element \x7b name: " ++ quoted name ++ ", attributes: " ++ attributesSpelled attributes ++
      ", children: " ++ bracketed (allSpelled children) ++ " \x7d"

def allSpelled : List Element → List String
  | [] => []
  | element :: rest => spelled element :: allSpelled rest

end

end Element

def Document.spelled (document : Document) : String :=
  "Document \x7b root: " ++ document.root.spelled ++ " \x7d"

/-! ## Examples -/

/-- A **named reader** of values, with what is needed to compare and report them. -/
structure NamedReader (α : Type) where
  name : String
  read : String → Except ReadError α
  same : α → α → Bool
  spelled : α → String

/-- How an example can **fail**. -/
inductive Disappointment (α : Type) where
  | refused (text : String)
  | accepted (text : String)
  | misread (text : String) (found expected : α)

namespace NamedReader

variable {α : Type}

/-- The report of a failed example. -/
def report (reader : NamedReader α) : Disappointment α → String
  | .refused text => s!"assertion failed: {reader.name} rejects '{text}'"
  | .accepted text => s!"assertion failed: {reader.name} accepts '{text}'"
  | .misread text found expected =>
    s!"assertion failed: {reader.name} parses '{text}' into " ++ reader.spelled found ++
      " instead of " ++ reader.spelled expected

/-- Holds a reader against texts with the values they have to be read as. -/
def expectAccepted (reader : NamedReader α) : List (String × α) → Except (Disappointment α) Unit
  | [] => .ok ()
  | (text, expected) :: rest =>
    match reader.read text with
    | .error _ => .error (.refused text)
    | .ok found =>
      if reader.same found expected then reader.expectAccepted rest
      else .error (.misread text found expected)

/-- Holds a reader against texts that it has to refuse. -/
def expectRefused (reader : NamedReader α) : List String → Except (Disappointment α) Unit
  | [] => .ok ()
  | text :: rest =>
    match reader.read text with
    | .ok _ => .error (.accepted text)
    | .error _ => reader.expectRefused rest

/-- Holds a reader against examples of both sorts, those to be accepted first. -/
def expect (reader : NamedReader α) (accepted : List (String × α)) (refused : List String) :
    Except (Disappointment α) Unit := do
  reader.expectAccepted accepted
  reader.expectRefused refused

end NamedReader

/-- The reader of elements under a given name. -/
def elementReader (name : String) : NamedReader Element :=
  ⟨name, Element.read, Element.same, Element.spelled⟩

def documentReader (name : String) : NamedReader Document :=
  ⟨name, Document.read, Document.same, Document.spelled⟩

end FormulaExport.Markup

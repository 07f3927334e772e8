import FormulaExport.Markup.Reference
import FormulaExport.Markup.Element

/-!
# Printing elements and documents

Elements are printed without any white space between them: attributes in their order with values
between double quotes, an element without children as one tag that ends in `/>`. A document is its
root and a line feed.
-/

set_option autoImplicit false

namespace FormulaExport.Markup

/-- An attribute with a space before it. -/
def attributeText (entry : String × String) : List Char :=
  ' ' :: (entry.1.toList ++ '=' :: '"' :: (Reference.escape entry.2.toList ++ ['"']))

namespace Element

mutual

def characters : Element → List Char
  | ⟨name, attributes, children⟩ =>
    let back :=
      match children with
      | [] => ['/', '>']
      | child :: rest =>
        '>' :: (charactersOfAll (child :: rest) ++ '<' :: '/' :: (name.toList ++ ['>']))
    '<' :: (name.toList ++ (attributes.entries.flatMap attributeText ++ back))

def charactersOfAll : List Element → List Char
  | [] => []
  | element :: rest => characters element ++ charactersOfAll rest

end

/-- The printed form of an element. -/
def print (element : Element) : String :=
  String.ofList element.characters

end Element

/-- The printed form of a document: its root and a line feed. -/
def Document.print (document : Document) : String :=
  String.ofList (document.root.characters ++ ['\n'])

end FormulaExport.Markup

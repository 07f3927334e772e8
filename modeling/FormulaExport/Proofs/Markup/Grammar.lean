import FormulaExport.Markup.Reader

/-!
# The grammar of markup texts

Which texts are elements and documents, and of which trees. The rules speak of texts only: each
says of which parts a text is put together. White space and comments (`Trivia`) may stand between
any two parts; what they hold, and all ignored material, leaves no mark in the tree.
-/

set_option autoImplicit false

namespace FormulaExport.Markup

/-! ## Material between two marks -/

/-- A text enclosed by two marks: what stands between them does not hold the closing mark. -/
def Enclosed (opening closing text : List Char) : Prop :=
  ∃ body, ¬ closing <:+: body ∧ text = opening ++ (body ++ closing)

def IsComment : List Char → Prop := Enclosed ['<', '!', '-', '-'] ['-', '-', '>']

def IsDeclaration : List Char → Prop := Enclosed ['<', '?'] ['?', '>']

def IsLiteral : List Char → Prop :=
  Enclosed ['<', '!', '[', 'C', 'D', 'A', 'T', 'A', '['] [']', ']', '>']

def IsDocumentType : List Char → Prop :=
  Enclosed ['<', '!', 'D', 'O', 'C', 'T', 'Y', 'P', 'E'] ['>']

/-- A run of character data: at least one character, and no opening angle bracket. -/
def IsCharacters (text : List Char) : Prop := text ≠ [] ∧ ∀ c ∈ text, c ≠ '<'

/-- A piece of ignored material inside an element. -/
def IsIgnored (text : List Char) : Prop :=
  IsLiteral text ∨ IsDeclaration text ∨ IsCharacters text

/-- Any sequence of **white space and comments**. -/
inductive Trivia : List Char → Prop where
  | nothing : Trivia []
  | blank {c : Char} {rest : List Char} : isBlank c = true → Trivia rest → Trivia (c :: rest)
  | comment {comment rest : List Char} :
      IsComment comment → Trivia rest → Trivia (comment ++ rest)

/-! ## Tags -/

/-- A name: a first character and any number of further ones. -/
def IsName (name : List Char) : Prop :=
  ∃ c rest, name = c :: rest ∧ isNameStart c = true ∧ ∀ d ∈ rest, isNamePart d = true

/-- A text that does not go on a name in front of it. -/
def EndsName (text : List Char) : Prop := ∀ c ∈ text.head?, isNamePart c = false

/-- A value between quotes, double or single. It holds neither that quote nor an opening angle
bracket. -/
def IsValue (raw text : List Char) : Prop :=
  ∃ quote, (quote = '"' ∨ quote = '\'') ∧ (∀ c ∈ raw, c ≠ quote ∧ c ≠ '<') ∧
    text = quote :: (raw ++ [quote])

/-- An **attribute**: a key, an equals sign and a value. -/
inductive AttributeText : List Char → String × String → Prop where
  | mk {key beforeSign behindSign raw value : List Char} :
      IsName key → Trivia beforeSign → EndsName (beforeSign ++ ['=']) → Trivia behindSign →
      IsValue raw value →
      AttributeText (key ++ (beforeSign ++ '=' :: (behindSign ++ value)))
        (String.ofList key, unescape (String.ofList raw))

/-- Any number of **attributes**, each with white space and comments before it. -/
inductive AttributesText : List Char → List (String × String) → Prop where
  | none : AttributesText [] []
  | more {gap text rest : List Char} {entry : String × String}
      {entries : List (String × String)} :
      Trivia gap → AttributeText text entry → AttributesText rest entries →
      AttributesText (gap ++ (text ++ rest)) (entry :: entries)

/-- The mark that ends a tag. -/
def tagMark : Bool → List Char
  | true => ['/', '>']
  | false => ['>']

/-- A **tag**. Of several attributes with one key the first gives the place and the last the value.
-/
inductive TagText : List Char → Tag → Prop where
  | mk {gap name attributes back : List Char} {entries : List (String × String)}
      {isWhole : Bool} :
      Trivia gap → IsName name → EndsName (attributes ++ (back ++ tagMark isWhole)) →
      AttributesText attributes entries → Trivia back →
      TagText ('<' :: (gap ++ (name ++ (attributes ++ (back ++ tagMark isWhole)))))
        ⟨String.ofList name, .ofList entries, isWhole⟩

/-- The **closing tag** of the element of a given name. -/
inductive ClosingTagText (name : String) : List Char → Prop where
  | mk {gap back : List Char} : Trivia gap → Trivia back →
      ClosingTagText name ('<' :: '/' :: (gap ++ (name.toList ++ (back ++ ['>']))))

/-! ## Elements -/

mutual

/-- The text of an **element** with a given tree. -/
inductive ElementText : List Char → Element → Prop where
  | whole {text : List Char} {tag : Tag} : TagText text tag → tag.isWhole = true →
      ElementText text ⟨tag.name, tag.attributes, []⟩
  | nested {text content closing : List Char} {tag : Tag} {children : List Element} :
      TagText text tag → tag.isWhole = false → ContentText content children →
      ClosingTagText tag.name closing →
      ElementText (text ++ (content ++ closing)) ⟨tag.name, tag.attributes, children⟩

/-- The **content** of an element: items with white space and comments before, between and behind
them. The items that are elements are the children. -/
inductive ContentText : List Char → List Element → Prop where
  | nothing {gap : List Char} : Trivia gap → ContentText gap []
  | ignored {gap item rest : List Char} {children : List Element} :
      Trivia gap → IsIgnored item → ContentText rest children →
      ContentText (gap ++ (item ++ rest)) children
  | element {gap item rest : List Char} {child : Element} {children : List Element} :
      Trivia gap → ElementText item child → ContentText rest children →
      ContentText (gap ++ (item ++ rest)) (child :: children)

end

/-! ## Documents -/

/-- Any number of **declarations**, with white space and comments before, between and behind them.
-/
inductive DeclarationsText : List Char → Prop where
  | none {gap : List Char} : Trivia gap → DeclarationsText gap
  | more {gap declaration rest : List Char} : Trivia gap → IsDeclaration declaration →
      DeclarationsText rest → DeclarationsText (gap ++ (declaration ++ rest))

/-- At most one **document type**, with white space and comments behind it. -/
inductive DocumentTypeText : List Char → Prop where
  | none : DocumentTypeText []
  | one {documentType gap : List Char} : IsDocumentType documentType → Trivia gap →
      DocumentTypeText (documentType ++ gap)

/-- The text of a **document** with a given root. -/
inductive DocumentText : List Char → Element → Prop where
  | mk {declarations documentType body gap : List Char} {root : Element} :
      DeclarationsText declarations → DocumentTypeText documentType → ElementText body root →
      Trivia gap → DocumentText (declarations ++ (documentType ++ (body ++ gap))) root

end FormulaExport.Markup

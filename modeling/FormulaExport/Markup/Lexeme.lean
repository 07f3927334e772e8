import FormulaExport.Text.Scan
import FormulaExport.Markup.Reference
import FormulaExport.Markup.Element

/-!
# The parts of a markup text

The parts that never nest: white space and comments (`skipTrivia`), names, attributes, tags, and the
material that an element may hold but does not keep (`ignored?`). White space is a space, a tab, a
carriage return or a line feed, nothing else.

Each reader answers what it read and the text behind it. White space and comments may stand between
any two parts of a tag, but not inside a name, inside the marks `</` and `/>`, or inside a value.
-/

set_option autoImplicit false

namespace FormulaExport.Markup

open FormulaExport.Text

/-! ## White space and comments -/

def isBlank (c : Char) : Bool :=
  c == ' ' || c == '\t' || c == '\r' || c == '\n'

/-- The text behind a comment, which ends with the first mark `-->`. -/
def behindComment? (text : List Char) : Option (List Char) :=
  (behind? ['<', '!', '-', '-'] text).bind (behindFirst? ['-', '-', '>'])

theorem length_of_behindComment? {text rest : List Char}
    (h : behindComment? text = some rest) : rest.length < text.length := by
  have := length_of_bind_behindFirst? h
  simp only [List.length_cons] at this
  omega

/-- Leaves out white space and comments, as many as there are. A comment that does not end is not
left out. -/
def skipTrivia : List Char → List Char
  | [] => []
  | c :: text =>
    if isBlank c then skipTrivia text
    else
      match _found : behindComment? (c :: text) with
      | some rest => skipTrivia rest
      | none => c :: text
termination_by text => text.length
decreasing_by
  · simp
  · exact length_of_behindComment? _found

theorem length_skipTrivia_le (text : List Char) : (skipTrivia text).length ≤ text.length := by
  fun_induction skipTrivia text with
  | case1 => exact Nat.le_refl _
  | case2 c text _ ih =>
      rw [List.length_cons]
      omega
  | case3 c text _ rest found ih =>
      have := length_of_behindComment? found
      omega
  | case4 c text _ _ => exact Nat.le_refl _

/-! ## Names -/

def isNameStart (c : Char) : Bool :=
  c.isAlpha || c == '_' || c == ':'

def isNamePart (c : Char) : Bool :=
  c.isAlphanum || c == '_' || c == ':' || c == '-' || c == '.'

/-- The longest name at the front of a text. -/
def name? : List Char → Option (List Char × List Char)
  | [] => none
  | c :: text =>
    if isNameStart c then some (c :: text.takeWhile isNamePart, text.dropWhile isNamePart)
    else none

theorem length_of_name? {text name rest : List Char} (h : name? text = some (name, rest)) :
    rest.length < text.length := by
  cases text with
  | nil => simp [name?] at h
  | cons c text =>
      rw [name?] at h
      split at h
      · cases h
        have := length_dropWhile_le isNamePart text
        rw [List.length_cons]
        omega
      · cases h

/-! ## Attributes -/

/-- The raw value up to a closing quote. It holds neither that quote nor an opening angle bracket.
-/
def valueUpTo? (quote : Char) (text : List Char) : Option (List Char × List Char) :=
  let inside := fun c => c != quote && c != '<'
  match text.dropWhile inside with
  | [] => none
  | c :: rest => if c = quote then some (text.takeWhile inside, rest) else none

/-- A raw value between double or single quotes. -/
def value? : List Char → Option (List Char × List Char)
  | '"' :: text => valueUpTo? '"' text
  | '\'' :: text => valueUpTo? '\'' text
  | _ => none

/-- An attribute: a name, an equals sign and a value, whose references are decoded. -/
def attribute? (text : List Char) : Option ((String × String) × List Char) :=
  (name? text).bind fun (name, afterName) =>
    (behind? ['='] (skipTrivia afterName)).bind fun afterSign =>
      (value? (skipTrivia afterSign)).map fun (raw, rest) =>
        ((String.ofList name, String.ofList (Reference.decode raw)), rest)

theorem length_of_valueUpTo? {quote : Char} {text raw rest : List Char}
    (h : valueUpTo? quote text = some (raw, rest)) : rest.length < text.length := by
  unfold valueUpTo? at h
  have bound := length_dropWhile_le (fun c => c != quote && c != '<') text
  cases d : text.dropWhile (fun c => c != quote && c != '<') with
  | nil => simp [d] at h
  | cons c after =>
      simp only [d] at h
      split at h
      · cases h
        rw [d, List.length_cons] at bound
        omega
      · cases h

theorem length_of_value? {text raw rest : List Char} (h : value? text = some (raw, rest)) :
    rest.length < text.length := by
  unfold value? at h
  split at h
  · have := length_of_valueUpTo? h
    rw [List.length_cons]
    omega
  · have := length_of_valueUpTo? h
    rw [List.length_cons]
    omega
  · cases h

theorem length_of_attribute? {text rest : List Char} {entry : String × String}
    (h : attribute? text = some (entry, rest)) : rest.length < text.length := by
  unfold attribute? at h
  obtain ⟨⟨name, afterName⟩, hn, h⟩ := Option.bind_eq_some_iff.mp h
  obtain ⟨afterSign, hs, h⟩ := Option.bind_eq_some_iff.mp h
  obtain ⟨⟨raw, after⟩, hv, h⟩ := Option.map_eq_some_iff.mp h
  cases h
  have byName := length_of_name? hn
  have bySign := length_of_behind? hs
  have byValue := length_of_value? hv
  have firstSkip := length_skipTrivia_le afterName
  have secondSkip := length_skipTrivia_le afterSign
  simp only [List.length_cons] at bySign
  omega

/-- Reads attributes one after the other, as long as there is one, into a map. -/
def attributesFrom (known : OrderedMap String String) (text : List Char) :
    OrderedMap String String × List Char :=
  match _found : attribute? (skipTrivia text) with
  -- a name that comes again keeps its place and gets the new value
  | some ((name, value), rest) => attributesFrom (known.insert name value) rest
  | none => (known, text)
termination_by text.length
decreasing_by
  have := length_of_attribute? _found
  have := length_skipTrivia_le text
  omega

theorem length_attributesFrom_le (known : OrderedMap String String) (text : List Char) :
    (attributesFrom known text).2.length ≤ text.length := by
  fun_induction attributesFrom known text with
  | case1 known text name value rest found ih =>
      have := length_of_attribute? found
      have := length_skipTrivia_le text
      omega
  | case2 known text _ => exact Nat.le_refl _

/-! ## Tags -/

/-- The **tag** with which an element begins. A tag that ends in `/>` is the whole element. -/
structure Tag where
  name : String
  attributes : OrderedMap String String
  isWhole : Bool

/-- The end of a tag: `/>` for a whole element, `>` for one that is still open. -/
def tagEnd? : List Char → Option (Bool × List Char)
  | '/' :: '>' :: rest => some (true, rest)
  | '>' :: rest => some (false, rest)
  | _ => none

/-- The tag at the front of a text. -/
def tag? (text : List Char) : Option (Tag × List Char) :=
  (behind? ['<'] text).bind fun afterMark =>
    (name? (skipTrivia afterMark)).bind fun (name, afterName) =>
      let (attributes, afterAttributes) := attributesFrom ∅ afterName
      (tagEnd? (skipTrivia afterAttributes)).map fun (isWhole, rest) =>
        (⟨String.ofList name, attributes, isWhole⟩, rest)

/-- The text behind the closing tag of the element of a given name. -/
def behindClosingTag? (name : String) (text : List Char) : Option (List Char) :=
  (behind? ['<', '/'] text).bind fun afterMark =>
    (behind? name.toList (skipTrivia afterMark)).bind fun afterName =>
      behind? ['>'] (skipTrivia afterName)

theorem length_of_tagEnd? {text rest : List Char} {isWhole : Bool}
    (h : tagEnd? text = some (isWhole, rest)) : rest.length < text.length := by
  unfold tagEnd? at h
  split at h
  · cases h
    simp only [List.length_cons]
    omega
  · cases h
    simp
  · cases h

theorem length_of_tag? {text rest : List Char} {tag : Tag} (h : tag? text = some (tag, rest)) :
    rest.length < text.length := by
  unfold tag? at h
  obtain ⟨afterMark, hm, h⟩ := Option.bind_eq_some_iff.mp h
  obtain ⟨⟨name, afterName⟩, hn, h⟩ := Option.bind_eq_some_iff.mp h
  obtain ⟨⟨isWhole, after⟩, he, h⟩ := Option.map_eq_some_iff.mp h
  cases h
  have byMark := length_of_behind? hm
  have byName := length_of_name? hn
  have byEnd := length_of_tagEnd? he
  have byAttributes := length_attributesFrom_le ∅ afterName
  have firstSkip := length_skipTrivia_le afterMark
  have secondSkip := length_skipTrivia_le (attributesFrom ∅ afterName).2
  simp only [List.length_cons] at byMark
  omega

theorem length_of_behindClosingTag? {name : String} {text rest : List Char}
    (h : behindClosingTag? name text = some rest) : rest.length < text.length := by
  unfold behindClosingTag? at h
  obtain ⟨afterMark, hm, h⟩ := Option.bind_eq_some_iff.mp h
  obtain ⟨afterName, hn, h⟩ := Option.bind_eq_some_iff.mp h
  have byMark := length_of_behind? hm
  have byName := length_of_behind? hn
  have byEnd := length_of_behind? h
  have firstSkip := length_skipTrivia_le afterMark
  have secondSkip := length_skipTrivia_le afterName
  simp only [List.length_cons] at byMark byEnd
  omega

/-! ## Ignored material -/

/-- The text behind a declaration, which ends with the first mark `?>`. -/
def behindDeclaration? (text : List Char) : Option (List Char) :=
  (behind? ['<', '?'] text).bind (behindFirst? ['?', '>'])

/-- The text behind a literal section, which ends with the first mark `]]>`. -/
def behindLiteral? (text : List Char) : Option (List Char) :=
  (behind? ['<', '!', '[', 'C', 'D', 'A', 'T', 'A', '['] text).bind (behindFirst? [']', ']', '>'])

/-- The text behind a document type, which ends with the first closing angle bracket. -/
def behindDocumentType? (text : List Char) : Option (List Char) :=
  (behind? ['<', '!', 'D', 'O', 'C', 'T', 'Y', 'P', 'E'] text).bind (behindFirst? ['>'])

/-- The text behind a run of character data: at least one character, and no opening angle bracket.
-/
def behindCharacters? : List Char → Option (List Char)
  | [] => none
  | c :: text => if c = '<' then none else some (text.dropWhile (· != '<'))

/-- The text behind a piece of ignored material inside an element. -/
def behindIgnored? (text : List Char) : Option (List Char) :=
  behindLiteral? text <|> behindDeclaration? text <|> behindCharacters? text

theorem length_of_behindDeclaration? {text rest : List Char}
    (h : behindDeclaration? text = some rest) : rest.length < text.length := by
  have := length_of_bind_behindFirst? h
  simp only [List.length_cons] at this
  omega

theorem length_of_behindLiteral? {text rest : List Char}
    (h : behindLiteral? text = some rest) : rest.length < text.length := by
  have := length_of_bind_behindFirst? h
  simp only [List.length_cons] at this
  omega

theorem length_of_behindCharacters? {text rest : List Char}
    (h : behindCharacters? text = some rest) : rest.length < text.length := by
  cases text with
  | nil => simp [behindCharacters?] at h
  | cons c text =>
      rw [behindCharacters?] at h
      split at h
      · cases h
      · cases h
        have := length_dropWhile_le (· != '<') text
        rw [List.length_cons]
        omega

theorem length_of_behindIgnored? {text rest : List Char}
    (h : behindIgnored? text = some rest) : rest.length < text.length := by
  unfold behindIgnored? at h
  cases l : behindLiteral? text with
  | some found =>
      simp only [l] at h
      cases h
      exact length_of_behindLiteral? l
  | none =>
      cases d : behindDeclaration? text with
      | some found =>
          simp only [l, d] at h
          cases h
          exact length_of_behindDeclaration? d
      | none =>
          simp only [l, d] at h
          exact length_of_behindCharacters? h

end FormulaExport.Markup

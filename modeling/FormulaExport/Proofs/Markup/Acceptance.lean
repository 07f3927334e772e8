import FormulaExport.Proofs.Markup.Tag

/-!
# The readers accept the grammar

A text is read as an element, or as a document, **exactly if** the grammar derives it, and the tree
is the one of the derivation.

What the grammar derives is read: content only adds its children to the innermost open element,
whatever stands behind it (`readContent_append`). For the other direction, the open elements say
what they still demand of a text (`Closes`), and every step of the reader keeps to it.
-/

set_option autoImplicit false

namespace FormulaExport.Markup

open FormulaExport.Text

/-! ## What an item begins with -/

theorem behind?_of_ne_first {w c : Char} {word text : List Char} (h : c ≠ w) :
    behind? (w :: word) (c :: text) = none := by
  rw [behind?, if_neg h.symm]

theorem behind?_of_ne_second {v w c : Char} {word text : List Char} (h : c ≠ w) :
    behind? (v :: w :: word) (v :: c :: text) = none := by
  rw [behind?, if_pos rfl, behind?_of_ne_first h]

theorem behindClosingTag?_of_ne_first {name : String} {c : Char} {text : List Char}
    (h : c ≠ '<') : behindClosingTag? name (c :: text) = none := by
  rw [behindClosingTag?, behind?_of_ne_first h, Option.bind_none]

theorem behindClosingTag?_of_ne_second {name : String} {c : Char} {text : List Char}
    (h : c ≠ '/') : behindClosingTag? name ('<' :: c :: text) = none := by
  rw [behindClosingTag?, behind?_of_ne_second h, Option.bind_none]

theorem behindLiteral?_of_ne {c : Char} {text : List Char} (h : c ≠ '!') :
    behindLiteral? ('<' :: c :: text) = none := by
  rw [behindLiteral?, behind?_of_ne_second h, Option.bind_none]

theorem behindDocumentType?_of_ne {c : Char} {text : List Char} (h : c ≠ '!') :
    behindDocumentType? ('<' :: c :: text) = none := by
  rw [behindDocumentType?, behind?_of_ne_second h, Option.bind_none]

theorem behindDeclaration?_of_ne {c : Char} {text : List Char} (h : c ≠ '?') :
    behindDeclaration? ('<' :: c :: text) = none := by
  rw [behindDeclaration?, behind?_of_ne_second h, Option.bind_none]

theorem behindIgnored?_of_ne {c : Char} {text : List Char} (h : c ≠ '!') (h' : c ≠ '?') :
    behindIgnored? ('<' :: c :: text) = none := by
  rw [behindIgnored?, behindLiteral?_of_ne h, behindDeclaration?_of_ne h']
  rfl

theorem TagText.front {text : List Char} {tag : Tag} (h : TagText text tag) :
    ∃ c rest, text = '<' :: c :: rest ∧ c ≠ '!' ∧ c ≠ '/' ∧ c ≠ '?' := by
  cases h with
  | mk first isName _ _ _ =>
      cases first with
      | nothing =>
          obtain ⟨c, inside, rfl, start, -⟩ := isName
          obtain ⟨-, -, marks⟩ := ne_of_isNamePart (isNamePart_of_isNameStart start)
          exact ⟨c, _, rfl, marks⟩
      | @blank c _ isBlank _ =>
          refine ⟨c, _, rfl, ?_, ?_, ?_⟩
          all_goals
            rintro rfl
            revert isBlank
            decide
      | comment isComment _ =>
          obtain ⟨body, -, rfl⟩ := isComment
          exact ⟨'<', _, rfl, by decide, by decide, by decide⟩

theorem ElementText.front {text : List Char} {element : Element} (h : ElementText text element) :
    ∃ c rest, text = '<' :: c :: rest ∧ c ≠ '!' ∧ c ≠ '/' ∧ c ≠ '?' := by
  cases h with
  | whole isTag _ => exact isTag.front
  | nested isTag _ _ _ =>
      obtain ⟨c, rest, rfl, marks⟩ := isTag.front
      exact ⟨c, _, rfl, marks⟩

theorem TagText.isName {text : List Char} {tag : Tag} (h : TagText text tag) :
    IsName tag.name.toList := by
  cases h with
  | mk _ isName _ _ _ =>
      rw [String.toList_ofList]
      exact isName

theorem readContent_eq (inner : OpenElement) (outer : List OpenElement) (text : List Char) :
    readContent inner outer text =
      match behindClosingTag? inner.name (skipTrivia text) with
      | some rest =>
        match outer with
        | [] => some (inner.close, rest)
        | parent :: outer => readContent (parent.add inner.close) outer rest
      | none =>
        match behindIgnored? (skipTrivia text) with
        | some rest => readContent inner outer rest
        | none =>
          match tag? (skipTrivia text) with
          | some (tag, rest) =>
            if tag.isWhole then readContent (inner.add (OpenElement.ofTag tag).close) outer rest
            else readContent (.ofTag tag) (inner :: outer) rest
          | none => none := by
  rw [readContent]
  grind

/-! ## What the grammar derives is read -/

/-- The innermost open element behind more children. -/
def OpenElement.addAll (inner : OpenElement) (children : List Element) : OpenElement :=
  children.foldl OpenElement.add inner

theorem OpenElement.addAll_name (inner : OpenElement) (children : List Element) :
    (inner.addAll children).name = inner.name := by
  induction children generalizing inner with
  | nil => rfl
  | cons child children ih => exact ih (inner.add child)

theorem OpenElement.close_addAll (inner : OpenElement) (children : List Element) :
    (inner.addAll children).close =
      ⟨inner.name, inner.attributes, inner.earlier.reverse ++ children⟩ := by
  induction children generalizing inner with
  | nil => simp [addAll, close]
  | cons child children ih =>
      refine (ih (inner.add child)).trans ?_
      simp [add]

section

variable {inner : OpenElement} {outer : List OpenElement}

/-- White space and comments in front of a text make no difference. -/
theorem readContent_trivia {gap text : List Char} (h : Trivia gap) :
    readContent inner outer (gap ++ text) = readContent inner outer text := by
  rw [readContent_eq, readContent_eq inner outer text, skipTrivia_append h]

theorem readContent_ignored {text rest : List Char} (solid : Solid text)
    (notClosed : behindClosingTag? inner.name text = none)
    (ignored : behindIgnored? text = some rest) :
    readContent inner outer text = readContent inner outer rest := by
  rw [readContent_eq, solid, notClosed, ignored]

/-- Neither do characters other than an opening angle bracket. Part of them may be white space that
is left out first, so this goes one character at a time. -/
theorem readContent_dropWhile (text : List Char) :
    readContent inner outer (text.dropWhile (· != '<')) = readContent inner outer text := by
  induction text with
  | nil => rfl
  | cons c text ih =>
      by_cases mark : c = '<'
      · rw [List.dropWhile_cons_of_neg (by simp [mark])]
      · rw [List.dropWhile_cons_of_pos (by simp [mark])]
        by_cases blank : isBlank c = true
        · rw [ih]
          exact (readContent_trivia (.blank blank .nothing)).symm
        · refine (readContent_ignored (solid_of_ne (Bool.eq_false_iff.mpr blank) mark)
            (behindClosingTag?_of_ne_first mark) ?_).symm
          rw [behindIgnored?, behindLiteral?, behindDeclaration?, behind?_of_ne_first mark,
            behind?_of_ne_first mark, behindCharacters?, if_neg mark]
          rfl

theorem readContent_characters {run rest : List Char} (h : IsCharacters run) :
    readContent inner outer (run ++ rest) = readContent inner outer rest := by
  have inside : ∀ c ∈ run, (c != '<') = true := fun c member => by simpa using h.2 c member
  rw [← readContent_dropWhile, List.dropWhile_append_of_pos inside, readContent_dropWhile]

theorem readContent_item {item rest : List Char} (h : IsIgnored item) :
    readContent inner outer (item ++ rest) = readContent inner outer rest := by
  rcases h with literal | declaration | characters
  · have found : behindLiteral? (item ++ rest) = some rest :=
      behindLiteral?_eq_some_iff.mpr ⟨item, literal, rfl⟩
    obtain ⟨body, -, rfl⟩ := literal
    refine readContent_ignored (solid_of_ne_hyphen (by decide))
      (behindClosingTag?_of_ne_second (by decide)) ?_
    rw [behindIgnored?, found]
    rfl
  · have found : behindDeclaration? (item ++ rest) = some rest :=
      behindDeclaration?_eq_some_iff.mpr ⟨item, declaration, rfl⟩
    obtain ⟨body, -, rfl⟩ := declaration
    refine readContent_ignored (solid_of_ne_mark (by decide))
      (behindClosingTag?_of_ne_second (by decide)) ?_
    have notLiteral : behindLiteral? (['<', '?'] ++ (body ++ ['?', '>']) ++ rest) = none :=
      behindLiteral?_of_ne (by decide)
    rw [behindIgnored?, found, notLiteral]
    rfl
  · exact readContent_characters characters

theorem readContent_tag {text rest : List Char} {tag : Tag} (h : TagText text tag) :
    readContent inner outer (text ++ rest) =
      if tag.isWhole then readContent (inner.add (OpenElement.ofTag tag).close) outer rest
      else readContent (.ofTag tag) (inner :: outer) rest := by
  have found : tag? (text ++ rest) = some (tag, rest) := tag?_append h
  obtain ⟨c, behind, rfl, notMark, notSlash, notQuestion⟩ := h.front
  have solid : Solid ('<' :: c :: behind ++ rest) := solid_of_ne_mark notMark
  rw [readContent_eq, solid, found, List.cons_append, List.cons_append,
    behindClosingTag?_of_ne_second notSlash, behindIgnored?_of_ne notMark notQuestion]

theorem readContent_closingTag {closing rest : List Char} (isName : IsName inner.name.toList)
    (h : ClosingTagText inner.name closing) :
    readContent inner outer (closing ++ rest) =
      match outer with
      | [] => some (inner.close, rest)
      | parent :: outer => readContent (parent.add inner.close) outer rest := by
  have found : behindClosingTag? inner.name (closing ++ rest) = some rest :=
    behindClosingTag?_append isName h
  have solid : Solid (closing ++ rest) := by
    cases h
    exact solid_of_ne_mark (by decide)
  rw [readContent_eq, solid, found]

/-- The closing tag ends the element of a tag, with all children that have been added. -/
theorem readContent_closingTag_addAll {text closing rest : List Char} {tag : Tag}
    (isTag : TagText text tag) (h : ClosingTagText tag.name closing) (children : List Element) :
    readContent ((OpenElement.ofTag tag).addAll children) outer (closing ++ rest) =
      match outer with
      | [] => some (⟨tag.name, tag.attributes, children⟩, rest)
      | parent :: outer =>
        readContent (parent.add ⟨tag.name, tag.attributes, children⟩) outer rest := by
  have name : ((OpenElement.ofTag tag).addAll children).name = tag.name :=
    OpenElement.addAll_name _ _
  have closed : ((OpenElement.ofTag tag).addAll children).close =
      ⟨tag.name, tag.attributes, children⟩ :=
    OpenElement.close_addAll _ _
  rw [readContent_closingTag (name ▸ isTag.isName) (name ▸ h), closed]

end

-- an element may hold content and content may hold elements, so both go by one recursion on the
-- derivation
mutual

/-- Content only adds its children to the innermost open element. -/
theorem readContent_append : ∀ {content : List Char} {children : List Element},
    ContentText content children → ∀ (inner : OpenElement) (outer : List OpenElement)
    (rest : List Char), readContent inner outer (content ++ rest) =
      readContent (inner.addAll children) outer rest
  | _, _, .nothing gap, _, _, _ => readContent_trivia gap
  | _, _, .ignored gap item content, inner, outer, rest => by
      rw [List.append_assoc, List.append_assoc, readContent_trivia gap, readContent_item item,
        readContent_append content]
  | _, _, .element gap item content, inner, outer, rest => by
      rw [List.append_assoc, List.append_assoc, readContent_trivia gap,
        readContent_element item, readContent_append content]
      rfl

theorem readContent_element : ∀ {text : List Char} {element : Element},
    ElementText text element → ∀ (inner : OpenElement) (outer : List OpenElement)
    (rest : List Char), readContent inner outer (text ++ rest) =
      readContent (inner.add element) outer rest
  | _, _, .whole isTag whole, inner, outer, rest => by
      rw [readContent_tag isTag, if_pos whole]
      rfl
  | _, _, @ElementText.nested _ _ _ tag children isTag notWhole content closing,
      inner, outer, rest => by
      rw [List.append_assoc, List.append_assoc, readContent_tag isTag,
        if_neg (by rw [notWhole]; exact Bool.false_ne_true), readContent_append content]
      exact readContent_closingTag_addAll isTag closing children

end

/-- An element of the grammar is read off the front of a text, whatever stands behind it. -/
theorem readElement_append {text : List Char} {element : Element} (h : ElementText text element)
    (rest : List Char) : readElement (text ++ rest) = some (element, rest) := by
  cases h with
  | whole isTag whole =>
      rw [readElement, tag?_append isTag, Option.bind_some]
      dsimp only
      rw [if_pos whole]
      rfl
  | @nested text content closing tag children isTag notWhole isContent isClosing =>
      rw [readElement, List.append_assoc, List.append_assoc, tag?_append isTag, Option.bind_some]
      dsimp only
      rw [if_neg (by rw [notWhole]; exact Bool.false_ne_true), readContent_append isContent]
      exact readContent_closingTag_addAll isTag isClosing children

/-! ## What is read the grammar derives -/

/-- An open element is finished by a text if the text goes on with content and the closing tag. -/
def Finishes (inner : OpenElement) (text : List Char) (element : Element) (rest : List Char) :
    Prop :=
  ∃ content children closing, ContentText content children ∧
    ClosingTagText inner.name closing ∧ text = content ++ (closing ++ rest) ∧
    element = (inner.addAll children).close

/-- What the open elements still demand of a text: it has to finish the innermost one, which becomes
a child of the next, and so on until the outermost one is finished. -/
def Closes : List OpenElement → OpenElement → List Char → Element → List Char → Prop
  | [], inner, text, element, rest => Finishes inner text element rest
  | parent :: outer, inner, text, element, rest =>
    ∃ closed behind, Finishes inner text closed behind ∧
      Closes outer (parent.add closed) behind element rest

section

variable {inner inner' : OpenElement} {text text' rest : List Char} {element : Element}

/-- Whatever turns what finishes one open element into what finishes another does the same for what
stands around it. -/
theorem Closes.imp {outer : List OpenElement}
    (h : ∀ closed behind, Finishes inner text closed behind → Finishes inner' text' closed behind)
    (closes : Closes outer inner text element rest) :
    Closes outer inner' text' element rest := by
  cases outer with
  | nil => exact h element rest closes
  | cons parent outer =>
      obtain ⟨closed, behind, finishes, outside⟩ := closes
      exact ⟨closed, behind, h closed behind finishes, outside⟩

theorem finishes_closed (closed : behindClosingTag? inner.name (skipTrivia text) = some rest) :
    Finishes inner text inner.close rest := by
  obtain ⟨gap, trivia, split⟩ := exists_trivia text
  obtain ⟨closing, isClosing, front⟩ := exists_of_behindClosingTag? closed
  refine ⟨gap, [], closing, .nothing trivia, isClosing, ?_, rfl⟩
  calc text = gap ++ skipTrivia text := split
    _ = gap ++ (closing ++ rest) := by rw [front]

theorem finishes_ignored {gap item : List Char} (trivia : Trivia gap) (isIgnored : IsIgnored item)
    (h : Finishes inner text element rest) :
    Finishes inner (gap ++ (item ++ text)) element rest := by
  obtain ⟨content, children, closing, isContent, isClosing, rfl, rfl⟩ := h
  refine ⟨_, children, closing, .ignored trivia isIgnored isContent, isClosing, ?_, rfl⟩
  simp only [List.append_assoc]

theorem finishes_element {gap item : List Char} {child : Element} (trivia : Trivia gap)
    (isElement : ElementText item child) (h : Finishes (inner.add child) text element rest) :
    Finishes inner (gap ++ (item ++ text)) element rest := by
  obtain ⟨content, children, closing, isContent, isClosing, rfl, rfl⟩ := h
  refine ⟨_, child :: children, closing, .element trivia isElement isContent, isClosing, ?_, rfl⟩
  simp only [List.append_assoc]

theorem elementText_of_finishes {opening : List Char} {tag : Tag} (isTag : TagText opening tag)
    (notWhole : tag.isWhole = false) (h : Finishes (.ofTag tag) text element rest) :
    ∃ item, ElementText item element ∧ opening ++ text = item ++ rest := by
  obtain ⟨content, children, closing, isContent, isClosing, rfl, rfl⟩ := h
  refine ⟨opening ++ (content ++ closing), ?_, by simp only [List.append_assoc]⟩
  rw [OpenElement.close_addAll]
  exact .nested isTag notWhole isContent isClosing

end

/-- Every step of the reader keeps to what the open elements demand. -/
theorem closes_of_readContent {inner : OpenElement} {outer : List OpenElement}
    {text rest : List Char} {element : Element}
    (h : readContent inner outer text = some (element, rest)) :
    Closes outer inner text element rest := by
  fun_induction readContent inner outer text with
  | case1 inner text rest' closed =>
      -- the outermost element is closed
      cases h
      exact finishes_closed closed
  | case2 inner text rest' closed parent outer ih =>
      -- an inner element is closed, and is one more child of the next
      exact ⟨inner.close, rest', finishes_closed closed, ih h⟩
  | case3 inner outer text _ rest' ignored ih =>
      obtain ⟨gap, trivia, split⟩ := exists_trivia text
      obtain ⟨item, isIgnored, front⟩ := exists_of_behindIgnored? ignored
      rw [split, front]
      exact (ih h).imp fun _ _ => finishes_ignored trivia isIgnored
  | case4 inner outer text _ _ tag rest' opened whole ih =>
      obtain ⟨gap, trivia, split⟩ := exists_trivia text
      obtain ⟨item, isTag, front⟩ := exists_of_tag? opened
      rw [split, front]
      exact (ih h).imp fun _ _ => finishes_element trivia (.whole isTag whole)
  | case5 inner outer text _ _ tag rest' opened notWhole ih =>
      -- the element of the tag is finished first, and is then one more child
      obtain ⟨gap, trivia, split⟩ := exists_trivia text
      obtain ⟨opening, isTag, front⟩ := exists_of_tag? opened
      obtain ⟨closed, behind, finishes, outside⟩ := ih h
      obtain ⟨item, isElement, front'⟩ :=
        elementText_of_finishes isTag (Bool.eq_false_iff.mpr notWhole) finishes
      rw [split, front, front']
      exact outside.imp fun _ _ => finishes_element trivia isElement
  | case6 => cases h

theorem exists_of_readElement {text rest : List Char} {element : Element}
    (h : readElement text = some (element, rest)) :
    ∃ item, ElementText item element ∧ text = item ++ rest := by
  obtain ⟨⟨tag, behind⟩, opened, read⟩ := Option.bind_eq_some_iff.mp h
  obtain ⟨opening, isTag, rfl⟩ := exists_of_tag? opened
  dsimp only at read
  by_cases whole : tag.isWhole = true
  · rw [if_pos whole] at read
    cases read
    exact ⟨opening, .whole isTag whole, rfl⟩
  · rw [if_neg whole] at read
    exact elementText_of_finishes isTag (Bool.eq_false_iff.mpr whole) (closes_of_readContent read)

/-! ## Documents -/

theorem skipDeclarations_eq (text : List Char) :
    skipDeclarations text =
      match behindDeclaration? (skipTrivia text) with
      | some rest => skipDeclarations rest
      | none => skipTrivia text := by
  rw [skipDeclarations]
  grind

theorem skipDeclarations_append {declarations rest : List Char}
    (h : DeclarationsText declarations) (solid : Solid rest)
    (stop : behindDeclaration? rest = none) :
    skipDeclarations (declarations ++ rest) = rest := by
  induction h with
  | none trivia => rw [skipDeclarations_eq, skipTrivia_append_solid trivia solid, stop]
  | @more gap declaration behind trivia isDeclaration _ ih =>
      have solid' : Solid (declaration ++ (behind ++ rest)) := by
        obtain ⟨body, -, rfl⟩ := isDeclaration
        exact solid_of_ne_mark (by decide)
      have found : behindDeclaration? (declaration ++ (behind ++ rest)) = some (behind ++ rest) :=
        behindDeclaration?_eq_some_iff.mpr ⟨declaration, isDeclaration, rfl⟩
      rw [List.append_assoc, List.append_assoc, skipDeclarations_eq,
        skipTrivia_append_solid trivia solid', found]
      exact ih

theorem exists_declarations (text : List Char) :
    ∃ declarations, DeclarationsText declarations ∧ text = declarations ++ skipDeclarations text := by
  fun_induction skipDeclarations text with
  | case1 text rest found ih =>
      obtain ⟨gap, trivia, split⟩ := exists_trivia text
      obtain ⟨declaration, isDeclaration, front⟩ := behindDeclaration?_eq_some_iff.mp found
      obtain ⟨declarations, isDeclarations, split'⟩ := ih
      refine ⟨_, .more trivia isDeclaration isDeclarations, ?_⟩
      rw [List.append_assoc, List.append_assoc, ← split', ← front, ← split]
  | case2 text _ =>
      obtain ⟨gap, trivia, split⟩ := exists_trivia text
      exact ⟨gap, .none trivia, split⟩

theorem skipDocumentType_append {documentType rest : List Char}
    (h : DocumentTypeText documentType) (solid : Solid rest)
    (stop : behindDocumentType? rest = none) : skipDocumentType (documentType ++ rest) = rest := by
  cases h with
  | none => rw [List.nil_append, skipDocumentType, stop]
  | @one documentType gap isDocumentType trivia =>
      have found : behindDocumentType? (documentType ++ (gap ++ rest)) = some (gap ++ rest) :=
        behindDocumentType?_eq_some_iff.mpr ⟨documentType, isDocumentType, rfl⟩
      rw [List.append_assoc, skipDocumentType, found]
      exact skipTrivia_append_solid trivia solid

theorem exists_documentType (text : List Char) :
    ∃ documentType, DocumentTypeText documentType ∧
      text = documentType ++ skipDocumentType text := by
  cases found : behindDocumentType? text with
  | none => exact ⟨[], .none, by rw [skipDocumentType, found, List.nil_append]⟩
  | some rest =>
      obtain ⟨documentType, isDocumentType, front⟩ := behindDocumentType?_eq_some_iff.mp found
      obtain ⟨gap, trivia, split⟩ := exists_trivia rest
      refine ⟨documentType ++ gap, .one isDocumentType trivia, ?_⟩
      rw [skipDocumentType, found]
      dsimp only
      rw [List.append_assoc, ← split, front]

/-- Neither a declaration nor a document type begins what begins a document body. -/
theorem documentType_front {documentType body : List Char} {root : Element}
    (h : DocumentTypeText documentType) (isElement : ElementText body root) (rest : List Char) :
    Solid (documentType ++ (body ++ rest)) ∧
      behindDeclaration? (documentType ++ (body ++ rest)) = none := by
  cases h with
  | none =>
      obtain ⟨c, inside, rfl, notMark, -, notQuestion⟩ := isElement.front
      exact ⟨solid_of_ne_mark notMark, behindDeclaration?_of_ne notQuestion⟩
  | one isDocumentType _ =>
      obtain ⟨inside, -, rfl⟩ := isDocumentType
      refine ⟨solid_of_ne_hyphen (by decide), ?_⟩
      rw [List.append_assoc, List.append_assoc]
      exact behindDeclaration?_of_ne (by decide)

theorem atEnd?_eq_some_iff {text behind : List Char} :
    atEnd? text = some behind ↔ text = [] ∧ behind = [] := by
  unfold atEnd?
  split
  · next done => simp [done, eq_comm]
  · next more => simp [more]

theorem rest_of_readDocument {text rest : List Char} {document : Document}
    (h : readDocument text = some (document, rest)) : rest = [] := by
  obtain ⟨⟨element, after⟩, -, h⟩ := Option.bind_eq_some_iff.mp h
  obtain ⟨behind, ended, answer⟩ := Option.map_eq_some_iff.mp h
  cases answer
  exact (atEnd?_eq_some_iff.mp ended).2

theorem readDocument_eq_some_iff {text : List Char} {document : Document} :
    readDocument text = some (document, []) ↔ DocumentText text document.root := by
  constructor
  · intro h
    obtain ⟨⟨element, rest⟩, read, h⟩ := Option.bind_eq_some_iff.mp h
    obtain ⟨behind, ended, answer⟩ := Option.map_eq_some_iff.mp h
    cases answer
    obtain ⟨declarations, isDeclarations, split⟩ := exists_declarations text
    obtain ⟨documentType, isDocumentType, split'⟩ :=
      exists_documentType (skipDeclarations text)
    obtain ⟨body, isElement, front⟩ := exists_of_readElement read
    obtain ⟨gap, trivia, after⟩ := exists_trivia rest
    rw [(atEnd?_eq_some_iff.mp ended).1, List.append_nil] at after
    rw [split, split', front, after]
    exact .mk isDeclarations isDocumentType isElement trivia
  · rcases document with ⟨root⟩
    rintro ⟨isDeclarations, isDocumentType, isElement, trivia⟩
    rename_i declarations documentType body gap
    obtain ⟨solid, stop⟩ := documentType_front isDocumentType isElement gap
    -- an element begins like neither of the two that may stand in front of it
    have body_solid : Solid (body ++ gap) ∧ behindDocumentType? (body ++ gap) = none := by
      obtain ⟨c, inside, rfl, notMark, -⟩ := isElement.front
      exact ⟨solid_of_ne_mark notMark, behindDocumentType?_of_ne notMark⟩
    rw [readDocument, skipDeclarations_append isDeclarations solid stop,
      skipDocumentType_append isDocumentType body_solid.1 body_solid.2,
      readElement_append isElement, Option.bind_some]
    dsimp only
    rw [skipTrivia_eq_nil trivia]
    rfl

/-! ## The readers -/

/-- What is read off the front of a text is the element that begins it. -/
theorem readElement_eq_some_iff {text rest : List Char} {element : Element} :
    readElement text = some (element, rest) ↔
      ∃ front, ElementText front element ∧ text = front ++ rest := by
  constructor
  · exact exists_of_readElement
  · rintro ⟨front, isElement, rfl⟩
    exact readElement_append isElement rest

theorem readElement_eq_some_nil_iff {text : List Char} {element : Element} :
    readElement text = some (element, []) ↔ ElementText text element := by
  simp only [readElement_eq_some_iff, List.append_nil, exists_eq_right']

section

variable {α : Type} {rule : List Char → Option (α × List Char)} {text : String}

theorem readWhole_eq_ok_iff {value : α} :
    readWhole rule text = .ok value ↔ rule text.toList = some (value, []) := by
  unfold readWhole
  split
  · next e => simp [e]
  · next e => simp [e]
  · next nonempty e =>
    simp only [e, reduceCtorEq, Option.some.injEq, Prod.mk.injEq, false_iff, not_and]
    exact fun _ => nonempty

theorem readWhole_eq_trailing_iff {place : Place} :
    readWhole rule text = .error (.trailing place) ↔
      ∃ value rest, rule text.toList = some (value, rest) ∧ rest ≠ [] ∧
        place = Place.behind (text.toList.take (text.toList.length - rest.length)) := by
  unfold readWhole
  split
  · next e => simp [e]
  · next e => simp [e]
  · next rest nonempty e =>
    constructor
    · rintro ⟨⟩
      exact ⟨_, rest, e, nonempty, rfl⟩
    · rintro ⟨value, rest', e', -, rfl⟩
      obtain ⟨-, rfl⟩ := Prod.mk.inj (Option.some.inj (e.symm.trans e'))
      rfl

end

theorem Element.read_eq_ok_iff {text : String} {element : Element} :
    Element.read text = .ok element ↔ readElement text.toList = some (element, []) :=
  readWhole_eq_ok_iff

theorem Document.read_eq_ok_iff {text : String} {document : Document} :
    Document.read text = .ok document ↔ readDocument text.toList = some (document, []) :=
  readWhole_eq_ok_iff

/-- The readers accept exactly the texts of the grammar, and answer their trees. -/
theorem read_eq_ok_iff_derives (text : String) :
    (∀ element, Element.read text = .ok element ↔ ElementText text.toList element) ∧
      ∀ document, Document.read text = .ok document ↔
        DocumentText text.toList document.root :=
  ⟨fun _ => Element.read_eq_ok_iff.trans readElement_eq_some_nil_iff,
    fun _ => Document.read_eq_ok_iff.trans readDocument_eq_some_iff⟩

end FormulaExport.Markup

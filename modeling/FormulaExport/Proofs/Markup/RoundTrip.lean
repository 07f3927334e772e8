import FormulaExport.Markup.Printer
import FormulaExport.Proofs.Markup.Acceptance
import FormulaExport.Proofs.Markup.Reference

/-!
# Reading what is printed

The printed form of an element is a text of the grammar, and its tree is the element itself. The
only thing that printing does not take care of are names: those of the elements and the keys of
their attributes have to be names of the grammar (`Element.WellNamed`). The values may be any text,
because `Reference.escape` leaves no quote and no opening angle bracket in them and
`Reference.decode` undoes it.
-/

set_option autoImplicit false

namespace FormulaExport.Markup

/-! ## Elements -/

/-- An element is **well named** if its name, the keys of its attributes and all names and keys
below it are names of the grammar. -/
inductive Element.WellNamed : Element → Prop where
  | mk {name : String} {attributes : OrderedMap String String} {children : List Element} :
      IsName name.toList → (∀ key ∈ attributes.keys, IsName key.toList) →
      (∀ child ∈ children, WellNamed child) → WellNamed ⟨name, attributes, children⟩

theorem trivia_space : Trivia [' '] := .blank (by decide) .nothing

theorem attributeText_print {key : String} (isName : IsName key.toList) (value : String) :
    AttributeText (key.toList ++ '=' :: '"' :: (Reference.escape value.toList ++ ['"']))
      (key, value) := by
  have written : IsValue (Reference.escape value.toList)
      ('"' :: (Reference.escape value.toList ++ ['"'])) :=
    ⟨'"', Or.inl rfl, fun _ => Reference.ne_of_mem_escape, rfl⟩
  have read := AttributeText.mk isName .nothing (endsName_cons (by decide)) .nothing written
  rwa [String.ofList_toList, unescape, String.toList_ofList, Reference.decode_escape,
    String.ofList_toList] at read

theorem attributesText_print {entries : List (String × String)}
    (names : ∀ key ∈ entries.map Prod.fst, IsName key.toList) :
    AttributesText (entries.flatMap attributeText) entries := by
  induction entries with
  | nil => exact .none
  | cons entry entries ih =>
      have rest := ih fun key inside => names key (List.mem_cons_of_mem _ inside)
      have first := attributeText_print (names entry.1 List.mem_cons_self) entry.2
      exact .more trivia_space first rest

theorem endsName_print (entries : List (String × String)) (isWhole : Bool) :
    EndsName (entries.flatMap attributeText ++ ([] ++ tagMark isWhole)) := by
  cases entries with
  | nil => cases isWhole <;> exact endsName_cons (by decide)
  | cons entry entries => exact endsName_cons (by decide)

theorem tagText_print {name : String} {attributes : OrderedMap String String}
    (isName : IsName name.toList) (names : ∀ key ∈ attributes.keys, IsName key.toList)
    (isWhole : Bool) :
    TagText ('<' :: (name.toList ++ (attributes.entries.flatMap attributeText ++ tagMark isWhole)))
      ⟨name, attributes, isWhole⟩ := by
  have read := TagText.mk .nothing isName (endsName_print attributes.entries isWhole)
    (attributesText_print names) .nothing
  rwa [String.ofList_toList, OrderedMap.ofList_entries] at read

theorem contentText_print {children : List Element}
    (h : ∀ child ∈ children, ElementText child.characters child) :
    ContentText (Element.charactersOfAll children) children := by
  induction children with
  | nil =>
      rw [Element.charactersOfAll]
      exact .nothing .nothing
  | cons child children ih =>
      rw [Element.charactersOfAll]
      exact .element .nothing (h child List.mem_cons_self)
        (ih fun other inside => h other (List.mem_cons_of_mem _ inside))

/-- The printed form of a well named element is a text of that element. -/
theorem elementText_print {element : Element} (h : element.WellNamed) :
    ElementText element.characters element := by
  induction h with
  | @mk name attributes children isName names _ ih =>
      cases children with
      | nil =>
          rw [Element.characters]
          exact .whole (tagText_print isName names true) rfl
      | cons child children =>
          have closing : ClosingTagText name ('<' :: '/' :: (name.toList ++ ['>'])) :=
            .mk .nothing .nothing
          have text := ElementText.nested (tagText_print isName names false) rfl
            (contentText_print ih) closing
          rw [Element.characters]
          simpa only [tagMark, List.cons_append, List.append_assoc, List.nil_append] using text

theorem documentText_print {root : Element} (h : root.WellNamed) :
    DocumentText (root.characters ++ ['\n']) root :=
  .mk (.none .nothing) .none (elementText_print h) (.blank (by decide) .nothing)

/-! ## What is read is well named -/

theorem AttributesText.isName_keys {text : List Char} {entries : List (String × String)}
    (h : AttributesText text entries) : ∀ key ∈ entries.map Prod.fst, IsName key.toList := by
  induction h with
  | none => exact nofun
  | more _ first _ ih =>
      intro key inside
      rcases List.mem_cons.mp inside with rfl | later
      · cases first with
        | mk isName _ _ _ _ =>
            rw [String.toList_ofList]
            exact isName
      · exact ih key later

theorem TagText.isName_keys {text : List Char} {tag : Tag} (h : TagText text tag) :
    ∀ key ∈ tag.attributes.keys, IsName key.toList := by
  cases h with
  | mk _ _ _ attributes _ =>
      intro key inside
      have written := OrderedMap.mem_keys_insertAll.mp inside
      exact attributes.isName_keys key (written.resolve_left nofun)

mutual

theorem ElementText.wellNamed : ∀ {text : List Char} {element : Element},
    ElementText text element → element.WellNamed
  | _, _, .whole isTag _ => .mk isTag.isName isTag.isName_keys nofun
  | _, _, .nested isTag _ content _ => .mk isTag.isName isTag.isName_keys content.wellNamed

theorem ContentText.wellNamed : ∀ {content : List Char} {children : List Element},
    ContentText content children → ∀ child ∈ children, child.WellNamed
  | _, _, .nothing _ => nofun
  | _, _, .ignored _ _ rest => rest.wellNamed
  | _, _, .element _ item rest =>
      List.forall_mem_cons.mpr (And.intro item.wellNamed rest.wellNamed)

end

theorem DocumentText.wellNamed {text : List Char} {root : Element} (h : DocumentText text root) :
    root.WellNamed := by
  cases h with
  | mk _ _ element _ => exact element.wellNamed

/-! ## The round trip -/

/-- A well named element is read back as it was. -/
theorem Element.read_eq_ok_of_wellNamed {element : Element} (h : element.WellNamed) :
    Element.read element.print = .ok element := by
  rw [Element.read_eq_ok_iff, readElement_eq_some_nil_iff, Element.print, String.toList_ofList]
  exact elementText_print h

theorem Document.read_eq_ok_of_wellNamed {document : Document} (h : document.root.WellNamed) :
    Document.read document.print = .ok document := by
  rw [Document.read_eq_ok_iff, readDocument_eq_some_iff, Document.print, String.toList_ofList]
  exact documentText_print h

theorem Element.wellNamed_of_read {text : String} {element : Element}
    (h : Element.read text = .ok element) : element.WellNamed :=
  (readElement_eq_some_nil_iff.mp (Element.read_eq_ok_iff.mp h)).wellNamed

theorem Document.wellNamed_of_read {text : String} {document : Document}
    (h : Document.read text = .ok document) : document.root.WellNamed :=
  (readDocument_eq_some_iff.mp (Document.read_eq_ok_iff.mp h)).wellNamed

/-- Reading undoes printing: every well named element is read back from its printed form, and so is
the document with that root. What is read from any text at all is well named, so it is what its own
printed form is read as. -/
theorem read_print_of_wellNamed :
    (∀ element : Element, element.WellNamed →
      Element.read element.print = .ok element ∧
        Document.read (Document.print ⟨element⟩) = .ok ⟨element⟩) ∧
      (∀ (text : String) (element : Element), Element.read text = .ok element →
        element.WellNamed ∧ Element.read element.print = .ok element) ∧
      ∀ (text : String) (document : Document), Document.read text = .ok document →
        document.root.WellNamed ∧ Document.read document.print = .ok document := by
  refine ⟨?_, ?_, ?_⟩
  · intro element wellNamed
    exact ⟨Element.read_eq_ok_of_wellNamed wellNamed, Document.read_eq_ok_of_wellNamed wellNamed⟩
  · intro text element read
    have wellNamed := Element.wellNamed_of_read read
    exact ⟨wellNamed, Element.read_eq_ok_of_wellNamed wellNamed⟩
  · intro text document read
    have wellNamed := Document.wellNamed_of_read read
    exact ⟨wellNamed, Document.read_eq_ok_of_wellNamed wellNamed⟩

/-- A nested element whose values look like markup and like references already. -/
def nestedSample : Element :=
  ⟨"a", .ofList [("k", "&amp;lt;\"'"), ("j", "<!-- -->")], [⟨"b", ∅, []⟩, ⟨"_:c", ∅, []⟩]⟩

theorem wellNamed_nestedSample : nestedSample.WellNamed := by
  refine .mk (isName_of_all (by decide) (by decide)) ?_ ?_
  · intro key inside
    rcases List.mem_cons.mp inside with rfl | inside
    · exact isName_of_all (by decide) (by decide)
    · obtain rfl := List.mem_singleton.mp inside
      exact isName_of_all (by decide) (by decide)
  · intro child inside
    rcases List.mem_cons.mp inside with rfl | inside
    · exact .mk (isName_of_all (by decide) (by decide)) nofun nofun
    · obtain rfl := List.mem_singleton.mp inside
      exact .mk (isName_of_all (by decide) (by decide)) nofun nofun

/-- A text whose value is read as an opening angle bracket, not as it is printed: it stands between
single quotes. -/
theorem elementText_quoted :
    ElementText "<a k='&lt;'/>".toList ⟨"a", .ofList [("k", "<")], []⟩ := by
  have value : unescape (String.ofList ['&', 'l', 't', ';']) = "<" := by
    rw [unescape, String.toList_ofList]
    exact congrArg String.ofList (Reference.decode_escape ['<'])
  have written : IsValue ['&', 'l', 't', ';'] ['\'', '&', 'l', 't', ';', '\''] :=
    ⟨'\'', Or.inr rfl, by simp, rfl⟩
  have isKey : IsName ['k'] := isName_of_all (by decide) (by decide)
  have isName : IsName ['a'] := isName_of_all (by decide) (by decide)
  have entry := AttributeText.mk isKey .nothing (endsName_cons (by decide)) .nothing written
  rw [value] at entry
  have ends : EndsName (" k='&lt;'".toList ++ ([] ++ tagMark true)) := endsName_cons (by decide)
  have tag := TagText.mk .nothing isName ends (.more trivia_space entry .none) .nothing
  exact .whole tag rfl

theorem read_print_nestedSample :
    (nestedSample.WellNamed ∧
      Element.read nestedSample.print = .ok nestedSample ∧
        Document.read (Document.print ⟨nestedSample⟩) = .ok ⟨nestedSample⟩) ∧
      (Element.read "<a k='&lt;'/>" = .ok ⟨"a", .ofList [("k", "<")], []⟩ ∧
        Element.read (Element.print ⟨"a", .ofList [("k", "<")], []⟩) =
          .ok ⟨"a", .ofList [("k", "<")], []⟩) ∧
      Document.read "<a k='&lt;'/>" = .ok ⟨⟨"a", .ofList [("k", "<")], []⟩⟩ ∧
        Document.read (Document.print ⟨⟨"a", .ofList [("k", "<")], []⟩⟩) =
          .ok ⟨⟨"a", .ofList [("k", "<")], []⟩⟩ := by
  have element := Element.read_eq_ok_iff.mpr (readElement_eq_some_nil_iff.mpr elementText_quoted)
  have document : Document.read "<a k='&lt;'/>" = .ok ⟨⟨"a", .ofList [("k", "<")], []⟩⟩ := by
    rw [Document.read_eq_ok_iff, readDocument_eq_some_iff]
    exact .mk (.none .nothing) .none elementText_quoted .nothing
  exact ⟨⟨wellNamed_nestedSample, read_print_of_wellNamed.1 _ wellNamed_nestedSample⟩,
    ⟨element, (read_print_of_wellNamed.2.1 _ _ element).2⟩,
    ⟨document, (read_print_of_wellNamed.2.2 _ _ document).2⟩⟩

end FormulaExport.Markup

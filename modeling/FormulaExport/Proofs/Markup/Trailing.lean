import FormulaExport.Proofs.Markup.Acceptance
import FormulaExport.Proofs.Text.Place

/-!
# Text behind an element

Where an element ends does not depend on what stands behind it, so no text of an element begins
another one (`ElementText.front_unique`). If an element that begins a text ends before the text
does, the reader says so, and names the place **behind the element**; there is no other reason for
this error (`read_eq_trailing_iff_outruns`). A document never gives it.
-/

set_option autoImplicit false

namespace FormulaExport.Markup

open FormulaExport.Text

/-- A text **outruns** another one: the other is an element, and a proper prefix of the text. -/
structure Outruns (text front : String) : Prop where
  isPrefix : front.toList <+: text.toList
  proper : front ≠ text
  isElement : ∃ element, Element.read front = .ok element

/-! ## No element begins another one -/

/-- Two elements that begin one text end together. -/
theorem ElementText.front_unique {front front' rest rest' : List Char} {element element' : Element}
    (h : ElementText front element) (h' : ElementText front' element')
    (same : front ++ rest = front' ++ rest') : front = front' := by
  have left : readElement (front ++ rest) = some (element, rest) := readElement_append h rest
  have right : readElement (front ++ rest) = some (element', rest') :=
    same ▸ readElement_append h' rest'
  obtain ⟨-, rfl⟩ := Prod.mk.inj (Option.some.inj (left.symm.trans right))
  exact List.append_cancel_right same

theorem Element.read_eq_ok_iff_elementText {text : String} {element : Element} :
    Element.read text = .ok element ↔ ElementText text.toList element :=
  Element.read_eq_ok_iff.trans readElement_eq_some_nil_iff

theorem read_append_ne_ok {front more : String} {element : Element}
    (h : Element.read front = .ok element) (nonempty : more ≠ "") (other : Element) :
    Element.read (front ++ more) ≠ .ok other := by
  intro whole
  have isElement := Element.read_eq_ok_iff_elementText.mp h
  have isWhole := Element.read_eq_ok_iff_elementText.mp whole
  rw [String.toList_append] at isWhole
  have same : front.toList = front.toList ++ more.toList :=
    isElement.front_unique isWhole (List.append_nil _).symm
  exact nonempty (String.toList_eq_nil_iff.mp (List.self_eq_append_right.mp same))

theorem Outruns.unique {text front front' : String} (h : Outruns text front)
    (h' : Outruns text front') : front' = front := by
  obtain ⟨rest, split⟩ := h.isPrefix
  obtain ⟨rest', split'⟩ := h'.isPrefix
  obtain ⟨element, read⟩ := h.isElement
  obtain ⟨element', read'⟩ := h'.isElement
  exact String.toList_inj.mp <| (Element.read_eq_ok_iff_elementText.mp read').front_unique
    (Element.read_eq_ok_iff_elementText.mp read) (split'.trans split.symm)

/-! ## The error -/

/-- A text outruns an element exactly if something is left behind it. -/
theorem outruns_iff {text front : String} :
    Outruns text front ↔
      ∃ element rest, readElement text.toList = some (element, rest) ∧ rest ≠ [] ∧
        front.toList ++ rest = text.toList := by
  constructor
  · rintro ⟨⟨rest, split⟩, proper, element, read⟩
    have isElement := Element.read_eq_ok_iff_elementText.mp read
    refine ⟨element, rest, readElement_eq_some_iff.mpr ⟨_, isElement, split.symm⟩, ?_, split⟩
    rintro rfl
    exact proper (String.toList_inj.mp ((List.append_nil _).symm.trans split))
  · rintro ⟨element, rest, read, nonempty, split⟩
    refine ⟨⟨rest, split⟩, ?_, element, ?_⟩
    · rintro rfl
      exact nonempty (List.append_right_eq_self.mp split)
    · obtain ⟨front', isElement, split'⟩ := readElement_eq_some_iff.mp read
      rw [Element.read_eq_ok_iff_elementText,
        List.append_cancel_right (split.trans split')]
      exact isElement

theorem Element.read_eq_trailing_iff {text : String} {place : Place} :
    Element.read text = .error (.trailing place) ↔
      ∃ front, Outruns text front ∧ place = Place.behind front.toList := by
  rw [Element.read, readWhole_eq_trailing_iff]
  constructor
  · rintro ⟨element, rest, read, nonempty, rfl⟩
    obtain ⟨front, -, split⟩ := readElement_eq_some_iff.mp read
    refine ⟨String.ofList front, outruns_iff.mpr ⟨element, rest, read, nonempty, ?_⟩, ?_⟩
    · rw [String.toList_ofList, split]
    · simp [split]
  · rintro ⟨front, outruns, rfl⟩
    obtain ⟨element, rest, read, nonempty, split⟩ := outruns_iff.mp outruns
    refine ⟨element, rest, read, nonempty, ?_⟩
    simp [← split]

theorem Document.read_ne_trailing (text : String) (place : Place) :
    Document.read text ≠ .error (.trailing place) := by
  intro h
  obtain ⟨document, rest, read, nonempty, -⟩ := readWhole_eq_trailing_iff.mp h
  exact nonempty (rest_of_readDocument read)

/-- Text behind an element is found at the exact place. The reader of elements gives this error
exactly if the text outruns an element, and names the line and the column behind that element; the
element is the only one that the text outruns, and no longer text that it begins is an element. The
reader of documents never gives it. -/
theorem read_eq_trailing_iff_outruns (text : String) :
    (∀ place, Element.read text = .error (.trailing place) ↔
      ∃ front, Outruns text front ∧
        place = ⟨front.toList.count '\n' + 1, (Place.lastLine front.toList).length + 1⟩) ∧
      (∀ front, Outruns text front →
        (∀ front', Outruns text front' → front' = front) ∧
          ∀ more element, more ≠ "" → Element.read (front ++ more) ≠ .ok element) ∧
      ∀ place, Document.read text ≠ .error (.trailing place) := by
  refine ⟨?_, ?_, Document.read_ne_trailing text⟩
  · intro place
    simp only [Element.read_eq_trailing_iff, Place.behind_eq]
  · intro front outruns
    obtain ⟨element, read⟩ := outruns.isElement
    exact ⟨fun front' => outruns.unique, fun more other nonempty =>
      read_append_ne_ok read nonempty other⟩

theorem elementText_folded : ElementText "<a\n/>".toList ⟨"a", ∅, []⟩ := by
  have isName : IsName ['a'] := isName_of_all (by decide) (by decide)
  have gap : Trivia ['\n'] := .blank (by decide) .nothing
  have ends : EndsName ([] ++ (['\n'] ++ tagMark true)) := endsName_cons (by decide)
  exact .whole (.mk .nothing isName ends .none gap) rfl

theorem read_eq_trailing_folded :
    Outruns "<a\n/>x" "<a\n/>" ∧
      Element.read "<a\n/>x" = .error (.trailing ⟨2, 3⟩) ∧
        Element.read ("<a\n/>" ++ "x") ≠ .ok ⟨"a", ∅, []⟩ := by
  have read : Element.read "<a\n/>" = .ok ⟨"a", ∅, []⟩ :=
    Element.read_eq_ok_iff_elementText.mpr elementText_folded
  have outruns : Outruns "<a\n/>x" "<a\n/>" := ⟨⟨['x'], rfl⟩, by decide, _, read⟩
  have theorems := read_eq_trailing_iff_outruns "<a\n/>x"
  exact ⟨outruns, (theorems.1 ⟨2, 3⟩).mpr ⟨"<a\n/>", outruns, by decide⟩,
    (theorems.2.1 _ outruns).2 "x" _ (by decide)⟩

end FormulaExport.Markup

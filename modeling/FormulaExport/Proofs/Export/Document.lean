import FormulaExport.Proofs.Extraction
import FormulaExport.Proofs.Markup.DocumentOrder
import FormulaExport.Proofs.Markup.RoundTrip

/-!
# The document of an export

An export is written as a document with an `alloy` root, an `instance` below it, and below that
any number of `field` elements. Each of them holds some of the tuples of one field. The document is
read back as it was written, and the relations of its instance have, for every field, the tuples of
all elements of that field one after the other.
-/

set_option autoImplicit false

namespace FormulaExport

open FormulaExport.Markup

namespace Export

def labelledElement (name label : String) (children : List Element) : Element :=
  ⟨name, (∅ : OrderedMap String String).insert "label" label, children⟩

def plainElement (name : String) (children : List Element) : Element :=
  ⟨name, ∅, children⟩

def atomElement (label : String) : Element :=
  labelledElement "atom" label []

def tupleElement (tuple : Tuple) : Element :=
  plainElement "tuple" (tuple.map atomElement)

/-- An element with some of the tuples of a field. -/
def fieldElement (group : Field × List Tuple) : Element :=
  labelledElement "field" group.1.label (group.2.map tupleElement)

/-- The document with a `field` element for every group of tuples. -/
def document (groups : List (Field × List Tuple)) : Document :=
  ⟨plainElement "alloy" [plainElement "instance" (groups.map fieldElement)]⟩

/-- The tuples of all groups of a field, one group after the other. -/
def tuplesIn (groups : List (Field × List Tuple)) (field : Field) : List Tuple :=
  (groups.filter fun group => group.1 = field).flatMap Prod.snd

/-! ## Names -/

theorem wellNamed_plainElement {name : String} {children : List Element}
    (isName : IsName name.toList) (h : ∀ child ∈ children, child.WellNamed) :
    (plainElement name children).WellNamed :=
  .mk isName nofun h

theorem wellNamed_labelledElement {name label : String} {children : List Element}
    (isName : IsName name.toList) (h : ∀ child ∈ children, child.WellNamed) :
    (labelledElement name label children).WellNamed := by
  refine .mk isName ?_ h
  intro key inside
  obtain rfl : key = "label" := List.mem_singleton.mp inside
  exact isName_of_all (by decide) (by decide)

theorem wellNamed_fieldElement (group : Field × List Tuple) : (fieldElement group).WellNamed := by
  have atoms : ∀ label, (atomElement label).WellNamed := by
    intro label
    refine wellNamed_labelledElement (isName_of_all (by decide) (by decide)) ?_
    intro child inside
    cases inside
  have tuples : ∀ tuple, (tupleElement tuple).WellNamed := by
    intro tuple
    refine wellNamed_plainElement (isName_of_all (by decide) (by decide)) ?_
    exact List.forall_mem_map.mpr fun label _ => atoms label
  refine wellNamed_labelledElement (isName_of_all (by decide) (by decide)) ?_
  exact List.forall_mem_map.mpr fun tuple _ => tuples tuple

/-- The document of an export is read back as it was written. -/
theorem read_print_document (groups : List (Field × List Tuple)) :
    Document.read (document groups).print = .ok (document groups) := by
  apply Document.read_eq_ok_of_wellNamed
  refine wellNamed_plainElement (isName_of_all (by decide) (by decide)) ?_
  refine List.forall_mem_singleton.mpr (wellNamed_plainElement ?_ ?_)
  · exact isName_of_all (by decide) (by decide)
  · exact List.forall_mem_map.mpr fun group _ => wellNamed_fieldElement group

/-! ## Tuples -/

theorem label?_labelledElement (name label : String) (children : List Element) :
    (labelledElement name label children).label? = some label :=
  (OrderedMap.get?_insert ..).trans (if_pos rfl)

theorem hasLabel_fieldElement (group : Field × List Tuple) (field : Field) :
    (fieldElement group).hasLabel field.label = decide (group.1 = field) := by
  rw [Element.hasLabel, fieldElement, label?_labelledElement]
  by_cases same : group.1 = field
  · simp [same]
  · have differ : group.1.label ≠ field.label := fun h => same (Field.label_injective h)
    simp [same, differ]

theorem atomLabels_tupleElement (tuple : Tuple) :
    Instance.atomLabels (tupleElement tuple) = tuple := by
  have all : (tupleElement tuple).childrenNamed "atom" = tuple.map atomElement :=
    List.filter_eq_self.mpr (List.forall_mem_map.mpr fun _ _ => rfl)
  rw [Instance.atomLabels, all, List.filterMap_map]
  exact (List.filterMap_congr fun label _ => label?_labelledElement "atom" label []).trans
    List.filterMap_some

theorem tuplesOf_fieldElement (group : Field × List Tuple) :
    Instance.tuplesOf (fieldElement group) = group.2 := by
  have all : (fieldElement group).childrenNamed "tuple" = group.2.map tupleElement :=
    List.filter_eq_self.mpr (List.forall_mem_map.mpr fun _ _ => rfl)
  rw [Instance.tuplesOf, all, List.map_map]
  exact (List.map_congr_left fun tuple _ => atomLabels_tupleElement tuple).trans (List.map_id _)

theorem descendantsNamed_fieldElement (group : Field × List Tuple) :
    (fieldElement group).descendantsNamed "field" = [] := by
  rw [Element.descendantsNamed, List.filter_eq_nil_iff]
  intro below inside
  rw [Element.descendants, Element.inOrder_eq_flatMap] at inside
  obtain ⟨_, child, inside⟩ := List.mem_flatMap.mp inside
  obtain ⟨tuple, -, rfl⟩ := List.mem_map.mp child
  rcases List.mem_cons.mp inside with rfl | inside
  · exact Bool.false_ne_true
  · rw [Element.descendants, Element.inOrder_eq_flatMap] at inside
    obtain ⟨_, child, inside⟩ := List.mem_flatMap.mp inside
    obtain ⟨label, -, rfl⟩ := List.mem_map.mp child
    have nothing : (atomElement label).descendants = [] := Element.inOrder_nil
    rw [nothing, List.mem_singleton] at inside
    exact inside ▸ Bool.false_ne_true

theorem filter_inOrder_fieldElement (groups : List (Field × List Tuple)) :
    (Element.inOrder (groups.map fieldElement)).filter (fun below => below.name == "field") =
      groups.map fieldElement := by
  induction groups with
  | nil => rw [List.map_nil, Element.inOrder_nil, List.filter_nil]
  | cons group groups ih =>
      have nothing := descendantsNamed_fieldElement group
      rw [Element.descendantsNamed] at nothing
      rw [List.map_cons, Element.inOrder_cons, List.filter_cons_of_pos (by rfl),
        List.filter_append, ih, nothing, List.nil_append]

theorem descendantsNamed_document (groups : List (Field × List Tuple)) :
    (document groups).root.descendantsNamed "field" = groups.map fieldElement := by
  have below : (document groups).root.descendants =
      plainElement "instance" (groups.map fieldElement) ::
        Element.inOrder (groups.map fieldElement) := by
    rw [Element.descendants]
    refine (Element.inOrder_cons _ _).trans ?_
    rw [Element.inOrder_nil, List.append_nil]
    rfl
  have other : ¬ (plainElement "instance" (groups.map fieldElement)).name = "field" :=
    (by decide : "instance" ≠ "field")
  rw [Element.descendantsNamed, below, List.filter_cons_of_neg (by rwa [beq_iff_eq])]
  exact filter_inOrder_fieldElement groups

/-- The relations of the document have for every field the tuples of all its groups. -/
theorem tuples_document (groups : List (Field × List Tuple)) (field : Field) :
    (Instance.ofDocument (document groups)).value.relations.tuples field.label =
      tuplesIn groups field := by
  have chosen : (fun element => Element.hasLabel element field.label) ∘ fieldElement =
      fun group => decide (group.1 = field) :=
    funext fun group => hasLabel_fieldElement group field
  rw [Instance.tuples_ofDocument, descendantsNamed_document, List.filter_map, chosen,
    List.flatMap_map, tuplesIn]
  exact List.flatMap_congr fun group _ => tuplesOf_fieldElement group

end Export

end FormulaExport

import FormulaExport.Instance
import FormulaExport.Proofs.FirstOccurrence
import FormulaExport.Proofs.Markup.DocumentOrder

/-!
# Extraction

What `Instance.addFields` collects under a label: the tuples of all `field` elements with that
label, one element after the other. The labels themselves come in by first occurrence, also those
of elements without tuples. So the instance of a document holds, in document order, everything that
the elements below its root say about formulas (`Instance.ofDocument_collects`).
-/

set_option autoImplicit false

namespace FormulaExport

open FormulaExport.Markup

namespace Instance

theorem tuples_addFields (relations : Relations) (elements : List Element) (label : String) :
    (addFields relations elements).value.tuples label =
      relations.tuples label ++
        (elements.filter fun element => element.hasLabel label).flatMap tuplesOf := by
  induction elements generalizing relations with
  | nil => simp [addFields]
  | cons element elements ih =>
      rw [addFields]
      cases found : element.label? with
      | none =>
          have other : element.hasLabel label = false := by simp [Element.hasLabel, found]
          rw [List.filter_cons_of_neg (by simp [other])]
          exact ih relations
      | some own =>
          rw [ih, Relations.tuples_extend]
          by_cases same : own = label
          · have own' : element.hasLabel label = true := by simp [Element.hasLabel, found, same]
            rw [if_pos same, List.filter_cons_of_pos (by exact own'), List.flatMap_cons, same,
              List.append_assoc]
          · have other : element.hasLabel label = false := by
              simp [Element.hasLabel, found, same]
            rw [if_neg same, List.filter_cons_of_neg (by simp [other])]

theorem tuples_ofDocument (document : Document) (label : String) :
    (ofDocument document).value.relations.tuples label =
      ((document.root.descendantsNamed "field").filter
        fun element => element.hasLabel label).flatMap tuplesOf := by
  rw [ofDocument, Traced.value_bind, Traced.value_pure]
  exact tuples_addFields ∅ (document.root.descendantsNamed "field") label

/-! ## Labels -/

/-- The labels of the elements come in by first occurrence. -/
theorem fieldNames_addFields {relations : Relations} {seen : List String}
    (h : ByFirstOccurrence relations.fieldNames seen) (elements : List Element) :
    ByFirstOccurrence (addFields relations elements).value.fieldNames
      (seen ++ elements.filterMap Element.label?) := by
  induction elements generalizing relations seen with
  | nil => simpa [addFields] using h
  | cons element elements ih =>
      rw [addFields]
      cases found : element.label? with
      | none =>
          rw [List.filterMap_cons_none found]
          exact ih h
      | some label =>
          have added := h.add label
          rw [← Relations.fieldNames_extend relations label (tuplesOf element)] at added
          rw [List.filterMap_cons_some found, List.append_cons]
          exact ih added

/-! ## Everything below the root -/

/-- An instance collects what elements say about formulas. A field has the tuples of all `field`
elements with its label, one element after the other: one tuple for each `tuple` child, and in it
the labels of the `atom` children that have one. Atoms are the labels of the `atom` children of the
`sig` elements labelled `this/Atom`. Fields and atoms stand by first occurrence. -/
structure Collects (found : Instance) (elements : List Element) : Prop where
  tuples : ∀ label, found.relations.tuples label =
    (elements.filter fun element =>
      element.name = "field" ∧ element.attributes.get? "label" = some label).flatMap fun field =>
        (field.children.filter fun child => child.name = "tuple").map fun tuple =>
          (tuple.children.filter fun child => child.name = "atom").filterMap fun atom =>
            atom.attributes.get? "label"
  occurs : ∀ label, label ∈ found.relations.fieldNames ↔ ∃ element ∈ elements,
    element.name = "field" ∧ element.attributes.get? "label" = some label
  fields : ByFirstOccurrence found.relations.fieldNames
    ((elements.filter fun element => element.name = "field").filterMap fun field =>
      field.attributes.get? "label")
  atoms : ByFirstOccurrence found.atoms
    ((elements.filter fun element =>
      element.name = "sig" ∧ element.attributes.get? "label" = some "this/Atom").flatMap fun sig =>
        (sig.children.filter fun child => child.name = "atom").filterMap fun atom =>
          atom.attributes.get? "label")
  distinct : found.relations.fieldNames.Nodup ∧ found.atoms.Nodup

theorem filter_descendantsNamed (root : Element) (name label : String) :
    (root.descendantsNamed name).filter (fun element => element.hasLabel label) =
      root.descendants.filter fun element => element.name = name ∧ element.label? = some label := by
  rw [Element.descendantsNamed, List.filter_filter]
  refine List.filter_congr ?_
  intro element _
  rw [Element.hasLabel, beq_eq_decide, beq_eq_decide, Bool.decide_and, Bool.and_comm]

/-- The instance of a document collects what all elements below its root say, and these are gone
through in document order. -/
theorem ofDocument_collects (document : Document) :
    document.root.InDocumentOrder document.root.descendants ∧
      (ofDocument document).value.Collects document.root.descendants := by
  have named : document.root.descendantsNamed "field" =
      document.root.descendants.filter fun element => element.name = "field" :=
    List.filter_congr fun element _ => beq_eq_decide ..
  have fields : ByFirstOccurrence (ofDocument document).value.relations.fieldNames
      ((document.root.descendants.filter fun element => element.name = "field").filterMap
        Element.label?) := by
    have nothing : ByFirstOccurrence (∅ : Relations).fieldNames [] := byFirstOccurrence_nil
    rw [← named]
    exact fieldNames_addFields nothing (document.root.descendantsNamed "field")
  have atoms : ByFirstOccurrence (ofDocument document).value.atoms _ :=
    byFirstOccurrence_eraseDups _
  rw [filter_descendantsNamed] at atoms
  -- the questions that are asked of an element come down to its name, attributes and children
  refine ⟨document.root.inDocumentOrder_descendants, ?_, ?_, fields, atoms,
    fields.nodup, atoms.nodup⟩
  · intro label
    rw [tuples_ofDocument, filter_descendantsNamed]
    rfl
  · intro label
    rw [fields.1, List.mem_filterMap]
    constructor
    · rintro ⟨element, inside, found⟩
      obtain ⟨below, isField⟩ := List.mem_filter.mp inside
      exact ⟨element, below, of_decide_eq_true isField, found⟩
    · rintro ⟨element, below, isField, found⟩
      exact ⟨element, List.mem_filter.mpr ⟨below, decide_eq_true isField⟩, found⟩

end Instance

end FormulaExport

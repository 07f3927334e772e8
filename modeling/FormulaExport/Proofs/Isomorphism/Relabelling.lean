import Mathlib.Data.List.Forall2
import FormulaExport.Relations
import FormulaExport.Field
import FormulaExport.Formula.Kind
import FormulaExport.Proofs.Canonical.Exchange

/-!
# Relabelling an export

A relabelling gives the labels of an export new names. What may happen to a label depends on the
column it stands in: the nodes get other labels of the same kind, identifiers get other identifiers,
numbered relations other numbers, and everything else stays (`Relabelling.Relates`). Different nodes
and different identifiers have to stay different (`Relabelling.Proper`).
-/

set_option autoImplicit false

namespace FormulaExport

/-! ## Columns -/

/-- What the labels in a **column** of a field are. -/
inductive Column where
  | node
  | relation
  | var
  | position
  | unused
deriving DecidableEq

def Field.target : Field → Column
  | .relation => .relation
  | .vars => .var
  | .boundVar => .var
  | .body => .node
  | .child => .node
  | .left => .node
  | .right => .node
  | .root => .node

def Field.columns (field : Field) : List Column :=
  match field with
  | .vars => [.node, .position, field.target]
  | .root => [.unused, field.target]
  | _ => [.node, field.target]

namespace Relations

/-- The labels in the columns of one kind, one for each occurrence. -/
def labelsIn (relations : Relations) (column : Column) : List String :=
  [Field.relation, .vars, .boundVar, .body, .child, .left, .right, .root].flatMap fun field =>
    (relations.tuples field.label).flatMap fun tuple =>
      ((field.columns.zip tuple).filter fun place => place.1 = column).map Prod.snd

/-- The labels of nodes that are no leaves. -/
def innerNodes (relations : Relations) : List String :=
  (relations.labelsIn .node).filter fun label => Kind.of label ≠ .leaf

/-- The labels that occur as relation name, variable or leaf. -/
def names (relations : Relations) : List String :=
  relations.labelsIn .relation ++ (relations.labelsIn .var ++
    (relations.labelsIn .node).filter fun label => Kind.of label = .leaf)

variable {relations : Relations} {label : String}

theorem mem_labelsIn {field : Field} {column : Column} {tuple : Tuple}
    (h : tuple ∈ relations.tuples field.label)
    (place : (column, label) ∈ field.columns.zip tuple) : label ∈ relations.labelsIn column := by
  refine List.mem_flatMap.mpr ⟨field, by cases field <;> decide, ?_⟩
  refine List.mem_flatMap.mpr ⟨tuple, h, List.mem_map.mpr ⟨(column, label), ?_, rfl⟩⟩
  exact List.mem_filter.mpr ⟨place, decide_eq_true rfl⟩

theorem mem_innerNodes_iff :
    label ∈ relations.innerNodes ↔ label ∈ relations.labelsIn .node ∧ Kind.of label ≠ .leaf := by
  rw [innerNodes, List.mem_filter, decide_eq_true_iff]

theorem mem_names_iff :
    label ∈ relations.names ↔ label ∈ relations.labelsIn .relation ∨
      label ∈ relations.labelsIn .var ∨ label ∈ relations.labelsIn .node ∧ Kind.of label = .leaf := by
  rw [names, List.mem_append, List.mem_append, List.mem_filter, decide_eq_true_iff]

end Relations

/-! ## Relabellings -/

/-- A **relabelling**: new labels for nodes and new identifiers for identifiers. -/
structure Relabelling where
  node : String → String
  identifier : String → String

namespace Relabelling

/-- The label in the place of a variable or a leaf. -/
def ofName (relabelling : Relabelling) (label : String) : String :=
  exchanged relabelling.identifier label

/-- The label in the place of a node. -/
def ofNode (relabelling : Relabelling) (label : String) : String :=
  if Kind.of label = .leaf then relabelling.ofName label else relabelling.node label

/-- What a label may become in a column. -/
def OfColumn (relabelling : Relabelling) : Column → String → String → Prop
  | .node, label, label' => label' = relabelling.ofNode label
  | .relation, label, label' =>
    IsNumberedRelation label.toList ∧ IsNumberedRelation label'.toList ∨
      label' = relabelling.ofName label
  | .var, label, label' => label' = relabelling.ofName label
  | .position, label, label' => label' = label
  | .unused, _, _ => True

/-- What a tuple may become. Labels beyond the columns of its field stay. -/
inductive OfTuple (relabelling : Relabelling) : List Column → Tuple → Tuple → Prop where
  | beyond (tuple : Tuple) : OfTuple relabelling [] tuple tuple
  | short (columns : List Column) : OfTuple relabelling columns [] []
  | column {column : Column} {columns : List Column} {label label' : String}
      {tuple tuple' : Tuple} : relabelling.OfColumn column label label' →
      OfTuple relabelling columns tuple tuple' →
      OfTuple relabelling (column :: columns) (label :: tuple) (label' :: tuple')

theorem OfTuple.eq_nil {relabelling : Relabelling} {columns : List Column} {tuple' : Tuple}
    (h : relabelling.OfTuple columns [] tuple') : tuple' = [] := by
  cases h <;> rfl

theorem OfTuple.exists_cons {relabelling : Relabelling} {column : Column} {columns : List Column}
    {label : String} {tuple tuple' : Tuple}
    (h : relabelling.OfTuple (column :: columns) (label :: tuple) tuple') :
    ∃ label' rest, tuple' = label' :: rest ∧ relabelling.OfColumn column label label' ∧
      relabelling.OfTuple columns tuple rest := by
  cases h with
  | column atLabel rest => exact ⟨_, _, rfl, atLabel, rest⟩

/-- The same tuples in the same order, relabelled. -/
def Relates (relabelling : Relabelling) (relations relations' : Relations) : Prop :=
  ∀ field : Field, List.Forall₂ (relabelling.OfTuple field.columns)
    (relations.tuples field.label) (relations'.tuples field.label)

/-- A relabelling is **proper** for some relations if it keeps the kinds of nodes, takes identifiers
to identifiers and different labels to different labels, and if no name that occurs has an
identifier in it without being one. -/
structure Proper (relabelling : Relabelling) (relations : Relations) : Prop where
  kind : ∀ label ∈ relations.innerNodes, Kind.of (relabelling.node label) = Kind.of label
  nodes : Set.InjOn relabelling.node {label | label ∈ relations.innerNodes}
  isIdentifier : ∀ label ∈ relations.names, IsIdentifier label.toList →
    IsIdentifier (relabelling.identifier label).toList
  identifiers : Set.InjOn relabelling.identifier
    {label | label ∈ relations.names ∧ IsIdentifier label.toList}
  whole : ∀ label ∈ relations.names, IsWhole label

end Relabelling

theorem kind_of_isIdentifier {label : String} (h : IsIdentifier label.toList) :
    Kind.of label = .leaf := by
  obtain ⟨major, minor, -, -, text⟩ := h
  rw [Kind.of, text]
  rfl

namespace Relabelling.Proper

variable {relabelling : Relabelling} {relations : Relations} {label label' : String}

theorem ofName_of_isIdentifier (isIdentifier : IsIdentifier label.toList) :
    relabelling.ofName label = relabelling.identifier label :=
  if_pos isIdentifier

theorem ofName_of_not (h : ¬ IsIdentifier label.toList) : relabelling.ofName label = label :=
  if_neg h

theorem kind_ofNode (proper : relabelling.Proper relations)
    (occurs : label ∈ relations.labelsIn .node) :
    Kind.of (relabelling.ofNode label) = Kind.of label := by
  unfold ofNode
  split
  · next leaf =>
    have among : label ∈ relations.names :=
      Relations.mem_names_iff.mpr (Or.inr (Or.inr ⟨occurs, leaf⟩))
    by_cases isIdentifier : IsIdentifier label.toList
    · rw [ofName_of_isIdentifier isIdentifier,
        kind_of_isIdentifier (proper.isIdentifier label among isIdentifier), leaf]
    · rw [ofName_of_not isIdentifier]
  · next inner => exact proper.kind label (Relations.mem_innerNodes_iff.mpr ⟨occurs, inner⟩)

/-- A node that is no leaf is told apart from all others. -/
theorem ofNode_eq_iff (proper : relabelling.Proper relations)
    (occurs : label ∈ relations.labelsIn .node) (inner' : label' ∈ relations.innerNodes) :
    relabelling.ofNode label = relabelling.ofNode label' ↔ label = label' := by
  obtain ⟨occurs', notLeaf'⟩ := Relations.mem_innerNodes_iff.mp inner'
  constructor
  · intro same
    have notLeaf : Kind.of label ≠ .leaf := by
      rw [← proper.kind_ofNode occurs, same, proper.kind_ofNode occurs']
      exact notLeaf'
    rw [ofNode, ofNode, if_neg notLeaf, if_neg notLeaf'] at same
    exact proper.nodes (Relations.mem_innerNodes_iff.mpr ⟨occurs, notLeaf⟩) inner' same
  · rintro rfl
    rfl

theorem ofName_eq_placeholderMark_iff (proper : relabelling.Proper relations)
    (among : label ∈ relations.names) :
    relabelling.ofName label = placeholderMark ↔ label = placeholderMark := by
  have noIdentifier : ¬ IsIdentifier placeholderMark.toList := by decide
  by_cases isIdentifier : IsIdentifier label.toList
  · have isIdentifier' := proper.isIdentifier label among isIdentifier
    rw [ofName_of_isIdentifier isIdentifier]
    constructor
    · intro same
      exact absurd (same ▸ isIdentifier') noIdentifier
    · intro same
      exact absurd (same ▸ isIdentifier) noIdentifier
  · rw [ofName_of_not isIdentifier]

end Relabelling.Proper

end FormulaExport

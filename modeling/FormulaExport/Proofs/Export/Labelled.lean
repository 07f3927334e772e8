import Mathlib.Data.List.Nodup
import FormulaExport.Index
import FormulaExport.Formula.Kind

/-!
# Labelled formulas

An export gives every node of a formula a label. Of a leaf, the label is all there is to it; the
labels of all other nodes are free, as long as each says of what kind its node is
(`LabelledFormula.Fits`) and no two nodes share one. The tuples of an export say of every node what
is in it and which nodes are directly below it.
-/

set_option autoImplicit false

namespace FormulaExport

/-- A formula with a **label for every node**. -/
inductive LabelledFormula where
  | atom (label relation : String) (arguments : Arguments)
  | negation (label : String) (inner : LabelledFormula)
  | binary (label : String) (connective : Connective) (left right : LabelledFormula)
  | quantified (label : String) (quantifier : Quantifier) (bound : String)
      (body : LabelledFormula)
  | leaf (label : String)

/-- The label by which an export names a position. -/
def Position.index : Position → String
  | .first => "0"
  | .second => "1"

theorem Position.ofLabel?_index (position : Position) :
    Position.ofLabel? position.index = some position := by
  cases position <;> decide

namespace LabelledFormula

def label : LabelledFormula → String
  | atom label _ _ => label
  | negation label _ => label
  | binary label _ _ _ => label
  | quantified label _ _ _ => label
  | leaf label => label

/-- The formula, without the labels of its nodes. -/
def formula : LabelledFormula → Formula
  | atom _ relation arguments => .atom relation arguments
  | negation _ inner => .negation inner.formula
  | binary _ connective left right => .binary connective left.formula right.formula
  | quantified _ quantifier bound body => .quantified quantifier bound body.formula
  | leaf label => .leaf label

/-- The nodes, each with everything below it. -/
def nodes : LabelledFormula → List LabelledFormula
  | atom label relation arguments => [atom label relation arguments]
  | negation label inner => negation label inner :: inner.nodes
  | binary label connective left right =>
    binary label connective left right :: (left.nodes ++ right.nodes)
  | quantified label quantifier bound body => quantified label quantifier bound body :: body.nodes
  | leaf label => [leaf label]

/-- The labels that were chosen: those of all nodes but the leaves. -/
def labels : LabelledFormula → List String
  | atom label _ _ => [label]
  | negation label inner => label :: inner.labels
  | binary label _ left right => label :: (left.labels ++ right.labels)
  | quantified label _ _ body => label :: body.labels
  | leaf _ => []

def kind : LabelledFormula → Kind
  | atom _ _ _ => .atom
  | negation _ _ => .negation
  | binary _ connective _ _ => .connective connective
  | quantified _ quantifier _ _ => .quantifier quantifier
  | leaf _ => .leaf

/-- A node fits its label if the label says of what kind it is, and no variable in it looks like a
placeholder. -/
def FitsLabel (node : LabelledFormula) : Prop :=
  Kind.of node.label = node.kind ∧
    match node with
    | atom _ _ arguments => ∀ position, arguments.get position ≠ .var placeholderMark
    | _ => True

/-- Every node fits its label. -/
def Fits (labelled : LabelledFormula) : Prop := ∀ node ∈ labelled.nodes, node.FitsLabel

/-! ## The tuples of an export -/

/-- The tuple for the argument of an atom at a position. A placeholder has none. -/
def argumentTuples (atom : String) (arguments : Arguments) (position : Position) : List Tuple :=
  match arguments.get position with
  | .var name => [[atom, position.index, name]]
  | .placeholder => []

/-- The tuples that the outermost node contributes to a field. -/
def ownTuples : LabelledFormula → Field → List Tuple
  | atom label relation _, .relation => [[label, relation]]
  | atom label _ arguments, .vars =>
    argumentTuples label arguments .first ++ argumentTuples label arguments .second
  | negation label inner, .child => [[label, inner.label]]
  | binary label _ left _, .left => [[label, left.label]]
  | binary label _ _ right, .right => [[label, right.label]]
  | quantified label _ bound _, .boundVar => [[label, bound]]
  | quantified label _ _ body, .body => [[label, body.label]]
  | _, _ => []

/-- The tuples of a field in the export of a formula. The root stands in one tuple behind a label
that does not matter. -/
def tuples (labelled : LabelledFormula) (first : String) : Field → List Tuple
  | .root => [[first, labelled.label]]
  | field => labelled.nodes.flatMap fun node => node.ownTuples field

/-! ## Nodes and labels -/

theorem self_mem_nodes (labelled : LabelledFormula) : labelled ∈ labelled.nodes := by
  cases labelled <;> exact List.mem_cons_self

theorem mem_nodes_trans {labelled node below : LabelledFormula} (h : node ∈ labelled.nodes)
    (h' : below ∈ node.nodes) : below ∈ labelled.nodes := by
  induction labelled with
  | atom label relation arguments =>
      rw [nodes, List.mem_singleton] at h
      exact h ▸ h'
  | negation label inner ih =>
      rcases List.mem_cons.mp h with rfl | inside
      · exact h'
      · exact List.mem_cons_of_mem _ (ih inside)
  | binary label connective left right ih ih' =>
      rcases List.mem_cons.mp h with rfl | inside
      · exact h'
      · refine List.mem_cons_of_mem _ (List.mem_append.mpr ?_)
        rcases List.mem_append.mp inside with onLeft | onRight
        · exact Or.inl (ih onLeft)
        · exact Or.inr (ih' onRight)
  | quantified label quantifier bound body ih =>
      rcases List.mem_cons.mp h with rfl | inside
      · exact h'
      · exact List.mem_cons_of_mem _ (ih inside)
  | leaf label =>
      rw [nodes, List.mem_singleton] at h
      exact h ▸ h'

theorem labels_eq (labelled : LabelledFormula) :
    labelled.labels =
      (labelled.nodes.filter fun node => decide (node.kind ≠ .leaf)).map label := by
  induction labelled with
  | atom label relation arguments => rfl
  | negation label inner ih => rw [labels, ih]; rfl
  | binary label connective left right ih ih' =>
      rw [labels, ih, ih', nodes, List.filter_cons_of_pos (by rfl), List.filter_append,
        List.map_cons, List.map_append]
      rfl
  | quantified label quantifier bound body ih => rw [labels, ih]; rfl
  | leaf label => rfl

theorem eq_of_label_eq {labelled node other : LabelledFormula} (distinct : labelled.labels.Nodup)
    (h : node ∈ labelled.nodes) (h' : other ∈ labelled.nodes) (inner : node.kind ≠ .leaf)
    (inner' : other.kind ≠ .leaf) (same : node.label = other.label) : node = other := by
  rw [labels_eq] at distinct
  refine List.inj_on_of_nodup_map distinct ?_ ?_ same
  · exact List.mem_filter.mpr ⟨h, decide_eq_true inner⟩
  · exact List.mem_filter.mpr ⟨h', decide_eq_true inner'⟩

/-! ## Whose tuple a tuple is -/

/-- A tuple names the node that contributes it, which is no leaf. -/
theorem eq_cons_of_mem_ownTuples {node : LabelledFormula} {field : Field} {tuple : Tuple}
    (h : tuple ∈ node.ownTuples field) :
    node.kind ≠ .leaf ∧ ∃ rest, tuple = node.label :: rest := by
  unfold ownTuples at h
  split at h
  case h_2 label _ arguments =>
    refine ⟨nofun, ?_⟩
    rcases List.mem_append.mp h with h | h
    all_goals
      unfold argumentTuples at h
      split at h
      · exact ⟨_, List.mem_singleton.mp h⟩
      · cases h
  case h_8 => cases h
  all_goals exact ⟨nofun, _, List.mem_singleton.mp h⟩

end LabelledFormula

end FormulaExport

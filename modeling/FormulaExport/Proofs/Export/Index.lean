import FormulaExport.Proofs.Conversion
import FormulaExport.Proofs.Export.Labelled

/-!
# The formula of an export

Relations that hold the tuples of an export, in any order, describe the exported formula. Every
look-up finds what the node contributed, because no other node has its label, and so every label
denotes the formula of its node.
-/

set_option autoImplicit false

namespace FormulaExport

namespace LabelledFormula

/-- The relations hold an export if every field has its tuples, in any order. -/
def ExportedTo (labelled : LabelledFormula) (first : String) (relations : Relations) : Prop :=
  ∀ field, (relations.tuples field.label).Perm (labelled.tuples first field)

variable {labelled node : LabelledFormula} {first : String} {relations : Relations}
  {index : Index}

/-! ## Tuples of one node -/

theorem mem_tuples_iff {field : Field} (notRoot : field ≠ .root) {tuple : Tuple} :
    tuple ∈ labelled.tuples first field ↔ ∃ node ∈ labelled.nodes, tuple ∈ node.ownTuples field := by
  unfold tuples
  split
  · contradiction
  · exact List.mem_flatMap

theorem mem_ownTuples_of_label (distinct : labelled.labels.Nodup) (h : node ∈ labelled.nodes)
    (inner : node.kind ≠ .leaf) {field : Field} (notRoot : field ≠ .root) {rest : Tuple}
    (inside : node.label :: rest ∈ labelled.tuples first field) :
    node.label :: rest ∈ node.ownTuples field := by
  obtain ⟨other, member, own⟩ := (mem_tuples_iff notRoot).mp inside
  obtain ⟨inner', rest', split⟩ := eq_cons_of_mem_ownTuples own
  have same : node = other :=
    eq_of_label_eq distinct h member inner inner' (List.cons.inj split).1
  exact same ▸ own

/-- A field other than the arguments has pairs, and at most one for each node. -/
theorem exists_pair_of_mem_ownTuples {field : Field} (notVars : field ≠ .vars) {tuple : Tuple}
    (h : tuple ∈ node.ownTuples field) :
    ∃ target, node.ownTuples field = [[node.label, target]] ∧ tuple = [node.label, target] := by
  unfold ownTuples at h ⊢
  split at h
  case h_2 => contradiction
  case h_8 => cases h
  all_goals exact ⟨_, rfl, List.mem_singleton.mp h⟩

/-- The arguments of an atom fill the positions that hold a variable. -/
theorem mem_argumentTuples_iff {atom label : String} {arguments : Arguments}
    {position position' : Position} :
    [atom, position'.index, label] ∈ argumentTuples atom arguments position ↔
      position' = position ∧ arguments.get position = .var label := by
  unfold argumentTuples
  cases arguments.get position with
  | placeholder => simp
  | var name =>
      constructor
      · intro h
        have same := List.mem_singleton.mp h
        obtain ⟨-, index, rfl⟩ : atom = atom ∧ position'.index = position.index ∧ label = name := by
          simpa using same
        refine ⟨?_, rfl⟩
        have read := Position.ofLabel?_index position'
        rw [index, Position.ofLabel?_index] at read
        exact (Option.some.inj read).symm
      · rintro ⟨rfl, ⟨⟩⟩
        exact List.mem_singleton_self _

theorem mem_ownTuples_vars_iff (label relation : String) {name : String}
    {arguments : Arguments} {position : Position} :
    [label, position.index, name] ∈ (atom label relation arguments).ownTuples .vars ↔
      arguments.get position = .var name := by
  rw [ownTuples, List.mem_append, mem_argumentTuples_iff, mem_argumentTuples_iff]
  cases position <;> simp

theorem exists_of_mem_ownTuples_vars {tuple : Tuple} (h : tuple ∈ node.ownTuples .vars) :
    ∃ (position : Position) (name : String), tuple = [node.label, position.index, name] := by
  cases node with
  | atom label relation arguments =>
      rcases List.mem_append.mp h with h | h
      all_goals
        unfold argumentTuples at h
        split at h
        · exact ⟨_, _, List.mem_singleton.mp h⟩
        · cases h
  | negation label inner => cases h
  | binary label connective left right => cases h
  | quantified label quantifier bound body => cases h
  | leaf label => cases h

/-! ## Look-ups -/

theorem get?_pairs (exported : labelled.ExportedTo first relations)
    (distinct : labelled.labels.Nodup) (built : (Index.build relations).outcome = .ok index)
    (h : node ∈ labelled.nodes) (field : Field) (notVars : field ≠ .vars)
    (notRoot : field ≠ .root) {target : String}
    (own : node.ownTuples field = [[node.label, target]]) :
    (index.pairs field).get? node.label = some target := by
  obtain ⟨-, -, atPairs⟩ := Index.outcome_build_eq_ok_iff.mp built
  obtain ⟨pairs, readAs, map⟩ :=
    Index.outcome_addPairs_eq_ok_iff.mp (atPairs field notVars notRoot)
  have self : [node.label, target] ∈ node.ownTuples field := own ▸ List.mem_singleton_self _
  have inner : node.kind ≠ .leaf := (eq_cons_of_mem_ownTuples self).1
  rw [map]
  refine OrderedMap.get?_insertAll_of_mem (readAs.mem_iff.mpr ⟨[node.label, target], ?_, rfl⟩) ?_ _
  · exact (exported field).mem_iff.mpr ((mem_tuples_iff notRoot).mpr ⟨node, h, self⟩)
  · -- no other node has contributed a pair under this label
    intro other inside
    obtain ⟨tuple, member, read⟩ := readAs.mem_iff.mp inside
    obtain rfl := pair?_eq_some_iff.mp read
    have among := mem_ownTuples_of_label distinct h inner notRoot
      ((exported field).mem_iff.mp member)
    rw [own, List.mem_singleton] at among
    simpa using among

theorem mem_fillings_iff (exported : labelled.ExportedTo first relations)
    (distinct : labelled.labels.Nodup) {fillings : List Filling}
    (readAs : ReadAs Filling.ofTuple? (relations.tuples Field.vars.label) fillings)
    {label relation : String} {arguments : Arguments}
    (h : atom label relation arguments ∈ labelled.nodes) {position : Position} {name : String} :
    ⟨label, position, name⟩ ∈ fillings ↔ arguments.get position = .var name := by
  have notRoot : Field.vars ≠ .root := nofun
  rw [readAs.mem_iff, ← mem_ownTuples_vars_iff label relation]
  constructor
  · rintro ⟨tuple, inside, read⟩
    obtain ⟨index, rfl, atIndex⟩ := Filling.ofTuple?_eq_some_iff.mp read
    have own := mem_ownTuples_of_label distinct h nofun notRoot
      ((exported .vars).mem_iff.mp inside)
    -- so the index is one that an export writes, and reads as one position only
    obtain ⟨position', name', same⟩ := exists_of_mem_ownTuples_vars own
    obtain ⟨rfl, rfl⟩ : index = position'.index ∧ name = name' := by simpa using same
    obtain rfl : position' = position := by
      simpa [Position.ofLabel?_index] using atIndex
    exact own
  · intro own
    refine ⟨[label, position.index, name], ?_, ?_⟩
    · exact (exported .vars).mem_iff.mpr ((mem_tuples_iff notRoot).mpr ⟨_, h, own⟩)
    · exact Filling.ofTuple?_eq_some_iff.mpr ⟨_, rfl, Position.ofLabel?_index position⟩

theorem argumentsIn_argumentsOf (exported : labelled.ExportedTo first relations)
    (distinct : labelled.labels.Nodup) (built : (Index.build relations).outcome = .ok index)
    {label relation : String} {arguments : Arguments}
    (h : atom label relation arguments ∈ labelled.nodes)
    (proper : ∀ position, arguments.get position ≠ .var placeholderMark) :
    Index.argumentsIn index.argumentsOf label = arguments := by
  obtain ⟨-, atVars, -⟩ := Index.outcome_build_eq_ok_iff.mp built
  obtain ⟨fillings, readAs, map⟩ := Index.outcome_addArguments_eq_ok_iff.mp atVars
  have member : ∀ {position name}, ⟨label, position, name⟩ ∈ fillings ↔
      arguments.get position = .var name :=
    mem_fillings_iff exported distinct readAs h
  rw [map]
  apply Arguments.ext_get
  intro position
  cases found : arguments.get position with
  | var name =>
      have inside : ⟨label, position, name⟩ ∈ fillings := member.mpr found
      -- whatever fills this argument has the same name, and it is not the mark of a placeholder
      refine (Index.get_fillAll_of_mem inside ?_ ∅).trans ?_
      · rintro ⟨_, _, other⟩ inside' rfl rfl
        have found' := member.mp inside'
        rw [found] at found'
        cases found'
        rfl
      · rw [Term.ofLabel, if_neg]
        rintro rfl
        exact proper position found
  | placeholder =>
      refine (Index.get_fillAll_of_not_mem ?_ ∅).trans ?_
      · rintro ⟨_, _, other⟩ inside ⟨rfl, rfl⟩
        rw [member.mp inside] at found
        cases found
      · rw [Index.argumentsIn, OrderedMap.get?_empty, Option.getD_none, Arguments.get_unfilled]

/-! ## The formula -/

/-- Every label denotes the formula of its node. -/
theorem denotes_node (exported : labelled.ExportedTo first relations)
    (distinct : labelled.labels.Nodup) (fits : labelled.Fits)
    (built : (Index.build relations).outcome = .ok index) (h : node ∈ labelled.nodes) :
    index.Denotes node.label node.formula := by
  -- the nodes below a node are nodes of the export again, whatever stands around them
  induction node with
  | atom label relation arguments =>
      obtain ⟨kind, proper⟩ := fits _ h
      have found := get?_pairs exported distinct built h .relation nofun nofun rfl
      have arguments := argumentsIn_argumentsOf exported distinct built h proper
      have denotes := Index.Denotes.atom kind found
      exact arguments ▸ denotes
  | negation label inner ih =>
      have found := get?_pairs exported distinct built h .child nofun nofun rfl
      have below := ih (mem_nodes_trans h (List.mem_cons_of_mem _ inner.self_mem_nodes))
      exact .negation (fits _ h).1 found below
  | binary label connective left right ih ih' =>
      have found := get?_pairs exported distinct built h .left nofun nofun rfl
      have found' := get?_pairs exported distinct built h .right nofun nofun rfl
      have onLeft : left ∈ (binary label connective left right).nodes :=
        List.mem_cons_of_mem _ (List.mem_append_left _ left.self_mem_nodes)
      have onRight : right ∈ (binary label connective left right).nodes :=
        List.mem_cons_of_mem _ (List.mem_append_right _ right.self_mem_nodes)
      exact .binary (fits _ h).1 found found' (ih (mem_nodes_trans h onLeft))
        (ih' (mem_nodes_trans h onRight))
  | quantified label quantifier bound body ih =>
      have found := get?_pairs exported distinct built h .boundVar nofun nofun rfl
      have found' := get?_pairs exported distinct built h .body nofun nofun rfl
      have below := ih (mem_nodes_trans h (List.mem_cons_of_mem _ body.self_mem_nodes))
      exact .quantified (fits _ h).1 found found' below
  | leaf label => exact .leaf (fits _ h).1

/-- An export has an index, and its root is the outermost node. -/
theorem exists_build (exported : labelled.ExportedTo first relations) :
    ∃ index, (Index.build relations).outcome = .ok index ∧ index.root = some labelled.label := by
  refine Index.exists_build ?_ ?_ ?_
  · have root : relations.tuples Field.root.label = [[first, labelled.label]] :=
      List.perm_singleton.mp (exported .root)
    rw [root, Index.outcome_rootOf_cons]
    rfl
  · refine ReadAs.exists_of_forall fun tuple inside => ?_
    have notRoot : Field.vars ≠ .root := nofun
    obtain ⟨node, -, own⟩ := (mem_tuples_iff notRoot).mp ((exported .vars).mem_iff.mp inside)
    obtain ⟨position, name, rfl⟩ := exists_of_mem_ownTuples_vars own
    exact ⟨⟨node.label, position, name⟩,
      Filling.ofTuple?_eq_some_iff.mpr ⟨_, rfl, Position.ofLabel?_index position⟩⟩
  · intro field notVars notRoot
    refine ReadAs.exists_of_forall fun tuple inside => ?_
    obtain ⟨node, -, own⟩ := (mem_tuples_iff notRoot).mp ((exported field).mem_iff.mp inside)
    obtain ⟨target, -, rfl⟩ := exists_pair_of_mem_ownTuples notVars own
    exact ⟨(node.label, target), rfl⟩

/-- Relations that hold an export describe the exported formula. -/
theorem outcome_formula (exported : labelled.ExportedTo first relations)
    (distinct : labelled.labels.Nodup) (fits : labelled.Fits) :
    relations.formula.outcome = .ok labelled.formula := by
  obtain ⟨index, built, root⟩ := exists_build exported
  have denotes := denotes_node exported distinct fits built labelled.self_mem_nodes
  exact Relations.outcome_formula_eq_ok_iff.mpr ⟨index, built, _, root, denotes⟩

end LabelledFormula

end FormulaExport

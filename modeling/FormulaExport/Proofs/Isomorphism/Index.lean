import FormulaExport.Proofs.Formula.Denotation
import FormulaExport.Proofs.Isomorphism.Relabelling

/-!
# The index of a relabelled export

A relabelled export is indexed if the export is. Tuple by tuple, the two indexes are filled in the
same order and under the same keys, up to the relabelling, so what a node has in one of them its
counterpart has in the other (`Relabelling.exists_relatesIndex`). By induction on what a label
denotes, its counterpart denotes a formula of the same shape (`Relabelling.RelatesIndex.denotes`).
-/

set_option autoImplicit false

namespace FormulaExport.Relabelling

variable {relabelling : Relabelling} {relations relations' : Relations} {index index' : Index}

/-! ## What is read from tuples -/

/-- What a target in the last column of a field may become. -/
def RelatesTarget (relabelling : Relabelling) (relations : Relations) (field : Field)
    (target target' : String) : Prop :=
  target ∈ relations.labelsIn field.target ∧ relabelling.OfColumn field.target target target'

/-- Pairs are related if their sources and their targets are. -/
def RelatesPair (relabelling : Relabelling) (relations : Relations) (field : Field)
    (pair pair' : String × String) : Prop :=
  pair.1 ∈ relations.labelsIn .node ∧ pair'.1 = relabelling.ofNode pair.1 ∧
    relabelling.RelatesTarget relations field pair.2 pair'.2

/-- Fillings are related if they fill the same position and their atoms and labels are. -/
def RelatesFilling (relabelling : Relabelling) (relations : Relations)
    (filling filling' : Filling) : Prop :=
  filling.atom ∈ relations.labelsIn .node ∧ filling'.atom = relabelling.ofNode filling.atom ∧
    filling'.position = filling.position ∧ filling.label ∈ relations.names ∧
      filling'.label = relabelling.ofName filling.label

theorem columns_eq {field : Field} (notVars : field ≠ .vars) (notRoot : field ≠ .root) :
    field.columns = [.node, field.target] := by
  cases field with
  | vars => exact absurd rfl notVars
  | root => exact absurd rfl notRoot
  | _ => rfl

theorem exists_pairs (relates : relabelling.Relates relations relations') {field : Field}
    (notVars : field ≠ .vars) (notRoot : field ≠ .root) {pairs : List (String × String)}
    (readAs : ReadAs pair? (relations.tuples field.label) pairs) :
    ∃ pairs', ReadAs pair? (relations'.tuples field.label) pairs' ∧
      List.Forall₂ (relabelling.RelatesPair relations field) pairs pairs' := by
  have columns := columns_eq notVars notRoot
  refine readAs.exists_related (relates field) ?_
  rintro tuple inside tuple' ⟨source, target⟩ related read
  obtain rfl := pair?_eq_some_iff.mp read
  rw [columns] at related
  obtain ⟨source', _, rfl, atSource, related⟩ := related.exists_cons
  obtain ⟨target', _, rfl, atTarget, related⟩ := related.exists_cons
  obtain rfl := related.eq_nil
  refine ⟨(source', target'), rfl, Relations.mem_labelsIn inside ?_, atSource,
    Relations.mem_labelsIn inside ?_, atTarget⟩
  · rw [columns]
    exact List.mem_cons_self
  · rw [columns]
    exact List.mem_cons_of_mem _ List.mem_cons_self

theorem exists_fillings (relates : relabelling.Relates relations relations')
    {fillings : List Filling}
    (readAs : ReadAs Filling.ofTuple? (relations.tuples Field.vars.label) fillings) :
    ∃ fillings', ReadAs Filling.ofTuple? (relations'.tuples Field.vars.label) fillings' ∧
      List.Forall₂ (relabelling.RelatesFilling relations) fillings fillings' := by
  refine readAs.exists_related (relates .vars) ?_
  rintro tuple inside tuple' ⟨atom, position, label⟩ related read
  obtain ⟨place, rfl, atPlace⟩ := Filling.ofTuple?_eq_some_iff.mp read
  obtain ⟨atom', _, rfl, atAtom, behindAtom⟩ := OfTuple.exists_cons related
  obtain ⟨_, _, rfl, rfl, behindPlace⟩ := behindAtom.exists_cons
  obtain ⟨label', _, rfl, atLabel, behindLabel⟩ := behindPlace.exists_cons
  obtain rfl := behindLabel.eq_nil
  refine ⟨⟨atom', position, label'⟩, Filling.ofTuple?_eq_some_iff.mpr ⟨_, rfl, atPlace⟩,
    Relations.mem_labelsIn inside List.mem_cons_self, atAtom, rfl,
    Relations.mem_names_iff.mpr (Or.inr (Or.inl (Relations.mem_labelsIn inside ?_))), atLabel⟩
  exact List.mem_cons_of_mem _ (List.mem_cons_of_mem _ List.mem_cons_self)

/-! ## What is in the index -/

/-- An index is **related** to another one if every node has in it what its counterpart has in the
other. -/
structure RelatesIndex (relabelling : Relabelling) (relations : Relations) (index index' : Index) :
    Prop where
  root : ∀ root, index.root = some root →
    root ∈ relations.labelsIn .node ∧ index'.root = some (relabelling.ofNode root)
  pairs : ∀ field : Field, field ≠ .vars → field ≠ .root → ∀ label ∈ relations.innerNodes,
    ∀ target, (index.pairs field).get? label = some target →
      ∃ target', (index'.pairs field).get? (relabelling.ofNode label) = some target' ∧
        relabelling.RelatesTarget relations field target target'
  arguments : ∀ label ∈ relations.innerNodes, ∀ position,
    ((Index.argumentsIn index.argumentsOf label).get position).Corresponds
      (fun name name' => name ∈ relations.names ∧ name' = relabelling.ofName name)
      ((Index.argumentsIn index'.argumentsOf (relabelling.ofNode label)).get position)

theorem exists_get?_of_pairs (proper : relabelling.Proper relations) {field : Field}
    {pairs pairs' : List (String × String)}
    (h : List.Forall₂ (relabelling.RelatesPair relations field) pairs pairs') {label : String}
    (inner : label ∈ relations.innerNodes) {target : String}
    (found : ((∅ : OrderedMap String String).insertAll pairs).get? label = some target) :
    ∃ target', ((∅ : OrderedMap String String).insertAll pairs').get? (relabelling.ofNode label) =
        some target' ∧ relabelling.RelatesTarget relations field target target' := by
  have all : List.Forall₂ (fun pair pair' =>
      (pair.1 = label ↔ pair'.1 = relabelling.ofNode label) ∧
        relabelling.RelatesTarget relations field pair.2 pair'.2) pairs pairs' := by
    refine h.imp ?_
    rintro ⟨source, _⟩ ⟨_, _⟩ ⟨occurs, rfl, related⟩
    exact ⟨(proper.ofNode_eq_iff occurs inner).symm, related⟩
  -- so the entry that comes in last under a key is at the same place in both lists
  have rel := OrderedMap.rel_get?_insertAll all ∅ ∅ .none
  rw [found] at rel
  cases rel' : ((∅ : OrderedMap String String).insertAll pairs').get? (relabelling.ofNode label) with
  | none =>
      rw [rel'] at rel
      cases rel
  | some target' =>
      rw [rel'] at rel
      cases rel with
      | some related => exact ⟨target', rfl, related⟩

theorem corresponds_of_fillings (proper : relabelling.Proper relations)
    {fillings fillings' : List Filling}
    (h : List.Forall₂ (relabelling.RelatesFilling relations) fillings fillings') {label : String}
    (inner : label ∈ relations.innerNodes) (position : Position) :
    ((Index.argumentsIn (Index.fillAll ∅ fillings) label).get position).Corresponds
      (fun name name' => name ∈ relations.names ∧ name' = relabelling.ofName name)
      ((Index.argumentsIn (Index.fillAll ∅ fillings') (relabelling.ofNode label)).get position) := by
  refine Index.rel_get_fillAll (h.imp ?_) ?_
  · rintro ⟨atom, place, name⟩ ⟨_, _, _⟩ ⟨occurs, rfl, samePlace, among, rfl⟩
    refine ⟨(proper.ofNode_eq_iff occurs inner).symm, samePlace, ?_⟩
    by_cases isMark : name = placeholderMark
    · rw [Term.ofLabel, if_pos isMark, Term.ofLabel,
        if_pos ((proper.ofName_eq_placeholderMark_iff among).mpr isMark)]
      exact .placeholder
    · rw [Term.ofLabel, if_neg isMark, Term.ofLabel,
        if_neg fun isMark' => isMark ((proper.ofName_eq_placeholderMark_iff among).mp isMark')]
      exact .var ⟨among, rfl⟩
  · rw [Index.argumentsIn, Index.argumentsIn, OrderedMap.get?_empty, OrderedMap.get?_empty,
      Option.getD_none, Arguments.get_unfilled]
    exact .placeholder

theorem outcome_rootOf (relates : relabelling.Relates relations relations')
    {root : Option String}
    (h : (Index.rootOf (relations.tuples Field.root.label)).outcome = .ok root) :
    (Index.rootOf (relations'.tuples Field.root.label)).outcome =
        .ok (root.map relabelling.ofNode) ∧
      ∀ label, root = some label → label ∈ relations.labelsIn .node := by
  have related := relates .root
  cases first : relations.tuples Field.root.label with
  | nil =>
      rw [first] at related h
      rw [List.forall₂_nil_left_iff.mp related]
      obtain rfl : none = root := Except.ok.inj h
      exact ⟨rfl, nofun⟩
  | cons tuple rest =>
      have inside : tuple ∈ relations.tuples Field.root.label := first ▸ List.mem_cons_self
      rw [first] at related h
      obtain ⟨tuple', rest', one, -, whole⟩ := List.forall₂_cons_left_iff.mp related
      rw [whole, Index.outcome_rootOf_cons]
      rw [Index.outcome_rootOf_cons] at h
      cases read : pair? tuple with
      | none =>
          rw [read] at h
          cases h
      | some pair =>
          obtain ⟨source, target⟩ := pair
          obtain rfl := pair?_eq_some_iff.mp read
          rw [read] at h
          obtain rfl : some target = root := Except.ok.inj h
          -- the counterpart has two columns as well
          obtain ⟨source', _, rfl, -, behindSource⟩ := OfTuple.exists_cons one
          obtain ⟨target', _, rfl, rfl, behindTarget⟩ := behindSource.exists_cons
          obtain rfl := behindTarget.eq_nil
          refine ⟨rfl, ?_⟩
          rintro _ ⟨⟩
          exact Relations.mem_labelsIn inside (List.mem_cons_of_mem _ List.mem_cons_self)

/-- A relabelled export has an index if the export has one, and the two are related. -/
theorem exists_relatesIndex (proper : relabelling.Proper relations)
    (relates : relabelling.Relates relations relations')
    (built : (Index.build relations).outcome = .ok index) :
    ∃ index', (Index.build relations').outcome = .ok index' ∧
      relabelling.RelatesIndex relations index index' := by
  obtain ⟨atRoot, atVars, atPairs⟩ := Index.outcome_build_eq_ok_iff.mp built
  obtain ⟨atRoot', occurs⟩ := outcome_rootOf relates atRoot
  obtain ⟨fillings, readAs, map⟩ := Index.outcome_addArguments_eq_ok_iff.mp atVars
  obtain ⟨fillings', readAs', relatedFillings⟩ := exists_fillings relates readAs
  have pairs : ∀ field : Field, field ≠ .vars → field ≠ .root → ∃ pairs pairs',
      index.pairs field = (∅ : OrderedMap String String).insertAll pairs ∧
        ReadAs pair? (relations'.tuples field.label) pairs' ∧
          List.Forall₂ (relabelling.RelatesPair relations field) pairs pairs' := by
    intro field notVars notRoot
    obtain ⟨pairs, readAs, map⟩ :=
      Index.outcome_addPairs_eq_ok_iff.mp (atPairs field notVars notRoot)
    obtain ⟨pairs', readAs', related⟩ := exists_pairs relates notVars notRoot readAs
    exact ⟨pairs, pairs', map, readAs', related⟩
  obtain ⟨index', built', root⟩ := Index.exists_build atRoot' ⟨fillings', readAs'⟩
    fun field notVars notRoot => by
      obtain ⟨_, pairs', _, readAs', _⟩ := pairs field notVars notRoot
      exact ⟨pairs', readAs'⟩
  obtain ⟨-, atVars', atPairs'⟩ := Index.outcome_build_eq_ok_iff.mp built'
  refine ⟨index', built', ?_, ?_, ?_⟩
  · intro label found
    exact ⟨occurs label found, root.trans (congrArg (Option.map _) found)⟩
  · intro field notVars notRoot label inner target found
    -- the relabelled tuples read as one list only, so this is the list that was put in
    obtain ⟨first, second, map, readAs', related⟩ := pairs field notVars notRoot
    obtain ⟨second', readAs₂, map'⟩ :=
      Index.outcome_addPairs_eq_ok_iff.mp (atPairs' field notVars notRoot)
    obtain rfl := readAs'.unique readAs₂
    rw [map] at found
    rw [map']
    exact exists_get?_of_pairs proper related inner found
  · intro label inner position
    obtain ⟨fillings₂, readAs₂, map'⟩ := Index.outcome_addArguments_eq_ok_iff.mp atVars'
    obtain rfl := readAs'.unique readAs₂
    rw [map, map']
    exact corresponds_of_fillings proper relatedFillings inner position

/-! ## What labels denote -/

/-- The counterpart of a node denotes a formula of the same shape, with related labels. -/
theorem RelatesIndex.denotes (proper : relabelling.Proper relations)
    (related : relabelling.RelatesIndex relations index index') {label : String} {formula : Formula}
    (h : index.Denotes label formula) (occurs : label ∈ relations.labelsIn .node) :
    ∃ formula', index'.Denotes (relabelling.ofNode label) formula' ∧
      formula.Corresponds
        (fun name name' => name ∈ relations.names ∧ relabelling.OfColumn .relation name name')
        (fun name name' => name ∈ relations.names ∧ name' = relabelling.ofName name) formula' := by
  have sameKind := proper.kind_ofNode occurs
  have innerNode : ∀ {label : String} {kind : Kind}, Kind.of label = kind → kind ≠ .leaf →
      label ∈ relations.labelsIn .node → label ∈ relations.innerNodes := by
    rintro label _ rfl inner occurs
    exact Relations.mem_innerNodes_iff.mpr ⟨occurs, inner⟩
  -- a node may be shared or stand below several others, so this goes by what is denoted
  induction h with
  | @atom label relation kind found =>
      have inner := innerNode kind nofun occurs
      obtain ⟨relation', found', among, ofRelation⟩ :=
        related.pairs .relation nofun nofun label inner relation found
      refine ⟨_, .atom (sameKind.trans kind) found',
        .atom ⟨Relations.mem_names_iff.mpr (Or.inl among), ofRelation⟩ ?_ ?_⟩
      · exact related.arguments label inner .first
      · exact related.arguments label inner .second
  | @negation label child inner kind found _ ih =>
      have inner := innerNode kind nofun occurs
      obtain ⟨child', found', occurs', rfl⟩ :=
        related.pairs .child nofun nofun label inner child found
      obtain ⟨formula', denotes, corresponds⟩ := ih occurs' (proper.kind_ofNode occurs')
      exact ⟨_, .negation (sameKind.trans kind) found' denotes, .negation corresponds⟩
  | @quantified label bound body quantifier inner kind found foundBody _ ih =>
      have inner := innerNode kind nofun occurs
      obtain ⟨bound', found', among, ofBound⟩ :=
        related.pairs .boundVar nofun nofun label inner bound found
      obtain ⟨body', foundBody', occurs', rfl⟩ :=
        related.pairs .body nofun nofun label inner body foundBody
      obtain ⟨formula', denotes, corresponds⟩ := ih occurs' (proper.kind_ofNode occurs')
      exact ⟨_, .quantified (sameKind.trans kind) found' foundBody' denotes,
        .quantified ⟨Relations.mem_names_iff.mpr (Or.inr (Or.inl among)), ofBound⟩ corresponds⟩
  | @binary label left right connective _ _ kind found foundRight _ _ ih ih' =>
      have inner := innerNode kind nofun occurs
      obtain ⟨left', foundLeft', occursLeft, rfl⟩ :=
        related.pairs .left nofun nofun label inner left found
      obtain ⟨right', foundRight', occursRight, rfl⟩ :=
        related.pairs .right nofun nofun label inner right foundRight
      obtain ⟨_, denotes, corresponds⟩ := ih occursLeft (proper.kind_ofNode occursLeft)
      obtain ⟨_, denotes', corresponds'⟩ := ih' occursRight (proper.kind_ofNode occursRight)
      exact ⟨_, .binary (sameKind.trans kind) foundLeft' foundRight' denotes denotes',
        .binary corresponds corresponds'⟩
  | @leaf label kind =>
      have among : label ∈ relations.names :=
        Relations.mem_names_iff.mpr (Or.inr (Or.inr ⟨occurs, kind⟩))
      exact ⟨_, .leaf (sameKind.trans kind), .leaf ⟨among, if_pos kind⟩⟩

end FormulaExport.Relabelling

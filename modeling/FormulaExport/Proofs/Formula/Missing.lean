import Mathlib.Data.List.Lex
import FormulaExport.Proofs.Formula.Reach

/-!
# Missing entries

The kind of a node says which entries the node has to have (`Kind.required`). A look-up is told by
the route to its node and by its field, and look-ups are ordered by their routes first: a node comes
before what is below it, and what is below its left side before what is below its right side
(`Lookup.Precedes`). If no circle can be reached from a label, there is a formula below it exactly
if nothing is missing at the labels that can be reached, and otherwise the error names the entry of
the first look-up that finds nothing (`formulaBelow_of_noCircleFrom`).
-/

set_option autoImplicit false

namespace FormulaExport

/-! ## Required entries and their order -/

/-- The fields in which a node of a kind has to have an entry. The arguments of an atom may be left
open. -/
def Kind.required : Kind → List Field
  | atom => [.relation]
  | negation => [.child]
  | quantifier _ => [.boundVar, .body]
  | connective _ => [.left, .right]
  | leaf => []

/-- The order of the entries of **one node**, and of what is below them. -/
inductive Field.Before : Field → Field → Prop where
  | bound_body : Field.Before .boundVar .body
  | left_right : Field.Before .left .right

instance : Std.Asymm Field.Before where
  asymm := by
    rintro _ _ ⟨⟩ ⟨⟩

theorem Kind.required_of_leading {kind : Kind} {field : Field} (h : field ∈ kind.leading) :
    field ∈ kind.required := by
  cases kind <;> simp_all [leading, required]

theorem Kind.pairwise_required (kind : Kind) : kind.required.Pairwise Field.Before := by
  cases kind with
  | quantifier _ => exact List.pairwise_pair.mpr .bound_body
  | connective _ => exact List.pairwise_pair.mpr .left_right
  | leaf => exact .nil
  | _ => exact List.pairwise_singleton _ _

theorem Kind.pairwise_leading (kind : Kind) : kind.leading.Pairwise Field.Before := by
  cases kind with
  | connective _ => exact List.pairwise_pair.mpr .left_right
  | atom => exact .nil
  | leaf => exact .nil
  | _ => exact List.pairwise_singleton _ _

theorem Kind.mem_front {kind : Kind} {front back : List Field} {field earlier : Field}
    (split : kind.leading = front ++ field :: back) (h : earlier ∈ kind.leading)
    (before : earlier.Before field) : earlier ∈ front := by
  have ordered := kind.pairwise_leading
  rw [split] at h ordered
  obtain ⟨-, behind, -⟩ := List.pairwise_append.mp ordered
  rcases List.mem_append.mp h with inside | inside
  · exact inside
  · rcases List.mem_cons.mp inside with rfl | inside
    · exact absurd before (Std.Asymm.asymm _ _ before)
    · exact absurd before (Std.Asymm.asymm _ _ (List.rel_of_pairwise_cons behind inside))

theorem Kind.before_of_ne {kind : Kind} {field other : Field} (h : field ∈ kind.required)
    (h' : other ∈ kind.required) (ne : field ≠ other) :
    field.Before other ∨ other.Before field := by
  have either : kind.required.Pairwise fun field other =>
      field.Before other ∨ other.Before field :=
    kind.pairwise_required.imp Or.inl
  have symmetric : Std.Symm fun field other : Field => field.Before other ∨ other.Before field :=
    ⟨fun _ _ => Or.symm⟩
  exact either.forall h h' ne

/-- A **look-up** of a search: the fields that lead to its node, one after the other, and the field
in which the entry of that node is looked up. -/
structure Lookup where
  route : List Field
  field : Field

namespace Lookup

/-- A look-up precedes those behind its route or behind a field that comes before theirs, and the
later ones at its own node. -/
def Precedes (lookup other : Lookup) : Prop :=
  List.Lex Field.Before lookup.route other.route ∨
    lookup.route = other.route ∧ lookup.field.Before other.field

theorem Precedes.asymm {lookup other : Lookup} (h : lookup.Precedes other) :
    ¬ other.Precedes lookup := by
  rintro (less | ⟨same, less⟩)
  · rcases h with less' | ⟨same, -⟩
    · exact Std.Asymm.asymm _ _ less less'
    · rw [same] at less
      exact Std.Asymm.asymm _ _ less less
  · rcases h with less' | ⟨-, less'⟩
    · rw [same] at less'
      exact Std.Asymm.asymm _ _ less' less'
    · exact Std.Asymm.asymm _ _ less less'

/-- The same look-up, seen from a node above. -/
def below (field : Field) (lookup : Lookup) : Lookup :=
  ⟨field :: lookup.route, lookup.field⟩

theorem Precedes.below {lookup other : Lookup} (h : lookup.Precedes other) (field : Field) :
    (lookup.below field).Precedes (other.below field) := by
  rcases h with less | ⟨same, less⟩
  · exact Or.inl (.cons less)
  · exact Or.inr ⟨congrArg (field :: ·) same, less⟩

end Lookup

namespace Index

open Attempt

variable {index : Index} {label node : String}

/-! ## Routes -/

/-- A **route** leads from a label along the entries in its fields. -/
inductive Route (index : Index) : String → List Field → String → Prop where
  | here {label : String} : Route index label [] label
  | along {label next node : String} {field : Field} {route : List Field} :
      field ∈ (Kind.of label).leading → (index.pairs field).get? label = some next →
      Route index next route node → Route index label (field :: route) node

theorem Route.unique {route : List Field} {node' : String} (h : index.Route label route node)
    (h' : index.Route label route node') : node = node' := by
  induction h with
  | here =>
      cases h'
      rfl
  | along _ found _ ih =>
      cases h' with
      | along _ found' behind =>
          rw [found] at found'
          cases found'
          exact ih behind

theorem exists_route_iff :
    (∃ route, index.Route label route node) ↔ Relation.ReflTransGen index.Leads label node := by
  constructor
  · rintro ⟨route, leads⟩
    induction leads with
    | here => exact .refl
    | along leading found _ ih => exact ih.head ⟨_, leading, found⟩
  · intro path
    induction path using Relation.ReflTransGen.head_induction_on with
    | refl => exact ⟨[], .here⟩
    | head first _ ih =>
        obtain ⟨field, leading, found⟩ := first
        obtain ⟨route, leads⟩ := ih
        exact ⟨field :: route, .along leading found leads⟩

/-! ## The first look-up that finds nothing -/

/-- A look-up below a label finds nothing at a node that has to have the entry. -/
def Misses (index : Index) (label : String) (lookup : Lookup) (node : String) : Prop :=
  index.Route label lookup.route node ∧ lookup.field ∈ (Kind.of node).required ∧
    (index.pairs lookup.field).get? node = none

/-- A look-up is the first one below a label that finds nothing. -/
def MissesFirst (index : Index) (label : String) (lookup : Lookup) (node : String) : Prop :=
  index.Misses label lookup node ∧
    ∀ other node', index.Misses label other node' → other = lookup ∨ lookup.Precedes other

def Complete (index : Index) (label : String) : Prop :=
  ∀ lookup node, ¬ index.Misses label lookup node

theorem complete_iff :
    index.Complete label ↔
      ∀ node, Relation.ReflTransGen index.Leads label node →
        ∀ field ∈ (Kind.of node).required, ∃ value, (index.pairs field).get? node = some value := by
  constructor
  · intro complete node reached field required
    obtain ⟨route, leads⟩ := exists_route_iff.mpr reached
    rw [← Option.ne_none_iff_exists']
    exact fun missing => complete ⟨route, field⟩ node ⟨leads, required, missing⟩
  · rintro all lookup node ⟨leads, required, missing⟩
    obtain ⟨value, found⟩ := all node (exists_route_iff.mp ⟨_, leads⟩) _ required
    rw [missing] at found
    cases found

theorem MissesFirst.unique {lookup lookup' : Lookup} {node' : String}
    (h : index.MissesFirst label lookup node) (h' : index.MissesFirst label lookup' node') :
    lookup = lookup' ∧ node = node' := by
  have same : lookup = lookup' := by
    rcases h'.2 _ _ h.1 with same | less
    · exact same
    · exact (h.2 _ _ h'.1).elim Eq.symm fun less' => absurd less' less.asymm
  subst same
  exact ⟨rfl, h.1.1.unique h'.1.1⟩

/-- At a node there is nothing missing of its own. -/
def HasRequired (index : Index) (label : String) : Prop :=
  ∀ field ∈ (Kind.of label).required, (index.pairs field).get? label ≠ none

/-- What is missing below a node that has its own entries is missing below the next one. -/
theorem Misses.exists_below {lookup : Lookup} (h : index.Misses label lookup node)
    (own : index.HasRequired label) :
    ∃ field next behind, field ∈ (Kind.of label).leading ∧
      (index.pairs field).get? label = some next ∧ index.Misses next behind node ∧
        lookup = behind.below field := by
  obtain ⟨route, field⟩ := lookup
  obtain ⟨leads, required, missing⟩ := h
  cases leads with
  | here => exact absurd missing (own field required)
  | along leading found behind =>
      exact ⟨_, _, ⟨_, field⟩, leading, found, ⟨behind, required, missing⟩, rfl⟩

theorem complete_of_below (own : index.HasRequired label)
    (below : ∀ field ∈ (Kind.of label).leading, ∀ next,
      (index.pairs field).get? label = some next → index.Complete next) :
    index.Complete label := by
  intro lookup node missing
  obtain ⟨field, next, behind, leading, found, missing, -⟩ := missing.exists_below own
  exact below field leading next found behind node missing

theorem missesFirst_own {field : Field} (required : field ∈ (Kind.of label).required)
    (missing : (index.pairs field).get? label = none)
    (front : ∀ earlier ∈ (Kind.of label).required, earlier.Before field →
      (index.pairs earlier).get? label ≠ none) :
    index.MissesFirst label ⟨[], field⟩ label := by
  refine ⟨⟨.here, required, missing⟩, ?_⟩
  rintro ⟨route, other⟩ node ⟨leads, required', missing'⟩
  cases leads with
  | along => exact Or.inr (Or.inl .nil)
  | here =>
      by_cases same : other = field
      · exact Or.inl (congrArg _ same)
      · rcases Kind.before_of_ne required' required same with before | behind
        · exact absurd missing' (front other required' before)
        · exact Or.inr (Or.inr ⟨rfl, behind⟩)

theorem MissesFirst.below {field : Field} {next : String} {lookup : Lookup}
    (h : index.MissesFirst next lookup node) (own : index.HasRequired label)
    (leading : field ∈ (Kind.of label).leading) (found : (index.pairs field).get? label = some next)
    (front : ∀ earlier ∈ (Kind.of label).leading, earlier.Before field → ∀ next',
      (index.pairs earlier).get? label = some next' → index.Complete next') :
    index.MissesFirst label (lookup.below field) node := by
  obtain ⟨⟨leads, missing⟩, first⟩ := h
  refine ⟨⟨.along leading found leads, missing⟩, ?_⟩
  intro other node' missing'
  obtain ⟨field', next', behind, leading', found', misses, rfl⟩ := missing'.exists_below own
  by_cases same : field' = field
  · subst same
    obtain rfl : next = next' := Option.some.inj (found.symm.trans found')
    rcases first behind node' misses with rfl | less
    · exact Or.inl rfl
    · exact Or.inr (less.below field')
  · have required := Kind.required_of_leading leading
    rcases Kind.before_of_ne (Kind.required_of_leading leading') required same with before | after
    · exact absurd misses (front field' leading' before next' found' behind node')
    · exact Or.inr (Or.inl (.rel after))

/-! ## One step of the search -/

theorem outcome_entry_eq_error_iff {map : OrderedMap String String} {field : Field}
    {error : ReconstructionError} :
    (entry map field label).outcome = .error error ↔
      error = .missingEntry field label ∧ map.get? label = none := by
  unfold entry
  cases map.get? label with
  | none => simp [eq_comm]
  | some value => simp

/-- The entries of a node that is found lead to the nodes below it, in their order. -/
theorem hasRequired_of_node {found : Node} (h : (index.node label).outcome = .ok found) :
    index.HasRequired label ∧
      (Kind.of label).leading.map (fun field => (index.pairs field).get? label) =
        found.labels.map some := by
  unfold Index.node at h
  unfold HasRequired
  split at h
  all_goals simp only [outcome_bind_eq_ok_iff, outcome_entry_eq_ok_iff, outcome_pure,
    outcome_lift, Except.ok.injEq] at h
  · next kind =>
    obtain ⟨relation, entry, _, -, rfl⟩ := h
    simp [kind, Kind.required, Kind.leading, Node.labels, pairs, entry]
  · next kind =>
    obtain ⟨child, entry, rfl⟩ := h
    simp [kind, Kind.required, Kind.leading, Node.labels, pairs, entry]
  · next kind =>
    obtain ⟨bound, entry, body, entry', rfl⟩ := h
    simp [kind, Kind.required, Kind.leading, Node.labels, pairs, entry, entry']
  · next kind =>
    obtain ⟨left, entry, right, entry', rfl⟩ := h
    simp [kind, Kind.required, Kind.leading, Node.labels, pairs, entry, entry']
  · next kind =>
    subst h
    simp [kind, Kind.required, Kind.leading, Node.labels]

/-- A node that is not found lacks an entry, and none before it. -/
theorem missesFirst_of_node {error : ReconstructionError}
    (h : (index.node label).outcome = .error error) :
    ∃ field, error = .missingEntry field label ∧ index.MissesFirst label ⟨[], field⟩ label := by
  unfold Index.node at h
  -- one case for each kind of node: either its first entry is missing or its second
  split at h
  all_goals simp only [outcome_bind_eq_error_iff, outcome_entry_eq_ok_iff,
    outcome_entry_eq_error_iff, outcome_pure, outcome_lift, reduceCtorEq, and_false, exists_false,
    or_false] at h
  · next kind =>
    obtain ⟨rfl, missing⟩ := h
    refine ⟨.relation, rfl, missesFirst_own ?_ missing ?_⟩
    · simp [kind, Kind.required]
    · nofun
  · next kind =>
    obtain ⟨rfl, missing⟩ := h
    refine ⟨.child, rfl, missesFirst_own ?_ missing ?_⟩
    · simp [kind, Kind.required]
    · nofun
  · next kind =>
    rcases h with ⟨rfl, missing⟩ | ⟨bound, found, rfl, missing⟩
    · refine ⟨.boundVar, rfl, missesFirst_own ?_ missing ?_⟩
      · simp [kind, Kind.required]
      · nofun
    · refine ⟨.body, rfl, missesFirst_own ?_ missing ?_⟩
      · simp [kind, Kind.required]
      · rintro _ - ⟨⟩
        simp [pairs, found]
  · next kind =>
    rcases h with ⟨rfl, missing⟩ | ⟨left, found, rfl, missing⟩
    · refine ⟨.left, rfl, missesFirst_own ?_ missing ?_⟩
      · simp [kind, Kind.required]
      · nofun
    · refine ⟨.right, rfl, missesFirst_own ?_ missing ?_⟩
      · simp [kind, Kind.required]
      · rintro _ - ⟨⟩
        simp [pairs, found]

namespace Node

variable {found : Node} {search : String → Attempt ReconstructionError Formula}

theorem exists_of_outcome_ok {formula : Formula}
    (h : (found.formula search).outcome = .ok formula) :
    ∀ below ∈ found.labels, ∃ inner, (search below).outcome = .ok inner := by
  cases found with
  | whole _ => nofun
  | above wrap below =>
      obtain ⟨inner, answer, -⟩ := outcome_bind_eq_ok_iff.mp h
      simpa [labels] using ⟨inner, answer⟩
  | fork connective left right =>
      obtain ⟨leftFormula, onLeft, h⟩ := outcome_bind_eq_ok_iff.mp h
      obtain ⟨rightFormula, onRight, -⟩ := outcome_bind_eq_ok_iff.mp h
      simpa [labels] using ⟨⟨leftFormula, onLeft⟩, rightFormula, onRight⟩

/-- The error of a node is that of the first node below it without a formula. -/
theorem exists_of_outcome_error {error : ReconstructionError}
    (h : (found.formula search).outcome = .error error) :
    ∃ front below back, found.labels = front ++ below :: back ∧
      (∀ earlier ∈ front, ∃ inner, (search earlier).outcome = .ok inner) ∧
        (search below).outcome = .error error := by
  cases found with
  | whole _ => cases h
  | above wrap below =>
      rcases outcome_bind_eq_error_iff.mp h with failed | ⟨_, -, h⟩
      · exact ⟨[], below, [], rfl, nofun, failed⟩
      · cases h
  | fork connective left right =>
      rcases outcome_bind_eq_error_iff.mp h with failed | ⟨leftFormula, onLeft, h⟩
      · exact ⟨[], left, [right], rfl, nofun, failed⟩
      · rcases outcome_bind_eq_error_iff.mp h with failed | ⟨_, -, h⟩
        · exact ⟨[left], right, [], rfl, by simpa using ⟨leftFormula, onLeft⟩, failed⟩
        · cases h

end Node

/-! ## What a search answers -/

theorem complete_of_formulaWithin {limit : Nat} {formula : Formula}
    (h : (index.formulaWithin limit label).outcome = .ok formula) : index.Complete label := by
  induction limit generalizing label formula with
  | zero => cases h
  | succ limit ih =>
      rw [formulaWithin_succ] at h
      obtain ⟨found, atLabel, h⟩ := outcome_bind_eq_ok_iff.mp h
      obtain ⟨own, leads⟩ := hasRequired_of_node atLabel
      refine complete_of_below own ?_
      intro field leading next isNext
      have inside : next ∈ found.labels := by
        rw [← List.mem_map_of_injective (Option.some_injective _), ← leads, ← isNext]
        exact List.mem_map_of_mem leading
      obtain ⟨inner, answer⟩ := Node.exists_of_outcome_ok h next inside
      exact ih answer

/-- A search that fails is given up as circular, or has found everything before the entry that it
names. -/
theorem missesFirst_of_formulaWithin {limit : Nat} {error : ReconstructionError}
    (h : (index.formulaWithin limit label).outcome = .error error) :
    (∃ circle, error = .circular circle) ∨
      ∃ lookup node, error = .missingEntry lookup.field node ∧
        index.MissesFirst label lookup node := by
  induction limit generalizing label error with
  | zero =>
      cases h
      exact Or.inl ⟨label, rfl⟩
  | succ limit ih =>
      rw [formulaWithin_succ] at h
      rcases outcome_bind_eq_error_iff.mp h with h | ⟨found, atLabel, h⟩
      · obtain ⟨field, rfl, first⟩ := missesFirst_of_node h
        exact Or.inr ⟨_, _, rfl, first⟩
      · obtain ⟨own, leads⟩ := hasRequired_of_node atLabel
        obtain ⟨front, below, back, split, before, failed⟩ := Node.exists_of_outcome_error h
        rcases ih failed with circular | ⟨lookup, node, rfl, first⟩
        · exact Or.inl circular
        · -- an entry leads to the node that failed, and those before it lead to complete ones
          rw [split, List.map_append, List.map_cons] at leads
          obtain ⟨fields, rest, isLeading, onFront, leads⟩ := List.map_eq_append_iff.mp leads
          obtain ⟨field, fields', rfl, isBelow, -⟩ := List.map_eq_cons_iff.mp leads
          have leading : field ∈ (Kind.of label).leading := by
            rw [isLeading]
            exact List.mem_append_right _ List.mem_cons_self
          refine Or.inr ⟨lookup.below field, node, rfl, first.below own leading isBelow ?_⟩
          intro earlier leading' less next isNext
          have inside : next ∈ front := by
            rw [← List.mem_map_of_injective (Option.some_injective _), ← onFront, ← isNext]
            exact List.mem_map_of_mem (Kind.mem_front isLeading leading' less)
          obtain ⟨inner, answer⟩ := before next inside
          exact complete_of_formulaWithin answer

/-! ## Searches without circles -/

/-- If no circle can be reached from a label, there is a formula below it exactly if no node that
can be reached lacks an entry that its kind requires. Otherwise the error names the entry that is
missing first: at a node before what is below it, below its left side before below its right side,
and at one node the bound variable before the body and the left side before the right side. -/
theorem formulaBelow_of_noCircleFrom (noCircle : index.NoCircleFrom label) :
    ((∃ formula, (index.formulaBelow label).outcome = .ok formula) ↔
      ∀ node, Relation.ReflTransGen index.Leads label node →
        ∀ field ∈ (Kind.of node).required,
          ∃ value, (index.pairs field).get? node = some value) ∧
      ∀ error, (index.formulaBelow label).outcome = .error error ↔
        ∃ lookup node, error = .missingEntry lookup.field node ∧
          index.MissesFirst label lookup node := by
  have settles := settles_of_noCircle noCircle
  -- without circles every error names the entry that is missing first
  have named : ∀ error, (index.formulaBelow label).outcome = .error error →
      ∃ lookup node, error = .missingEntry lookup.field node ∧
        index.MissesFirst label lookup node := by
    intro error failed
    rcases missesFirst_of_formulaWithin failed with ⟨circle, rfl⟩ | missing
    · exact absurd ⟨circle, failed⟩ settles
    · exact missing
  rw [← complete_iff]
  constructor
  · constructor
    · rintro ⟨formula, found⟩
      exact complete_of_formulaWithin found
    · intro complete
      cases answer : (index.formulaBelow label).outcome with
      | ok formula => exact ⟨formula, rfl⟩
      | error error =>
          obtain ⟨lookup, node, -, missing, -⟩ := named error answer
          exact absurd missing (complete lookup node)
  · intro error
    refine ⟨named error, ?_⟩
    rintro ⟨lookup, node, rfl, first⟩
    cases answer : (index.formulaBelow label).outcome with
    | ok formula => exact absurd first.1 (complete_of_formulaWithin answer lookup node)
    | error error =>
        obtain ⟨lookup', node', rfl, first'⟩ := named error answer
        obtain ⟨rfl, rfl⟩ := first.unique first'
        rfl

def unquantifiedIndex : Index where
  childOf := .ofList [("Not$0", "P")]
  leftOf := .ofList [("And$0", "Not$0")]
  rightOf := .ofList [("And$0", "Forall$0")]

/-- The height of a node above the ends of the branches. -/
def heightIn (label : String) : Nat :=
  if label = "And$0" then 2 else if label = "P" then 0 else 1

theorem formulaBelow_unquantifiedIndex :
    unquantifiedIndex.NoCircleFrom "And$0" ∧
      (unquantifiedIndex.formulaBelow "And$0").outcome =
        .error (.missingEntry .boundVar "Forall$0") ∧
      ∃ lookup : Lookup, lookup.field = .boundVar ∧
        unquantifiedIndex.MissesFirst "And$0" lookup "Forall$0" := by
  have noCircle : unquantifiedIndex.NoCircleFrom "And$0" :=
    noCircleFrom_of_height heightIn (by decide) "And$0"
  have answer : (unquantifiedIndex.formulaBelow "And$0").outcome =
      .error (.missingEntry .boundVar "Forall$0") := by rfl
  obtain ⟨lookup, node, same, first⟩ := ((formulaBelow_of_noCircleFrom noCircle).2 _).mp answer
  injection same with field label
  subst label
  exact ⟨noCircle, answer, lookup, field.symm, first⟩

end Index

end FormulaExport

import Mathlib.Data.Finset.Card
import Mathlib.Data.List.Nodup
import Mathlib.Logic.Relation
import Mathlib.Order.Interval.Finset.Nat
import FormulaExport.Formula.OfIndex
import FormulaExport.Proofs.Attempt
import FormulaExport.Proofs.OrderedMap
import FormulaExport.Proofs.Index.Build

/-!
# The search for a formula

The formula below a node is searched for within a limit on the length of branches. A step of the
search looks up the entries of a node, and these say which nodes are below it (`formulaWithin_succ`,
`leads_of_node`). A search that is **not given up** as circular finds the same within every
greater limit, and no search needs a limit greater than `Index.longestBranch`
(`Settles.at_longestBranch`): the labels at which it needs exactly 1, 2, 3, … steps are all different
and all have entries. So a search that is given up there would be given up within every limit.
-/

set_option autoImplicit false

namespace FormulaExport

/-! ## Attempts that are given up -/

namespace Attempt

variable {ε α β : Type}

/-- What comes behind an attempt matters only for what the attempt yields. -/
theorem bind_congr_of_outcome {first : Attempt ε α} {next next' : α → Attempt ε β}
    (h : ∀ a, outcome first = .ok a → next a = next' a) : first >>= next = first >>= next' := by
  rcases first with ⟨e | a, log⟩
  · rfl
  · have same := h a rfl
    show (⟨(next a).run.value, log ++ (next a).run.log⟩ : Traced (Except ε β)) =
      ⟨(next' a).run.value, log ++ (next' a).run.log⟩
    rw [same]

/-- The attempt to find a formula was given up as circular. -/
def Circular (attempt : Attempt ReconstructionError α) : Prop :=
  ∃ label, outcome attempt = .error (.circular label)

theorem not_circular_pure (a : α) : ¬ Circular (pure a : Attempt ReconstructionError α) := by
  rintro ⟨label, h⟩
  cases h

theorem not_circular_lift (traced : Traced α) :
    ¬ Circular (traced : Attempt ReconstructionError α) := by
  rintro ⟨label, h⟩
  cases h

theorem circular_bind_iff {first : Attempt ReconstructionError α}
    {next : α → Attempt ReconstructionError β} :
    Circular (first >>= next) ↔ Circular first ∨ ∃ a, outcome first = .ok a ∧ Circular (next a) := by
  unfold Circular
  rw [outcome_bind]
  cases outcome first with
  | ok a => simp
  | error e => simp

end Attempt

/-- The fields that lead from a node of a kind to the nodes below it. -/
def Kind.leading : Kind → List Field
  | atom => []
  | negation => [.child]
  | quantifier _ => [.body]
  | connective _ => [.left, .right]
  | leaf => []

namespace Index

open Attempt

/-! ## One step of the search -/

/-- What stands **at a node**: a whole formula, or something above one or two further nodes. -/
inductive Node where
  | whole (formula : Formula)
  | above (wrap : Formula → Formula) (below : String)
  | fork (connective : Connective) (left right : String)

namespace Node

def labels : Node → List String
  | whole _ => []
  | above _ below => [below]
  | fork _ left right => [left, right]

/-- The formula of a node, put together from those that a search finds below it. -/
def formula (search : String → Attempt ReconstructionError Formula) :
    Node → Attempt ReconstructionError Formula
  | whole formula => pure formula
  | above wrap below => do
    let inner ← search below
    pure (wrap inner)
  | fork connective left right => do
    let leftFormula ← search left
    let rightFormula ← search right
    pure (.binary connective leftFormula rightFormula)

variable {node : Node} {search search' : String → Attempt ReconstructionError Formula}

theorem formula_congr (h : ∀ below ∈ node.labels, search below = search' below) :
    node.formula search = node.formula search' := by
  cases node with
  | whole _ => rfl
  | above wrap below => rw [formula, formula, h below List.mem_cons_self]
  | fork connective left right =>
      rw [formula, formula, h left List.mem_cons_self,
        h right (List.mem_cons_of_mem _ List.mem_cons_self)]

theorem circular_above_iff {wrap : Formula → Formula} {below : String} :
    Circular ((above wrap below).formula search) ↔ Circular (search below) := by
  rw [formula, circular_bind_iff, or_iff_left]
  rintro ⟨_, -, given⟩
  exact not_circular_pure _ given

/-- The right side of a node is given up only if there is a formula on the left side. -/
theorem circular_fork_iff {connective : Connective} {left right : String} :
    Circular ((fork connective left right).formula search) ↔
      Circular (search left) ∨
        ∃ leftFormula, (search left).outcome = .ok leftFormula ∧ Circular (search right) := by
  rw [formula, circular_bind_iff]
  refine or_congr_right (exists_congr fun leftFormula => and_congr_right fun _ => ?_)
  rw [circular_bind_iff, or_iff_left]
  rintro ⟨_, -, given⟩
  exact not_circular_pure _ given

theorem exists_circular (h : Circular (node.formula search)) :
    ∃ below ∈ node.labels, Circular (search below) := by
  cases node with
  | whole formula => exact absurd h (not_circular_pure formula)
  | above wrap below => exact ⟨below, List.mem_cons_self, circular_above_iff.mp h⟩
  | fork connective left right =>
      rcases circular_fork_iff.mp h with given | ⟨_, -, given⟩
      · exact ⟨left, List.mem_cons_self, given⟩
      · exact ⟨right, List.mem_cons_of_mem _ List.mem_cons_self, given⟩

/-- A search that agrees with another one wherever that is not given up finds the same formula,
unless that is given up. -/
theorem formula_eq_of_not_circular (h : ¬ Circular (node.formula search))
    (same : ∀ below ∈ node.labels, ¬ Circular (search below) → search' below = search below) :
    node.formula search' = node.formula search := by
  cases node with
  | whole _ => rfl
  | above wrap below =>
      rw [circular_above_iff] at h
      rw [formula, formula, same below List.mem_cons_self h]
  | fork connective left right =>
      rw [circular_fork_iff, not_or] at h
      rw [formula, formula, same left List.mem_cons_self h.1]
      apply bind_congr_of_outcome
      intro leftFormula found
      -- the right side is only searched if the left one yields a formula
      have onRight : ¬ Circular (search right) := fun given =>
        h.2 ⟨leftFormula, found, given⟩
      rw [same right (List.mem_cons_of_mem _ List.mem_cons_self) onRight]

end Node

def node (index : Index) (label : String) : Attempt ReconstructionError Node :=
  match Kind.of label with
  | .atom => do
    let relation ← entry index.relationOf .relation label
    let arguments ← index.arguments label
    pure (.whole (.atom relation arguments))
  | .negation => do
    let child ← entry index.childOf .child label
    pure (.above .negation child)
  | .quantifier quantifier => do
    let bound ← entry index.boundOf .boundVar label
    let body ← entry index.bodyOf .body label
    pure (.above (.quantified quantifier bound) body)
  | .connective connective => do
    let left ← entry index.leftOf .left label
    let right ← entry index.rightOf .right label
    pure (.fork connective left right)
  | .leaf => pure (.whole (.leaf label))

/-- A search with room for one more step looks up a node and goes on below it. -/
theorem formulaWithin_succ (index : Index) (limit : Nat) (label : String) :
    index.formulaWithin (limit + 1) label =
      index.node label >>= Node.formula (index.formulaWithin limit) := by
  unfold formulaWithin node
  cases Kind.of label <;> simp only [bind_assoc, pure_bind] <;> rfl

/-! ## Entries -/

theorem outcome_entry_eq_ok_iff {map : OrderedMap String String} {field : Field}
    {label value : String} :
    (entry map field label).outcome = .ok value ↔ map.get? label = some value := by
  unfold entry
  cases map.get? label with
  | none => simp
  | some found => simp

theorem not_circular_entry (map : OrderedMap String String) (field : Field) (label : String) :
    ¬ Circular (entry map field label) := by
  unfold entry
  cases map.get? label with
  | none =>
      rintro ⟨_, h⟩
      cases h
  | some value => exact not_circular_pure value

theorem not_circular_node (index : Index) (label : String) : ¬ Circular (index.node label) := by
  unfold node
  split
  all_goals simp only [circular_bind_iff, not_circular_entry, not_circular_lift, not_circular_pure,
    false_or, and_false, exists_false, not_false_eq_true]

/-- The labels with an entry for a child, a body or a left side. -/
def innerLabels (index : Index) : List String :=
  index.childOf.keys ++ index.bodyOf.keys ++ index.leftOf.keys

theorem longestBranch_eq (index : Index) : index.longestBranch = index.innerLabels.length + 1 := by
  simp only [innerLabels, longestBranch, OrderedMap.keys, OrderedMap.size, List.length_append,
    List.length_map]
  omega

/-- A label leads to those that its entries name as directly below it. -/
def Leads (index : Index) (label below : String) : Prop :=
  ∃ field ∈ (Kind.of label).leading, (index.pairs field).get? label = some below

/-- A node with another one below it has an entry of its own, and its entries lead to that node. -/
theorem leads_of_node {index : Index} {label : String} {node : Node}
    (found : (index.node label).outcome = .ok node) {below : String}
    (inside : below ∈ node.labels) : label ∈ index.innerLabels ∧ index.Leads label below := by
  unfold Index.node at found
  unfold Leads
  -- one case for each kind of node, with the entries that were found
  split at found
  all_goals simp only [outcome_bind_eq_ok_iff, outcome_entry_eq_ok_iff, outcome_pure,
    outcome_lift, Except.ok.injEq] at found
  · obtain ⟨relation, -, _, -, rfl⟩ := found
    cases inside
  · next kind =>
    obtain ⟨child, entry, rfl⟩ := found
    obtain rfl := List.mem_singleton.mp inside
    have isInner : label ∈ index.innerLabels :=
      List.mem_append_left _ (List.mem_append_left _ (OrderedMap.mem_keys_of_get? entry))
    exact ⟨isInner, .child, by rw [kind]; exact List.mem_cons_self, entry⟩
  · next kind =>
    obtain ⟨bound, -, body, entry, rfl⟩ := found
    obtain rfl := List.mem_singleton.mp inside
    have isInner : label ∈ index.innerLabels :=
      List.mem_append_left _ (List.mem_append_right _ (OrderedMap.mem_keys_of_get? entry))
    exact ⟨isInner, .body, by rw [kind]; exact List.mem_cons_self, entry⟩
  · next kind =>
    obtain ⟨left, entry, right, entry', rfl⟩ := found
    have isInner : label ∈ index.innerLabels :=
      List.mem_append_right _ (OrderedMap.mem_keys_of_get? entry)
    rcases List.mem_cons.mp inside with rfl | inside
    · exact ⟨isInner, .left, by rw [kind]; exact List.mem_cons_self, entry⟩
    · obtain rfl := List.mem_singleton.mp inside
      exact ⟨isInner, .right, by rw [kind]; exact List.mem_cons_of_mem _ List.mem_cons_self, entry'⟩
  · subst found
    cases inside

/-! ## Limits -/

/-- A limit settles a label if the search for the formula below it is not given up within that
limit. -/
def Settles (index : Index) (limit : Nat) (label : String) : Prop :=
  ¬ Circular (index.formulaWithin limit label)

variable {index : Index} {limit : Nat} {label : String}

theorem settles_of_outcome_eq_ok {formula : Formula}
    (found : (index.formulaWithin limit label).outcome = .ok formula) :
    index.Settles limit label := by
  rintro ⟨_, given⟩
  rw [found] at given
  cases given

theorem Settles.formulaWithin_succ (h : index.Settles limit label) :
    index.formulaWithin (limit + 1) label = index.formulaWithin limit label := by
  induction limit generalizing label with
  | zero => exact absurd ⟨label, rfl⟩ h
  | succ limit ih =>
      rw [Settles, Index.formulaWithin_succ, circular_bind_iff, not_or] at h
      rw [Index.formulaWithin_succ index (limit + 1), Index.formulaWithin_succ index limit]
      apply bind_congr_of_outcome
      intro node found
      have settled : ¬ Circular (node.formula (index.formulaWithin limit)) := fun given =>
        h.2 ⟨node, found, given⟩
      exact Node.formula_eq_of_not_circular settled fun below _ => ih

theorem Settles.formulaWithin_of_le (h : index.Settles limit label) {greater : Nat}
    (le : limit ≤ greater) :
    index.formulaWithin greater label = index.formulaWithin limit label := by
  induction greater, le using Nat.le_induction with
  | base => rfl
  | succ greater le ih =>
      have settles : index.Settles greater label := by
        rw [Settles, ih]
        exact h
      rw [settles.formulaWithin_succ, ih]

theorem Settles.mono (h : index.Settles limit label) {greater : Nat} (le : limit ≤ greater) :
    index.Settles greater label := by
  rw [Settles, h.formulaWithin_of_le le]
  exact h

/-- If a search is given up, but would not be with room for one more step, then the same is true of
the search below one of the next nodes, with one step less. -/
theorem exists_step (early : ¬ index.Settles (limit + 1) label)
    (late : index.Settles (limit + 2) label) :
    label ∈ index.innerLabels ∧
      ∃ below, ¬ index.Settles limit below ∧ index.Settles (limit + 1) below := by
  rw [Settles, not_not, formulaWithin_succ, circular_bind_iff] at early
  obtain ⟨node, found, given⟩ := early.resolve_left (index.not_circular_node label)
  rw [Settles, formulaWithin_succ, circular_bind_iff, not_or] at late
  have settled : ¬ Circular (node.formula (index.formulaWithin (limit + 1))) := fun given =>
    late.2 ⟨node, found, given⟩
  constructor
  · obtain ⟨below, inside, -⟩ := Node.exists_circular given
    exact (leads_of_node found inside).1
  · by_contra none
    -- then the two searches agree below the node, and so they do at the node
    have same : ∀ below ∈ node.labels, ¬ Circular (index.formulaWithin (limit + 1) below) →
        index.formulaWithin limit below = index.formulaWithin (limit + 1) below := by
      intro below _ settles
      have already : index.Settles limit below := by
        by_contra early
        exact none ⟨below, early, settles⟩
      exact already.formulaWithin_succ.symm
    rw [Node.formula_eq_of_not_circular settled same] at given
    exact settled given

/-- Below a label that needs some number of steps there is one, with an entry, for every smaller
number. -/
theorem exists_of_limit (early : ¬ index.Settles limit label)
    (late : index.Settles (limit + 1) label) {lower : Nat} (low : 1 ≤ lower)
    (high : lower ≤ limit) :
    ∃ label' ∈ index.innerLabels, ¬ index.Settles lower label' ∧
      index.Settles (lower + 1) label' := by
  induction limit generalizing label with
  | zero => omega
  | succ limit ih =>
      obtain ⟨inside, below, early', late'⟩ := exists_step early late
      by_cases here : lower = limit + 1
      · subst here
        exact ⟨label, inside, early, late⟩
      · exact ih early' late' (by omega)

theorem limit_lt_of_not_settles (early : ¬ index.Settles limit label)
    (late : index.Settles (limit + 1) label) : limit < index.longestBranch := by
  -- choose a label for every number of steps; different numbers have different labels
  have chosen : ∀ lower ∈ Finset.Icc 1 limit, ∃ label' ∈ index.innerLabels,
      ¬ index.Settles lower label' ∧ index.Settles (lower + 1) label' := by
    intro lower inside
    obtain ⟨low, high⟩ := Finset.mem_Icc.mp inside
    exact exists_of_limit early late low high
  choose! labelAt member notYet then' using chosen
  have maps : Set.MapsTo labelAt (Finset.Icc 1 limit) (index.innerLabels.toFinset) := by
    intro lower inside
    exact List.mem_toFinset.mpr (member lower inside)
  have injective : Set.InjOn labelAt (Finset.Icc 1 limit) := by
    intro lower inside lower' inside' same
    rcases lt_trichotomy lower lower' with less | equal | more
    · exact absurd (same ▸ (then' lower inside).mono less) (notYet lower' inside')
    · exact equal
    · exact absurd (same ▸ (then' lower' inside').mono more) (notYet lower inside)
  have few : (Finset.Icc 1 limit).card ≤ index.innerLabels.length :=
    (Finset.card_le_card_of_injOn labelAt maps injective).trans (List.toFinset_card_le _)
  rw [Nat.card_Icc] at few
  rw [longestBranch_eq]
  omega

/-- A label that is settled by any limit is settled by the bound of the index. -/
theorem Settles.at_longestBranch (h : index.Settles limit label) :
    index.Settles index.longestBranch label := by
  -- go down to the least limit that settles the label: that one is below the bound
  induction limit with
  | zero => exact absurd ⟨label, rfl⟩ h
  | succ limit ih =>
      by_cases already : index.Settles limit label
      · exact ih already
      · exact h.mono (limit_lt_of_not_settles already h)

theorem Settles.formulaBelow_eq (h : index.Settles limit label) :
    index.formulaBelow label = index.formulaWithin limit label := by
  have bound := h.at_longestBranch
  calc index.formulaBelow label
      = index.formulaWithin index.longestBranch label := rfl
    _ = index.formulaWithin (max limit index.longestBranch) label :=
        (bound.formulaWithin_of_le (Nat.le_max_right _ _)).symm
    _ = index.formulaWithin limit label := h.formulaWithin_of_le (Nat.le_max_left _ _)

end Index

end FormulaExport

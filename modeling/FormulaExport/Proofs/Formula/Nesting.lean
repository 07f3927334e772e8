import FormulaExport.Proofs.Formula.Denotation
import FormulaExport.Proofs.Formula.Reach

/-!
# How deeply a search is nested

The search for a formula is a recursion that goes on at the labels of the nodes below a node. Here it
is told without any limit, together with the number of its calls that are nested in one another
(`Recursion`). A limit settles a label exactly if it is not below that number
(`Recursion.settles_iff`), so without circles the calls are nested no deeper than the index allows,
however many nodes share what is below them (`recursion_of_noCircleFrom`).
-/

set_option autoImplicit false

namespace FormulaExport.Index

open Attempt

/-- The **recursion** at a label: what it answers, and how deeply its calls are nested, itself
counted. No limit is set to it. -/
inductive Recursion (index : Index) :
    String → Except ReconstructionError Formula → ℕ → Prop where
  | missing {label : String} {error : ReconstructionError} :
      (index.node label).outcome = .error error → Recursion index label (.error error) 1
  | whole {label : String} {formula : Formula} :
      (index.node label).outcome = .ok (.whole formula) → Recursion index label (.ok formula) 1
  | above {label below : String} {wrap : Formula → Formula}
      {answer : Except ReconstructionError Formula} {nesting : ℕ} :
      (index.node label).outcome = .ok (.above wrap below) → Recursion index below answer nesting →
      Recursion index label (answer.map wrap) (nesting + 1)
  /-- The right side is not searched if there is no formula on the left side. -/
  | leftFails {label left right : String} {connective : Connective} {error : ReconstructionError}
      {nesting : ℕ} :
      (index.node label).outcome = .ok (.fork connective left right) →
      Recursion index left (.error error) nesting →
      Recursion index label (.error error) (nesting + 1)
  | both {label left right : String} {connective : Connective} {leftFormula : Formula}
      {answer : Except ReconstructionError Formula} {nesting nesting' : ℕ} :
      (index.node label).outcome = .ok (.fork connective left right) →
      Recursion index left (.ok leftFormula) nesting → Recursion index right answer nesting' →
      Recursion index label (answer.map (.binary connective leftFormula)) (max nesting nesting' + 1)

/-! ## Searches within a limit -/

namespace Node

variable {search : String → Attempt ReconstructionError Formula}

theorem outcome_formula_above (wrap : Formula → Formula) (below : String) :
    ((above wrap below).formula search).outcome = (search below).outcome.map wrap := by
  rw [formula, outcome_bind]
  cases (search below).outcome <;> rfl

theorem outcome_formula_fork_error {left : String} {error : ReconstructionError}
    (h : (search left).outcome = .error error) (connective : Connective) (right : String) :
    ((fork connective left right).formula search).outcome = .error error := by
  rw [formula, outcome_bind, h]

theorem outcome_formula_fork_ok {left : String} {leftFormula : Formula}
    (h : (search left).outcome = .ok leftFormula) (connective : Connective) (right : String) :
    ((fork connective left right).formula search).outcome =
      (search right).outcome.map (.binary connective leftFormula) := by
  rw [formula, outcome_bind, h]
  show (search right >>= _).outcome = _
  rw [outcome_bind]
  cases (search right).outcome <;> rfl

end Node

variable {index : Index} {label : String} {limit nesting : ℕ}
  {answer : Except ReconstructionError Formula}

theorem outcome_formulaWithin_succ {node : Node} (found : (index.node label).outcome = .ok node)
    (limit : ℕ) :
    (index.formulaWithin (limit + 1) label).outcome =
      (node.formula (index.formulaWithin limit)).outcome := by
  rw [formulaWithin_succ, outcome_bind, found]

theorem settles_succ_iff {node : Node} (found : (index.node label).outcome = .ok node) :
    index.Settles (limit + 1) label ↔ ¬ Circular (node.formula (index.formulaWithin limit)) := by
  rw [Settles, Circular, Circular, outcome_formulaWithin_succ found]

/-- Within a limit that is not below its nesting a search answers what the recursion does. -/
theorem Recursion.outcome_formulaWithin (h : index.Recursion label answer nesting)
    (enough : nesting ≤ limit) : (index.formulaWithin limit label).outcome = answer := by
  induction h generalizing limit with
  | missing failed =>
      obtain ⟨limit, rfl⟩ := Nat.exists_eq_add_of_le' enough
      rw [formulaWithin_succ, outcome_bind, failed]
  | whole found =>
      obtain ⟨limit, rfl⟩ := Nat.exists_eq_add_of_le' enough
      rw [outcome_formulaWithin_succ found]
      rfl
  | above found _ ih =>
      obtain ⟨limit, rfl⟩ := Nat.exists_eq_add_of_le' (Nat.le_of_add_left_le enough)
      rw [outcome_formulaWithin_succ found, Node.outcome_formula_above,
        ih (Nat.le_of_succ_le_succ enough)]
  | leftFails found _ ih =>
      obtain ⟨limit, rfl⟩ := Nat.exists_eq_add_of_le' (Nat.le_of_add_left_le enough)
      rw [outcome_formulaWithin_succ found,
        Node.outcome_formula_fork_error (ih (Nat.le_of_succ_le_succ enough))]
  | both found _ _ ih ih' =>
      obtain ⟨limit, rfl⟩ := Nat.exists_eq_add_of_le' (Nat.le_of_add_left_le enough)
      have enough' := max_le_iff.mp (Nat.le_of_succ_le_succ enough)
      rw [outcome_formulaWithin_succ found, Node.outcome_formula_fork_ok (ih enough'.1),
        ih' enough'.2]

theorem map_ne_error {wrap : Formula → Formula} {error : ReconstructionError}
    (h : answer ≠ .error error) : answer.map wrap ≠ .error error := by
  cases answer with
  | error _ => exact h
  | ok _ => nofun

theorem Recursion.ne_circular (h : index.Recursion label answer nesting) (circle : String) :
    answer ≠ .error (.circular circle) := by
  induction h with
  | @missing label error failed =>
      intro given
      obtain rfl := Except.error.inj given
      exact index.not_circular_node label ⟨circle, failed⟩
  | whole _ => nofun
  | above _ _ ih => exact map_ne_error ih
  | leftFails _ _ ih => exact ih
  | both _ _ _ _ ih => exact map_ne_error ih

theorem Recursion.not_settles (h : index.Recursion label answer nesting)
    (short : limit < nesting) : ¬ index.Settles limit label := by
  have unsettled : ∀ label, ¬ index.Settles 0 label := fun label settles => settles ⟨label, rfl⟩
  induction h generalizing limit with
  | missing _ =>
      obtain rfl := Nat.lt_one_iff.mp short
      exact unsettled _
  | whole _ =>
      obtain rfl := Nat.lt_one_iff.mp short
      exact unsettled _
  | above found _ ih =>
      cases limit with
      | zero => exact unsettled _
      | succ limit =>
          have given := not_not.mp (ih (Nat.lt_of_succ_lt_succ short))
          rw [settles_succ_iff found, not_not, Node.circular_above_iff]
          exact given
  | leftFails found _ ih =>
      cases limit with
      | zero => exact unsettled _
      | succ limit =>
          have given := not_not.mp (ih (Nat.lt_of_succ_lt_succ short))
          rw [settles_succ_iff found, not_not, Node.circular_fork_iff]
          exact Or.inl given
  | @both _ _ _ _ leftFormula _ nesting _ found onLeft _ ih ih' =>
      cases limit with
      | zero => exact unsettled _
      | succ limit =>
          rw [settles_succ_iff found, not_not, Node.circular_fork_iff]
          rcases Nat.lt_or_ge limit nesting with early | enough
          · exact Or.inl (not_not.mp (ih early))
          · -- the left side has its formula, so it is the right side that is given up
            have early := (lt_max_iff.mp (Nat.lt_of_succ_lt_succ short)).resolve_left
              (Nat.not_lt.mpr enough)
            exact Or.inr ⟨leftFormula, onLeft.outcome_formulaWithin enough, not_not.mp (ih' early)⟩

/-- The nesting is the least limit that settles a label. -/
theorem Recursion.settles_iff (h : index.Recursion label answer nesting) :
    index.Settles limit label ↔ nesting ≤ limit := by
  constructor
  · intro settles
    by_contra short
    exact h.not_settles (Nat.not_le.mp short) settles
  · rintro enough ⟨circle, given⟩
    exact h.ne_circular circle ((h.outcome_formulaWithin enough).symm.trans given)

theorem Recursion.unique {answer' : Except ReconstructionError Formula} {nesting' : ℕ}
    (h : index.Recursion label answer nesting) (h' : index.Recursion label answer' nesting') :
    answer' = answer ∧ nesting' = nesting := by
  have least : ∀ limit, nesting' ≤ limit ↔ nesting ≤ limit := fun limit =>
    h'.settles_iff.symm.trans h.settles_iff
  obtain rfl : nesting' = nesting :=
    Nat.le_antisymm ((least nesting).mpr (Nat.le_refl _)) ((least nesting').mp (Nat.le_refl _))
  exact ⟨(h'.outcome_formulaWithin (Nat.le_refl _)).symm.trans
    (h.outcome_formulaWithin (Nat.le_refl _)), rfl⟩

/-- A search that is not given up within a limit is a recursion that is nested no deeper. -/
theorem exists_recursion (settles : index.Settles limit label) :
    ∃ nesting ≤ limit, index.Recursion label (index.formulaWithin limit label).outcome nesting := by
  induction limit generalizing label with
  | zero => exact absurd ⟨label, rfl⟩ settles
  | succ limit ih =>
      cases atLabel : (index.node label).outcome with
      | error error =>
          rw [formulaWithin_succ, outcome_bind, atLabel]
          exact ⟨1, Nat.le_add_left 1 limit, .missing atLabel⟩
      | ok node =>
          rw [settles_succ_iff atLabel] at settles
          rw [outcome_formulaWithin_succ atLabel]
          cases node with
          | whole formula => exact ⟨1, Nat.le_add_left 1 limit, .whole atLabel⟩
          | above wrap below =>
              rw [Node.circular_above_iff] at settles
              obtain ⟨nesting, few, recursion⟩ := ih settles
              rw [Node.outcome_formula_above]
              exact ⟨nesting + 1, Nat.succ_le_succ few, .above atLabel recursion⟩
          | fork connective left right =>
              rw [Node.circular_fork_iff, not_or] at settles
              obtain ⟨nesting, few, onLeft⟩ := ih settles.1
              cases answer : (index.formulaWithin limit left).outcome with
              | error error =>
                  rw [answer] at onLeft
                  rw [Node.outcome_formula_fork_error answer]
                  exact ⟨nesting + 1, Nat.succ_le_succ few, .leftFails atLabel onLeft⟩
              | ok leftFormula =>
                  rw [answer] at onLeft
                  -- the right side is searched, so it is not given up either
                  have onward : index.Settles limit right := fun given =>
                    settles.2 ⟨leftFormula, answer, given⟩
                  obtain ⟨nesting', few', onRight⟩ := ih onward
                  rw [Node.outcome_formula_fork_ok answer]
                  exact ⟨max nesting nesting' + 1, Nat.succ_le_succ (max_le few few'),
                    .both atLabel onLeft onRight⟩

/-! ## Searches without circles -/

/-- The calls for a formula are nested exactly as deeply as the formula is. -/
theorem Recursion.depth_eq {formula : Formula} (h : index.Recursion label (.ok formula) nesting) :
    formula.depth = nesting := by
  obtain ⟨denotes, deep⟩ := denotes_of_formulaWithin (h.outcome_formulaWithin (Nat.le_refl nesting))
  have found := outcome_formulaWithin_of_denotes denotes (Nat.le_refl formula.depth)
  exact Nat.le_antisymm deep (h.settles_iff.mp (settles_of_outcome_eq_ok found))

/-- If no circle can be reached from a label, the recursion there comes to an end, in one way only,
and its calls are nested no deeper than there are entries for children, bodies and left sides, and
one more. The search answers what it does, and no formula is deeper. -/
theorem recursion_of_noCircleFrom (noCircle : index.NoCircleFrom label) :
    ∃ answer nesting,
      (∀ answer' nesting', index.Recursion label answer' nesting' ↔
        answer' = answer ∧ nesting' = nesting) ∧
      nesting ≤ 1 + index.childOf.size + index.bodyOf.size + index.leftOf.size ∧
      (index.formulaBelow label).outcome = answer ∧
      ∀ formula, (index.formulaBelow label).outcome = .ok formula →
        formula.depth ≤ 1 + index.childOf.size + index.bodyOf.size + index.leftOf.size := by
  obtain ⟨nesting, few, recursion⟩ := exists_recursion (settles_of_noCircle noCircle)
  refine ⟨_, nesting, ?_, few, rfl, ?_⟩
  · intro answer' nesting'
    refine ⟨recursion.unique, ?_⟩
    rintro ⟨rfl, rfl⟩
    exact recursion
  · intro formula found
    rw [← formulaBelow, found] at recursion
    exact recursion.depth_eq.trans_le few

/-- The index of a negated conjunction of a disjunction with itself, which is one of a leaf with
itself. -/
def sharingIndex : Index where
  childOf := .ofList [("Not$0", "And$0")]
  leftOf := .ofList [("And$0", "Or$0"), ("Or$0", "P")]
  rightOf := .ofList [("And$0", "Or$0"), ("Or$0", "P")]

/-- Four leaves, and no more than four calls in one another. -/
theorem recursion_sharingIndex :
    sharingIndex.NoCircleFrom "Not$0" ∧
      ∃ nesting ≤ 4, sharingIndex.Recursion "Not$0" (.ok (.negation (.binary .conjunction
        (.binary .disjunction (.leaf "P") (.leaf "P"))
        (.binary .disjunction (.leaf "P") (.leaf "P"))))) nesting := by
  have noCircle : sharingIndex.NoCircleFrom "Not$0" :=
    noCircleFrom_of_height (["P", "Or$0", "And$0", "Not$0"].idxOf ·) (by decide) "Not$0"
  obtain ⟨answer, nesting, all, few, found, -⟩ := recursion_of_noCircleFrom noCircle
  have shared : answer = .ok (.negation (.binary .conjunction
      (.binary .disjunction (.leaf "P") (.leaf "P"))
      (.binary .disjunction (.leaf "P") (.leaf "P")))) := by
    rw [← found]
    rfl
  exact ⟨noCircle, nesting, few, (all _ _).mpr ⟨shared.symm, rfl⟩⟩

end FormulaExport.Index

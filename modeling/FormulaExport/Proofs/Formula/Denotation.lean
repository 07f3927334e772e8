import FormulaExport.Proofs.Formula.Search

/-!
# The formula that a label denotes

`Index.Denotes` says which formula stands below a node, without any limit on the search. A search
within the depth of that formula finds it, so a search within `Index.longestBranch`, which is enough
for every label that any limit settles, finds the formula **exactly if** there is one
(`outcome_formulaBelow_eq_ok_iff`).
-/

set_option autoImplicit false

namespace FormulaExport.Index

/-- The formula that the label of a node **denotes**: the one below it. -/
inductive Denotes (index : Index) : String → Formula → Prop where
  | atom {label relation : String} : Kind.of label = .atom →
      index.relationOf.get? label = some relation →
      Denotes index label (.atom relation (argumentsIn index.argumentsOf label))
  | negation {label child : String} {inner : Formula} : Kind.of label = .negation →
      index.childOf.get? label = some child → Denotes index child inner →
      Denotes index label (.negation inner)
  | quantified {label bound body : String} {quantifier : Quantifier} {inner : Formula} :
      Kind.of label = .quantifier quantifier → index.boundOf.get? label = some bound →
      index.bodyOf.get? label = some body → Denotes index body inner →
      Denotes index label (.quantified quantifier bound inner)
  | binary {label left right : String} {connective : Connective}
      {leftFormula rightFormula : Formula} :
      Kind.of label = .connective connective → index.leftOf.get? label = some left →
      index.rightOf.get? label = some right → Denotes index left leftFormula →
      Denotes index right rightFormula →
      Denotes index label (.binary connective leftFormula rightFormula)
  | leaf {label : String} : Kind.of label = .leaf → Denotes index label (.leaf label)

/-! ## Searching within a limit -/

theorem value_arguments (index : Index) (atom : String) :
    (index.arguments atom).value = argumentsIn index.argumentsOf atom := by
  unfold arguments argumentsIn
  cases index.argumentsOf.get? atom <;> rfl

theorem exists_limit {formula : Formula} {limit : Nat} (deep : formula.depth ≤ limit) :
    ∃ limit', limit = limit' + 1 := by
  have positive : 0 < formula.depth := by
    cases formula <;> simp only [Formula.depth] <;> omega
  exact ⟨limit - 1, by omega⟩

/-- What a search within a limit finds is denoted, and not deeper than the limit. -/
theorem denotes_of_formulaWithin {index : Index} {limit : Nat} {label : String}
    {formula : Formula} (h : (index.formulaWithin limit label).outcome = .ok formula) :
    index.Denotes label formula ∧ formula.depth ≤ limit := by
  induction limit generalizing label formula with
  | zero => cases h
  | succ limit ih =>
      rw [formulaWithin] at h
      -- one case for each kind of node, with the entries that were found
      split at h
      all_goals simp only [Attempt.outcome_bind_eq_ok_iff, outcome_entry_eq_ok_iff,
        Attempt.outcome_lift, Attempt.outcome_pure, value_arguments, Except.ok.injEq] at h
      · next kind =>
        obtain ⟨relation, found, _, rfl, rfl⟩ := h
        exact ⟨.atom kind found, by simp [Formula.depth]⟩
      · next kind =>
        obtain ⟨child, found, inner, below, rfl⟩ := h
        obtain ⟨denotes, depth⟩ := ih below
        exact ⟨.negation kind found denotes, by rw [Formula.depth]; omega⟩
      · next kind =>
        obtain ⟨bound, found, body, found', inner, below, rfl⟩ := h
        obtain ⟨denotes, depth⟩ := ih below
        exact ⟨.quantified kind found found' denotes, by rw [Formula.depth]; omega⟩
      · next kind =>
        obtain ⟨left, found, right, found', _, onLeft, _, onRight, rfl⟩ := h
        obtain ⟨denotes, depth⟩ := ih onLeft
        obtain ⟨denotes', depth'⟩ := ih onRight
        exact ⟨.binary kind found found' denotes denotes', by rw [Formula.depth]; omega⟩
      · next kind =>
        subst h
        exact ⟨.leaf kind, by simp [Formula.depth]⟩

/-- What a label denotes is found within every limit that is not smaller than its depth. -/
theorem outcome_formulaWithin_of_denotes {index : Index} {limit : Nat} {label : String}
    {formula : Formula} (h : index.Denotes label formula) (deep : formula.depth ≤ limit) :
    (index.formulaWithin limit label).outcome = .ok formula := by
  -- by what is denoted, because one node may stand in several places
  induction h generalizing limit with
  | @atom label relation kind found =>
      obtain ⟨limit, rfl⟩ := exists_limit deep
      rw [formulaWithin, kind]
      simp only [Attempt.outcome_bind_eq_ok_iff, outcome_entry_eq_ok_iff]
      exact ⟨relation, found, _, Attempt.outcome_lift _,
        by rw [value_arguments, Attempt.outcome_pure]⟩
  | @negation label child inner kind found _ ih =>
      obtain ⟨limit, rfl⟩ := exists_limit deep
      rw [Formula.depth] at deep
      have below := ih (by omega : inner.depth ≤ limit)
      rw [formulaWithin, kind]
      simp only [Attempt.outcome_bind_eq_ok_iff, outcome_entry_eq_ok_iff]
      exact ⟨child, found, inner, below, rfl⟩
  | @quantified label bound body quantifier inner kind found found' _ ih =>
      obtain ⟨limit, rfl⟩ := exists_limit deep
      rw [Formula.depth] at deep
      have below := ih (by omega : inner.depth ≤ limit)
      rw [formulaWithin, kind]
      simp only [Attempt.outcome_bind_eq_ok_iff, outcome_entry_eq_ok_iff]
      exact ⟨bound, found, body, found', inner, below, rfl⟩
  | @binary label left right connective onLeft onRight kind found found' _ _ ih ih' =>
      obtain ⟨limit, rfl⟩ := exists_limit deep
      rw [Formula.depth] at deep
      have belowLeft := ih (by omega : onLeft.depth ≤ limit)
      have belowRight := ih' (by omega : onRight.depth ≤ limit)
      rw [formulaWithin, kind]
      simp only [Attempt.outcome_bind_eq_ok_iff, outcome_entry_eq_ok_iff]
      exact ⟨left, found, right, found', onLeft, belowLeft, onRight, belowRight, rfl⟩
  | @leaf label kind =>
      obtain ⟨limit, rfl⟩ := exists_limit deep
      rw [formulaWithin, kind]
      rfl

/-! ## One formula -/

/-- No formula is deeper than the index allows: the search finds it within its depth, so it finds it
within the bound of the index. -/
theorem Denotes.depth_le {index : Index} {label : String} {formula : Formula}
    (h : index.Denotes label formula) : formula.depth ≤ index.longestBranch := by
  have found := outcome_formulaWithin_of_denotes h (Nat.le_refl formula.depth)
  rw [← (settles_of_outcome_eq_ok found).formulaBelow_eq] at found
  exact (denotes_of_formulaWithin found).2

/-- What is found below a node is what its label denotes. -/
theorem outcome_formulaBelow_eq_ok_iff {index : Index} {label : String} {formula : Formula} :
    (index.formulaBelow label).outcome = .ok formula ↔ index.Denotes label formula :=
  ⟨fun h => (denotes_of_formulaWithin h).1, fun h => outcome_formulaWithin_of_denotes h h.depth_le⟩

theorem outcome_formula_eq_ok_iff {index : Index} {formula : Formula} :
    index.formula.outcome = .ok formula ↔
      ∃ root, index.root = some root ∧ index.Denotes root formula := by
  unfold Index.formula
  cases index.root with
  | none => simp
  | some root =>
      simp only [Attempt.outcome_bind_eq_ok_iff, Attempt.outcome_note,
        outcome_formulaBelow_eq_ok_iff, Option.some.injEq, exists_eq_left']
      simp

end FormulaExport.Index

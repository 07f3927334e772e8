import FormulaExport.Proofs.Formula.Search

/-!
# What a search consults

The kind of a node says in which fields its entries are looked up (`Kind.consulted`), and some of
these lead to further nodes. If no circle can be reached from the root, the search for the formula
comes to an end (`ends_of_noCircle`). Two indexes that agree on the entries of every label that can
be reached have the same formula (`formula_eq_of_agrees`), or both searches go on for ever.
-/

set_option autoImplicit false

namespace FormulaExport

/-- The fields in which the entries of a node of a kind are looked up. -/
def Kind.consulted : Kind → List Field
  | atom => [.relation, .vars]
  | negation => [.child]
  | quantifier _ => [.boundVar, .body]
  | connective _ => [.left, .right]
  | leaf => []

namespace Index

open Attempt

/-! ## Reachable labels -/

/-- The labels that can be reached from the root. -/
def Reaches (index : Index) (label : String) : Prop :=
  ∃ root, index.root = some root ∧ Relation.ReflTransGen index.Leads root label

def NoCircle (index : Index) : Prop :=
  ∀ label, index.Reaches label → ¬ Relation.TransGen index.Leads label label

/-- From a node no circle can be reached. -/
def NoCircleFrom (index : Index) (label : String) : Prop :=
  ∀ below, Relation.ReflTransGen index.Leads label below →
    ¬ Relation.TransGen index.Leads below below

/-- The search for the formula of an index comes to an end: there is a limit within which it is not
given up. -/
def Ends (index : Index) : Prop :=
  ∀ root, index.root = some root → ∃ limit, index.Settles limit root

variable {index other : Index} {label : String}

theorem Reaches.step {below : String} (h : index.Reaches label) (leads : index.Leads label below) :
    index.Reaches below := by
  obtain ⟨root, isRoot, path⟩ := h
  exact ⟨root, isRoot, path.tail leads⟩

theorem NoCircle.noCircleFrom (noCircle : index.NoCircle) (reached : index.Reaches label) :
    index.NoCircleFrom label := by
  intro below path
  obtain ⟨root, isRoot, front⟩ := reached
  exact noCircle below ⟨root, isRoot, front.trans path⟩

theorem NoCircleFrom.step {below : String} (noCircle : index.NoCircleFrom label)
    (leads : index.Leads label below) : index.NoCircleFrom below :=
  fun other path => noCircle other (path.head leads)

/-- If every entry leads down from one height to a lower one, there is no circle. -/
theorem noCircleFrom_of_height (height : String → ℕ)
    (lower : ∀ field ∈ [Field.child, .body, .left, .right],
      ∀ entry ∈ (index.pairs field).entries, height entry.2 < height entry.1) (label : String) :
    index.NoCircleFrom label := by
  have step : ∀ {label below}, index.Leads label below → height below < height label := by
    rintro label below ⟨field, leading, found⟩
    refine lower field ?_ (label, below) (OrderedMap.mem_entries_of_get? found)
    cases kind : Kind.of label <;> simp_all [Kind.leading]
  intro below _ circle
  have down : ∀ {behind}, Relation.TransGen index.Leads below behind →
      height behind < height below := by
    intro behind path
    induction path with
    | single leads => exact step leads
    | tail _ leads ih => exact (step leads).trans ih
  exact Nat.lt_irrefl _ (down circle)

/-! ## Searches without circles -/

theorem exists_leads_of_not_settles {limit : Nat} (early : ¬ index.Settles (limit + 1) label) :
    label ∈ index.innerLabels ∧
      ∃ below, index.Leads label below ∧ ¬ index.Settles limit below := by
  rw [Settles, not_not, formulaWithin_succ, circular_bind_iff] at early
  obtain ⟨node, found, given⟩ := early.resolve_left (index.not_circular_node label)
  obtain ⟨below, inside, given⟩ := Node.exists_circular given
  obtain ⟨isInner, leads⟩ := leads_of_node found inside
  exact ⟨isInner, below, leads, not_not.mpr given⟩

/-- The labels that a search without circles has come through are different and have entries, so it
is not given up before there are as many of them as there are entries. -/
theorem limit_le_of_noCircle {limit : Nat} {behind : List String}
    (noCircle : index.NoCircleFrom label) (nodup : behind.Nodup)
    (inner : ∀ earlier ∈ behind, earlier ∈ index.innerLabels)
    (path : ∀ earlier ∈ behind, Relation.TransGen index.Leads earlier label)
    (early : ¬ index.Settles limit label) :
    limit + behind.length ≤ index.innerLabels.length := by
  -- by the limit: with every step less there is one label more behind
  induction limit generalizing label behind with
  | zero =>
      have fits := (List.subperm_of_subset nodup inner).length_le
      omega
  | succ limit ih =>
      obtain ⟨inside, below, leads, early'⟩ := exists_leads_of_not_settles early
      -- the search never comes back to a label
      have new : label ∉ behind := fun old => noCircle label .refl (path label old)
      have longer := ih (noCircle.step leads) (List.nodup_cons.mpr ⟨new, nodup⟩)
        (List.forall_mem_cons.mpr ⟨inside, inner⟩)
        (List.forall_mem_cons.mpr
          ⟨.single leads, fun earlier old => (path earlier old).tail leads⟩) early'
      rw [List.length_cons] at longer
      omega

/-- If no circle can be reached from a label, the bound of the index settles it. -/
theorem settles_of_noCircle (noCircle : index.NoCircleFrom label) :
    index.Settles index.longestBranch label := by
  by_contra early
  have short := limit_le_of_noCircle noCircle List.nodup_nil nofun nofun early
  rw [longestBranch_eq, List.length_nil] at short
  omega

theorem ends_of_noCircle (noCircle : index.NoCircle) : index.Ends := by
  intro root isRoot
  exact ⟨_, settles_of_noCircle (noCircle.noCircleFrom ⟨root, isRoot, .refl⟩)⟩

/-! ## Agreement -/

/-- Two indexes have the same entry for a label in a field. -/
def SameEntry (index other : Index) (label : String) : Field → Prop
  | .vars => index.argumentsOf.get? label = other.argumentsOf.get? label
  | field => (index.pairs field).get? label = (other.pairs field).get? label

theorem sameEntry_of {field : Field}
    (inVars : field = .vars → index.argumentsOf.get? label = other.argumentsOf.get? label)
    (inPairs : field ≠ .vars → field ≠ .root →
      (index.pairs field).get? label = (other.pairs field).get? label) :
    index.SameEntry other label field := by
  unfold SameEntry
  split
  · exact inVars rfl
  · next notVars =>
    by_cases isRoot : field = .root
    · subst isRoot
      rfl
    · exact inPairs notVars isRoot

/-- Two indexes agree at a label if they have the same entries in all fields in which its entries
are looked up. -/
def AgreesAt (index other : Index) (label : String) : Prop :=
  ∀ field ∈ (Kind.of label).consulted, index.SameEntry other label field

theorem entry_congr {map map' : OrderedMap String String} (field : Field)
    (h : map.get? label = map'.get? label) : entry map field label = entry map' field label := by
  rw [entry, entry, h]

theorem node_congr (h : index.AgreesAt other label) : index.node label = other.node label := by
  unfold AgreesAt at h
  unfold Index.node
  split
  · next kind =>
    rw [kind] at h
    have relation : index.relationOf.get? label = other.relationOf.get? label :=
      h .relation List.mem_cons_self
    have arguments : index.argumentsOf.get? label = other.argumentsOf.get? label :=
      h .vars (List.mem_cons_of_mem _ List.mem_cons_self)
    rw [entry_congr _ relation, Index.arguments, Index.arguments, arguments]
  · next kind =>
    rw [kind] at h
    have child : index.childOf.get? label = other.childOf.get? label := h .child List.mem_cons_self
    rw [entry_congr _ child]
  · next kind =>
    rw [kind] at h
    have bound : index.boundOf.get? label = other.boundOf.get? label :=
      h .boundVar List.mem_cons_self
    have body : index.bodyOf.get? label = other.bodyOf.get? label :=
      h .body (List.mem_cons_of_mem _ List.mem_cons_self)
    rw [entry_congr _ bound, entry_congr _ body]
  · next kind =>
    rw [kind] at h
    have left : index.leftOf.get? label = other.leftOf.get? label := h .left List.mem_cons_self
    have right : index.rightOf.get? label = other.rightOf.get? label :=
      h .right (List.mem_cons_of_mem _ List.mem_cons_self)
    rw [entry_congr _ left, entry_congr _ right]
  · rfl

/-- Indexes that agree at all labels that can be reached find the same within every limit. -/
theorem formulaWithin_congr (h : ∀ label, index.Reaches label → index.AgreesAt other label)
    (limit : Nat) (reached : index.Reaches label) :
    index.formulaWithin limit label = other.formulaWithin limit label := by
  induction limit generalizing label with
  | zero => rfl
  | succ limit ih =>
      rw [formulaWithin_succ, formulaWithin_succ, node_congr (h label reached)]
      apply bind_congr_of_outcome
      intro node found
      rw [← node_congr (h label reached)] at found
      apply Node.formula_congr
      intro below inside
      exact ih (reached.step (leads_of_node found inside).2)

/-- Indexes in which every look-up finds the same have the same formula, or the same error, even if
their searches go in circles. -/
theorem formula_eq_of_sameEntry (sameRoot : index.root = other.root)
    (h : ∀ label field, index.SameEntry other label field) : index.formula = other.formula := by
  have inChild : index.childOf.size = other.childOf.size :=
    OrderedMap.size_eq_of_get? fun label => h label .child
  have inBody : index.bodyOf.size = other.bodyOf.size :=
    OrderedMap.size_eq_of_get? fun label => h label .body
  have inLeft : index.leftOf.size = other.leftOf.size :=
    OrderedMap.size_eq_of_get? fun label => h label .left
  -- the bound counts entries, so both searches are given up after as many steps
  have sameBound : index.longestBranch = other.longestBranch := by
    rw [longestBranch, longestBranch, inChild, inBody, inLeft]
  unfold Index.formula
  rw [← sameRoot]
  cases isRoot : index.root with
  | none => rfl
  | some root =>
      have same : index.formulaBelow root = other.formulaBelow root := by
        rw [formulaBelow, formulaBelow, ← sameBound]
        apply formulaWithin_congr
        · intro label _ field _
          exact h label field
        · exact ⟨root, isRoot, .refl⟩
      dsimp only
      rw [same]

theorem settles_congr (h : ∀ label, index.Reaches label → index.AgreesAt other label)
    (limit : Nat) (reached : index.Reaches label) :
    index.Settles limit label ↔ other.Settles limit label := by
  rw [Settles, Settles, formulaWithin_congr h limit reached]

/-- Of two indexes that agree at all labels that can be reached, the search of the one comes to an
end exactly if that of the other does. -/
theorem ends_congr (sameRoot : index.root = other.root)
    (h : ∀ label, index.Reaches label → index.AgreesAt other label) :
    index.Ends ↔ other.Ends := by
  constructor
  · intro ends root isRoot
    rw [← sameRoot] at isRoot
    obtain ⟨limit, settled⟩ := ends root isRoot
    exact ⟨limit, (settles_congr h limit ⟨root, isRoot, .refl⟩).mp settled⟩
  · intro ends root isRoot
    obtain ⟨limit, settled⟩ := ends root (sameRoot ▸ isRoot)
    exact ⟨limit, (settles_congr h limit ⟨root, isRoot, .refl⟩).mpr settled⟩

/-- Indexes that agree at all labels that can be reached have the same formula, or the same error,
if the search for it comes to an end. -/
theorem formula_eq_of_agrees (sameRoot : index.root = other.root)
    (h : ∀ label, index.Reaches label → index.AgreesAt other label) (ends : index.Ends) :
    index.formula = other.formula := by
  unfold Index.formula
  rw [← sameRoot]
  cases isRoot : index.root with
  | none => rfl
  | some root =>
      have reached : index.Reaches root := ⟨root, isRoot, .refl⟩
      obtain ⟨limit, settled⟩ := ends root isRoot
      have settled' := (settles_congr h limit reached).mp settled
      -- the bounds of the two indexes may differ, but this limit is enough for both searches
      have same : index.formulaBelow root = other.formulaBelow root := by
        calc index.formulaBelow root
            = index.formulaWithin limit root := settled.formulaBelow_eq
          _ = other.formulaWithin limit root := formulaWithin_congr h limit reached
          _ = other.formulaBelow root := settled'.formulaBelow_eq.symm
      dsimp only
      rw [same]

end Index

end FormulaExport

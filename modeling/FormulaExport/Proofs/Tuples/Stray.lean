import FormulaExport.Proofs.Conversion
import FormulaExport.Proofs.Formula.Reach
import FormulaExport.Proofs.Index.Parallel

/-!
# Stray tuples

The search for the formula of an export looks up a few entries of the labels that it reaches, and
nothing else (`Relations.Consults`). A tuple that is well formed but gives no such entry is **stray**:
it stands in a field without a meaning, its source is not reached, or the kind of its source has no
use for the field. Stray tuples, however many and wherever they stand, leave the index as it was for
every label that is reached (`Index.agrees_of_added`), and so they change no text.
-/

set_option autoImplicit false

namespace FormulaExport

open Attempt (Parallel)

namespace Relations

/-- The search for the formula of some relations looks up the entry of a label in a field: it can
reach the label, and the kind of the label asks for the field. -/
def Consults (relations : Relations) (field : Field) (label : String) : Prop :=
  ∃ index, (Index.build relations).outcome = .ok index ∧
    index.Reaches label ∧ field ∈ (Kind.of label).consulted

/-- A well-formed tuple of a field that is **not looked up**. A tuple of the field of roots is never
one of these. -/
inductive Stray (relations : Relations) : String → Tuple → Prop where
  | beyond {name : String} {tuple : Tuple} :
      (∀ field : Field, field.label ≠ name) → Stray relations name tuple
  | pair {field : Field} {source target : String} : field ≠ .vars → field ≠ .root →
      ¬ relations.Consults field source → Stray relations field.label [source, target]
  | argument {atom index label : String} {position : Position} :
      Position.ofLabel? index = some position → ¬ relations.Consults .vars atom →
        Stray relations Field.vars.label [atom, index, label]

/-- The search for the formula of some relations comes to an end, if they can be indexed. -/
def Ends (relations : Relations) : Prop :=
  ∀ index, (Index.build relations).outcome = .ok index → index.Ends

variable {relations other : Relations} {tuple : Tuple}

theorem Stray.exists_pair {field : Field} (notVars : field ≠ .vars)
    (h : relations.Stray field.label tuple) :
    ∃ pair, pair? tuple = some pair ∧ ¬ relations.Consults field pair.1 := by
  generalize named : field.label = name at h
  cases h with
  | beyond outside => exact absurd named (outside field)
  | @pair field' source target _ _ unused =>
      obtain rfl := Field.label_injective named
      exact ⟨(source, target), rfl, unused⟩
  | argument _ _ => exact absurd (Field.label_injective named) notVars

theorem Stray.exists_filling (h : relations.Stray Field.vars.label tuple) :
    ∃ filling, Filling.ofTuple? tuple = some filling ∧ ¬ relations.Consults .vars filling.atom := by
  generalize named : Field.vars.label = name at h
  cases h with
  | beyond outside => exact absurd named (outside .vars)
  | pair notVars _ _ => exact absurd (Field.label_injective named).symm notVars
  | @argument atom index label position found unused =>
      exact ⟨⟨atom, position, label⟩, Filling.ofTuple?_eq_some_iff.mpr ⟨index, rfl, found⟩, unused⟩

theorem not_stray_root : ¬ relations.Stray Field.root.label tuple := by
  intro h
  generalize named : Field.root.label = name at h
  cases h with
  | beyond outside => exact outside .root named
  | pair _ notRoot _ => exact notRoot (Field.label_injective named).symm
  | argument _ _ => cases Field.label_injective named

end Relations

/-! ## Indexes -/

section

variable {relations other : Relations}

/-- Stray tuples among the pairs of a field change no entry that is looked up. -/
theorem Index.pairs_of_added {field : Field} (notVars : field ≠ .vars)
    (added : AddedTo (relations.Stray field.label) (relations.tuples field.label)
      (other.tuples field.label)) :
    Parallel Eq (fun map map' : OrderedMap String String => ∀ label,
        relations.Consults field label → map.get? label = map'.get? label)
      (pairsOf relations field).outcome (pairsOf other field).outcome := by
  have get?_put (map : OrderedMap String String) (pair : String × String) (label : String) :
      (map.insert pair.1 pair.2).get? label =
        if pair.1 = label then some pair.2 else map.get? label :=
    map.get?_insert pair.1 label pair.2
  exact (tupleReader_addPairs field).parallel_of_unused Prod.fst (fun _ pair => pair.2) get?_put
    (fun _ stray => stray.exists_pair notVars) added ∅

theorem Index.arguments_of_added
    (added : AddedTo (relations.Stray Field.vars.label) (relations.tuples Field.vars.label)
      (other.tuples Field.vars.label)) :
    Parallel Eq (fun map map' : OrderedMap String Arguments => ∀ label,
        relations.Consults .vars label → map.get? label = map'.get? label)
      (addArguments ∅ (relations.tuples Field.vars.label)).outcome
      (addArguments ∅ (other.tuples Field.vars.label)).outcome :=
  tupleReader_addArguments.parallel_of_unused Filling.atom
    (fun before filling => (before.getD .unfilled).set filling.position (.ofLabel filling.label))
    get?_fill (fun _ stray => stray.exists_filling) added ∅

/-- Stray tuples change nothing at the labels that can be reached, and neither the root nor the
error if there is no index. -/
theorem Index.agrees_of_added
    (added : ∀ field : String,
      AddedTo (relations.Stray field) (relations.tuples field) (other.tuples field)) :
    Parallel Eq (fun index index' => index.root = index'.root ∧
        ∀ label, index.Reaches label → index.AgreesAt index' label)
      (build relations).outcome (build other).outcome := by
  have atRoot : Parallel Eq Eq (rootOf (relations.tuples Field.root.label)).outcome
      (rootOf (other.tuples Field.root.label)).outcome := by
    rw [(added Field.root.label).eq fun _ => Relations.not_stray_root]
    exact .refl (fun _ => rfl) (fun _ => rfl) _
  refine (parallel_build atRoot (arguments_of_added (added _)) fun field notVars _ =>
    pairs_of_added notVars (added _)).imp ?_
  rintro index index' built - ⟨sameRoot, inVars, inPairs⟩
  refine ⟨sameRoot, ?_⟩
  intro label reached field consulted
  -- what is reached in the index without stray tuples is what decides which tuples are stray
  have consults : relations.Consults field label := ⟨index, built, reached, consulted⟩
  apply sameEntry_of
  · rintro rfl
    exact inVars label consults
  · intro notVars notRoot
    exact inPairs field notVars notRoot label consults

theorem Relations.ends_iff_of_added
    (added : ∀ field : String,
      AddedTo (relations.Stray field) (relations.tuples field) (other.tuples field)) :
    relations.Ends ↔ other.Ends := by
  have parallel := Index.agrees_of_added added
  unfold Ends
  generalize (Index.build relations).outcome = built at parallel ⊢
  generalize (Index.build other).outcome = built' at parallel ⊢
  cases parallel with
  | error _ => exact ⟨nofun, nofun⟩ -- without an index there is no search
  | ok agree =>
      obtain ⟨sameRoot, agrees⟩ := agree
      have iff := Index.ends_congr sameRoot agrees
      simpa using iff

/-- Stray tuples change no text and no error, if the search comes to an end. -/
theorem Relations.texts_of_added
    (added : ∀ field : String,
      AddedTo (relations.Stray field) (relations.tuples field) (other.tuples field))
    (ends : relations.Ends) :
    relations.rawText.outcome = other.rawText.outcome ∧
      relations.canonicalText.outcome = other.canonicalText.outcome := by
  apply texts_of_outcome_formula
  apply outcome_formula_eq_of_parallel
  refine (Index.agrees_of_added added).imp ?_
  rintro index index' built - ⟨sameRoot, agrees⟩
  rw [Index.formula_eq_of_agrees sameRoot agrees (ends index built)]

theorem Relations.added_insert
    (added : ∀ field : String,
      AddedTo (relations.Stray field) (relations.tuples field) (other.tuples field))
    {name : String} {tuple : Tuple} (stray : relations.Stray name tuple) (field : String) :
    AddedTo (relations.Stray field) (relations.tuples field)
      ((other.insert name tuple).tuples field) := by
  rw [insert, tuples_extend]
  by_cases same : name = field
  · subst same
    rw [if_pos rfl]
    exact (added name).concat stray
  · rw [if_neg same]
    exact added field

end

/-! ## What is not reached -/

namespace Index

/-- The formula of an index depends on what can be reached alone: on the root, and on the entries
that the kinds of the labels below it ask for, if these do not lead in a circle. So the texts of an
export stay the same when stray tuples are added, and they do not keep the search from coming to an
end or bring it to one. -/
theorem formula_depends_on_reached :
    (∀ index other : Index, index.root = other.root →
        (∀ label, index.Reaches label → index.AgreesAt other label) → index.NoCircle →
          index.formula = other.formula) ∧
      (∀ index : Index, index.NoCircle → index.Ends) ∧
      ∀ relations other : Relations,
        (∀ field : String,
          AddedTo (relations.Stray field) (relations.tuples field) (other.tuples field)) →
        (relations.Ends ↔ other.Ends) ∧
          (relations.Ends → relations.rawText.outcome = other.rawText.outcome ∧
            relations.canonicalText.outcome = other.canonicalText.outcome) := by
  refine ⟨?_, ?_, ?_⟩
  · intro index other sameRoot agrees noCircle
    exact formula_eq_of_agrees sameRoot agrees (ends_of_noCircle noCircle)
  · intro index
    exact ends_of_noCircle
  · intro relations other added
    exact ⟨Relations.ends_iff_of_added added, Relations.texts_of_added added⟩

/-- The index of a negated leaf. -/
def negationIndex : Index where
  childOf := .ofList [("Not$0", "P")]
  root := some "Not$0"

/-- The same index with an entry for a negation that is not reached, and one in a field that
negations have no use for. -/
def negationIndexWithStray : Index where
  childOf := .ofList [("Not$0", "P"), ("Not$1", "Not$1")]
  leftOf := .ofList [("Not$0", "Not$1")]
  root := some "Not$0"

theorem leads_negationIndex {label below : String} (h : negationIndex.Leads label below) :
    label = "Not$0" ∧ below = "P" := by
  obtain ⟨field, -, found⟩ := h
  cases field with
  | child =>
      have entry : (if "Not$0" = label then some "P" else none) = some below := found
      split at entry
      · next same => exact ⟨same.symm, (Option.some.inj entry).symm⟩
      · cases entry
  | _ => cases found

theorem reaches_negationIndex {label : String} (h : negationIndex.Reaches label) :
    label = "Not$0" ∨ label = "P" := by
  obtain ⟨root, isRoot, path⟩ := h
  cases path with
  | refl => exact Or.inl (Option.some.inj isRoot).symm
  | tail _ leads => exact Or.inr (leads_negationIndex leads).2

theorem noCircle_negationIndex : negationIndex.NoCircle := by
  intro label _ circle
  obtain ⟨_, leads, -⟩ := Relation.TransGen.head'_iff.mp circle
  obtain ⟨_, -, leads'⟩ := Relation.TransGen.tail'_iff.mp circle
  have start := (leads_negationIndex leads).1
  have finish := (leads_negationIndex leads').2
  rw [start] at finish
  exact absurd finish (by decide)

/-- The export of a negated leaf. -/
def negationSample : Relations :=
  .ofList [("root", ["Root$0", "Not$0"]), ("child", ["Not$0", "P"])]

/-- The same export with three stray tuples. -/
def negationSampleWithStray : Relations :=
  ((negationSample.insert "child" ["Not$1", "Not$1"]).insert "left" ["Not$0", "Not$1"]).insert
    "comment" ["Not$0"]

theorem build_negationSample : (build negationSample).outcome = .ok negationIndex := by rfl

theorem added_negationSample (field : String) :
    AddedTo (negationSample.Stray field) (negationSample.tuples field)
      (negationSampleWithStray.tuples field) := by
  have notReached : negationSample.Stray Field.child.label ["Not$1", "Not$1"] := by
    refine .pair nofun nofun ?_
    rintro ⟨index, built, reached, -⟩
    rw [build_negationSample] at built
    obtain rfl := Except.ok.inj built
    exact absurd (reaches_negationIndex reached) (by decide)
  have notAsked : negationSample.Stray Field.left.label ["Not$0", "Not$1"] := by
    refine .pair nofun nofun ?_
    rintro ⟨index, -, -, asked⟩
    exact absurd asked (by decide)
  have unknown : negationSample.Stray "comment" ["Not$0"] := by
    refine .beyond ?_
    intro field
    cases field <;> decide
  have first := Relations.added_insert (fun _ => .refl _) notReached
  have second := Relations.added_insert first notAsked
  exact Relations.added_insert second unknown field

theorem formula_negationIndex :
    negationIndex.formula = negationIndexWithStray.formula ∧ negationIndex.Ends ∧
      (negationSample.Ends ∧ negationSampleWithStray.Ends) ∧
        negationSample.rawText.outcome = negationSampleWithStray.rawText.outcome ∧
          negationSample.canonicalText.outcome = negationSampleWithStray.canonicalText.outcome := by
  obtain ⟨sameFormula, noCircle_ends, added_texts⟩ := formula_depends_on_reached
  have ends := noCircle_ends negationIndex noCircle_negationIndex
  have agrees : ∀ label, negationIndex.Reaches label →
      negationIndex.AgreesAt negationIndexWithStray label := by
    intro label reached field asked
    rcases reaches_negationIndex reached with rfl | rfl
    · obtain rfl : field = .child := List.mem_singleton.mp asked
      rfl
    · cases asked
  have sampleEnds : negationSample.Ends := by
    intro index built
    rw [build_negationSample] at built
    obtain rfl := Except.ok.inj built
    exact ends
  obtain ⟨endsIff, texts⟩ := added_texts negationSample negationSampleWithStray added_negationSample
  exact ⟨sameFormula negationIndex negationIndexWithStray rfl agrees noCircle_negationIndex, ends,
    ⟨sampleEnds, endsIff.mp sampleEnds⟩, texts sampleEnds⟩

end Index

end FormulaExport

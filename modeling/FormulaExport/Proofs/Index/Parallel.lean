import Mathlib.Data.List.Perm.Basic
import FormulaExport.Proofs.Index.Build

/-!
# Two exports indexed in parallel

What two readers of tuples find is compared for the two ways in which their tuples are allowed to
differ: they stand in another order (`TupleReader.parallel_of_perm`), or there are further tuples
among them that make no difference (`TupleReader.parallel_of_added`), for instance because their
keys are never used (`TupleReader.parallel_of_unused`). If the fields of two exports are parallel one
by one, then so are their indexes (`parallel_build`).
-/

set_option autoImplicit false

namespace FormulaExport

open Attempt (Parallel)

/-! ## Tuples in another order -/

section

variable {α σ ε : Type} {read? : Tuple → Option α} {put : σ → α → σ}
  {run : σ → List Tuple → Except ε σ} {tuples tuples' : List Tuple} {values : List α}

theorem ReadAs.exists_perm (h : ReadAs read? tuples values) (perm : tuples.Perm tuples') :
    ∃ values', ReadAs read? tuples' values' ∧ values.Perm values' := by
  have readable : ∀ tuple ∈ tuples', ∃ value, read? tuple = some value := by
    intro tuple inside
    have known : read? tuple ∈ values.map some := by
      rw [← h]
      exact List.mem_map_of_mem (perm.mem_iff.mpr inside)
    obtain ⟨value, -, same⟩ := List.mem_map.mp known
    exact ⟨value, same.symm⟩
  obtain ⟨values', readAs⟩ := ReadAs.exists_of_forall readable
  have same : (values.map some).Perm (values'.map some) := by
    rw [← h, ← readAs]
    exact perm.map read?
  exact ⟨values', readAs, (List.map_perm_map_iff fun _ _ => Option.some.inj).mp same⟩

/-- If the order of the values makes no difference to what a reader puts in, then the order of the
tuples makes no difference to whether it fails and what it finds. -/
theorem TupleReader.parallel_of_perm (reader : TupleReader read? put run)
    (perm : tuples.Perm tuples') {alike : σ → σ → Prop} {state : σ}
    (same : ∀ values values', ReadAs read? tuples values → values.Perm values' →
      alike (values.foldl put state) (values'.foldl put state)) :
    Parallel (fun _ _ => True) alike (run state tuples) (run state tuples') := by
  cases found : run state tuples with
  | ok behind =>
      obtain ⟨values, readAs, rfl⟩ := reader.eq_ok_iff.mp found
      obtain ⟨values', readAs', perm'⟩ := readAs.exists_perm perm
      rw [reader.eq_ok_iff.mpr ⟨values', readAs', rfl⟩]
      exact .ok (same values values' readAs perm')
  | error error =>
      cases found' : run state tuples' with
      | error error' => exact .error trivial
      | ok behind =>
          -- then the tuples could be read in the other order too
          obtain ⟨values', readAs', rfl⟩ := reader.eq_ok_iff.mp found'
          obtain ⟨values, readAs, -⟩ := readAs'.exists_perm perm.symm
          rw [reader.eq_ok_iff.mpr ⟨values, readAs, rfl⟩] at found
          cases found

end

/-! ## Further tuples -/

/-- A list of tuples with further ones **added** anywhere among them. -/
inductive AddedTo (further : Tuple → Prop) : List Tuple → List Tuple → Prop where
  | nil : AddedTo further [] []
  | keep {tuple : Tuple} {tuples tuples' : List Tuple} :
      AddedTo further tuples tuples' → AddedTo further (tuple :: tuples) (tuple :: tuples')
  | add {tuple : Tuple} {tuples tuples' : List Tuple} :
      further tuple → AddedTo further tuples tuples' → AddedTo further tuples (tuple :: tuples')

namespace AddedTo

variable {further : Tuple → Prop} {tuples tuples' : List Tuple}

theorem refl (tuples : List Tuple) : AddedTo further tuples tuples := by
  induction tuples with
  | nil => exact .nil
  | cons tuple tuples ih => exact .keep ih

theorem concat (h : AddedTo further tuples tuples') {tuple : Tuple} (own : further tuple) :
    AddedTo further tuples (tuples' ++ [tuple]) := by
  induction h with
  | nil => exact .add own .nil
  | keep _ ih => exact .keep ih
  | add other _ ih => exact .add other ih

/-- If no tuple may be added, none was. -/
theorem eq (h : AddedTo further tuples tuples') (none : ∀ tuple, ¬ further tuple) :
    tuples' = tuples := by
  induction h with
  | nil => rfl
  | keep _ ih => rw [ih]
  | add own _ _ => exact absurd own (none _)

end AddedTo

/-- If further tuples can be read, and what they read as makes no difference, then they make no
difference to the error with which a reader fails, or to what it finds. -/
theorem TupleReader.parallel_of_added {α σ ε : Type} {read? : Tuple → Option α} {put : σ → α → σ}
    {run : σ → List Tuple → Except ε σ} (reader : TupleReader read? put run)
    {further : Tuple → Prop} {alike : σ → σ → Prop}
    (keep : ∀ state state' value, alike state state' → alike (put state value) (put state' value))
    (add : ∀ tuple, further tuple → ∃ value, read? tuple = some value ∧
      ∀ state state', alike state state' → alike state (put state' value))
    {tuples tuples' : List Tuple} (added : AddedTo further tuples tuples') {state state' : σ}
    (before : alike state state') :
    Parallel Eq alike (run state tuples) (run state' tuples') := by
  -- along the longer list; what was put in so far stays alike
  induction added generalizing state state' with
  | nil =>
      rw [reader.nil, reader.nil]
      exact .ok before
  | @keep tuple tuples tuples' _ ih =>
      cases found : read? tuple with
      | none =>
          obtain ⟨error, failed⟩ := reader.unread found
          rw [failed, failed]
          exact .error rfl
      | some value =>
          rw [reader.read found, reader.read found]
          exact ih (keep state state' value before)
  | @add tuple tuples tuples' own _ ih =>
      obtain ⟨value, found, ignored⟩ := add tuple own
      rw [reader.read found]
      exact ih (ignored state state' before)

/-- If what a tuple reads as goes under one key of a map, and what comes to stand there depends on
nothing but what stood there before, then tuples with unused keys make no difference under the keys
that are used. -/
theorem TupleReader.parallel_of_unused {α β ε : Type} {read? : Tuple → Option α}
    {put : OrderedMap String β → α → OrderedMap String β}
    {run : OrderedMap String β → List Tuple → Except ε (OrderedMap String β)}
    (reader : TupleReader read? put run) (key : α → String) (replaced : Option β → α → β)
    (get?_put : ∀ map value label, (put map value).get? label =
      if key value = label then some (replaced (map.get? label) value) else map.get? label)
    {further : Tuple → Prop} {used : String → Prop}
    (unused : ∀ tuple, further tuple → ∃ value, read? tuple = some value ∧ ¬ used (key value))
    {tuples tuples' : List Tuple} (added : AddedTo further tuples tuples')
    (known : OrderedMap String β) :
    Parallel Eq (fun map map' : OrderedMap String β =>
        ∀ label, used label → map.get? label = map'.get? label)
      (run known tuples) (run known tuples') := by
  refine reader.parallel_of_added ?keep ?add added fun _ _ => rfl
  case keep =>
    intro map map' value alike label isUsed
    rw [get?_put, get?_put, alike label isUsed]
  case add =>
    intro tuple own
    obtain ⟨value, found, notUsed⟩ := unused tuple own
    refine ⟨value, found, ?_⟩
    intro map map' alike label isUsed
    have different : key value ≠ label := by
      rintro rfl
      exact notUsed isUsed
    rw [get?_put, if_neg different, alike label isUsed]

/-! ## Indexes -/

namespace Index

/-- Exports whose fields are parallel one by one have parallel indexes. -/
theorem parallel_build {relations relations' : Relations} {causes : IndexError → IndexError → Prop}
    {arguments : OrderedMap String Arguments → OrderedMap String Arguments → Prop}
    {entries : Field → OrderedMap String String → OrderedMap String String → Prop}
    (atRoot : Parallel causes Eq (rootOf (relations.tuples Field.root.label)).outcome
      (rootOf (relations'.tuples Field.root.label)).outcome)
    (atVars : Parallel causes arguments
      (addArguments ∅ (relations.tuples Field.vars.label)).outcome
      (addArguments ∅ (relations'.tuples Field.vars.label)).outcome)
    (atPairs : ∀ field, field ≠ .vars → field ≠ .root →
      Parallel causes (entries field) (pairsOf relations field).outcome
        (pairsOf relations' field).outcome) :
    Parallel causes (fun index index' => index.root = index'.root ∧
        arguments index.argumentsOf index'.argumentsOf ∧
        ∀ field, field ≠ .vars → field ≠ .root → entries field (index.pairs field)
          (index'.pairs field))
      (build relations).outcome (build relations').outcome := by
  unfold build
  refine atRoot.bind fun root root' sameRoot => ?_
  refine (atPairs .relation nofun nofun).bind fun relationOf relationOf' inRelation => ?_
  refine atVars.bind fun argumentsOf argumentsOf' inVars => ?_
  refine (atPairs .boundVar nofun nofun).bind fun boundOf boundOf' inBound => ?_
  refine (atPairs .body nofun nofun).bind fun bodyOf bodyOf' inBody => ?_
  refine (atPairs .child nofun nofun).bind fun childOf childOf' inChild => ?_
  refine (atPairs .left nofun nofun).bind fun leftOf leftOf' inLeft => ?_
  refine (atPairs .right nofun nofun).bind fun rightOf rightOf' inRight => ?_
  exact .ok ⟨sameRoot, inVars, Field.forall_pairs inRelation inBound inBody inChild inLeft inRight⟩

end Index

end FormulaExport

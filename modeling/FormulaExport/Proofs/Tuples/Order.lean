import FormulaExport.Proofs.Conversion
import FormulaExport.Proofs.Formula.Reach
import FormulaExport.Proofs.Index.Parallel

/-!
# The order of tuples

Of several tuples that say something about one node the last one counts, and of several roots the
first one. In an export where no two tuples contradict each other (`Relations.Consistent`) the order
of the tuples makes no difference: both orders can be indexed or neither, every look-up finds the
same (`Index.sameEntry_of_perm`), and so the texts are the same.
-/

set_option autoImplicit false

namespace FormulaExport

open Attempt (Parallel)

/-! ## Exports without contradictions -/

/-- No two tuples **contradict** each other: there is one root at most, one target for every source
in a field, and one label for every argument of an atom, in whatever way its position is written. -/
structure Relations.Consistent (relations : Relations) : Prop where
  root : (relations.tuples Field.root.label).length ≤ 1
  target : ∀ {field : Field}, field ≠ .vars → field ≠ .root → ∀ {source target target' : String},
    [source, target] ∈ relations.tuples field.label →
      [source, target'] ∈ relations.tuples field.label → target = target'
  argument : ∀ {atom index index' label label' : String} {position : Position},
    [atom, index, label] ∈ relations.tuples Field.vars.label →
      [atom, index', label'] ∈ relations.tuples Field.vars.label →
        Position.ofLabel? index = some position → Position.ofLabel? index' = some position →
          label = label'

namespace Relations.Consistent

variable {relations : Relations}

theorem target_unique (consistent : relations.Consistent) {field : Field} (notVars : field ≠ .vars)
    (notRoot : field ≠ .root) {pairs : List (String × String)}
    (readAs : ReadAs pair? (relations.tuples field.label) pairs) :
    ∀ source target target', (source, target) ∈ pairs → (source, target') ∈ pairs →
      target = target' := by
  intro source target target' inside inside'
  obtain ⟨tuple, among, found⟩ := readAs.mem_iff.mp inside
  obtain ⟨tuple', among', found'⟩ := readAs.mem_iff.mp inside'
  obtain rfl := pair?_eq_some_iff.mp found
  obtain rfl := pair?_eq_some_iff.mp found'
  exact consistent.target notVars notRoot among among'

theorem label_unique (consistent : relations.Consistent) {fillings : List Filling}
    (readAs : ReadAs Filling.ofTuple? (relations.tuples Field.vars.label) fillings) :
    ∀ filling ∈ fillings, ∀ other ∈ fillings, other.atom = filling.atom →
      other.position = filling.position → other.label = filling.label := by
  rintro ⟨atom, position, label⟩ inside ⟨atom', position', label'⟩ inside' rfl rfl
  obtain ⟨tuple, among, found⟩ := readAs.mem_iff.mp inside
  obtain ⟨tuple', among', found'⟩ := readAs.mem_iff.mp inside'
  obtain ⟨index, rfl, atIndex⟩ := Filling.ofTuple?_eq_some_iff.mp found
  obtain ⟨index', rfl, atIndex'⟩ := Filling.ofTuple?_eq_some_iff.mp found'
  exact consistent.argument among' among atIndex' atIndex

end Relations.Consistent

/-! ## Indexes -/

section

variable {relations relations' : Relations}

theorem Relations.Consistent.roots_eq (consistent : relations.Consistent)
    (perm : (relations.tuples Field.root.label).Perm (relations'.tuples Field.root.label)) :
    relations.tuples Field.root.label = relations'.tuples Field.root.label := by
  have few := consistent.root
  generalize relations.tuples Field.root.label = roots at perm few
  match roots, few with
  | [], _ => exact perm.nil_eq
  | [root], _ => exact (List.perm_singleton.mp perm.symm).symm

/-- The order of the pairs of a field makes no difference to a look-up. -/
theorem Index.pairs_of_perm (consistent : relations.Consistent) {field : Field}
    (notVars : field ≠ .vars) (notRoot : field ≠ .root)
    (perm : (relations.tuples field.label).Perm (relations'.tuples field.label)) :
    Parallel (fun _ _ => True)
      (fun map map' : OrderedMap String String => ∀ label, map.get? label = map'.get? label)
      (pairsOf relations field).outcome (pairsOf relations' field).outcome := by
  apply (tupleReader_addPairs field).parallel_of_perm perm
  intro pairs pairs' readAs perm'
  exact OrderedMap.get?_insertAll_of_perm perm'
    (consistent.target_unique notVars notRoot readAs) ∅

theorem Index.arguments_of_perm (consistent : relations.Consistent)
    (perm : (relations.tuples Field.vars.label).Perm (relations'.tuples Field.vars.label)) :
    Parallel (fun _ _ => True)
      (fun map map' : OrderedMap String Arguments => ∀ label, map.get? label = map'.get? label)
      (addArguments ∅ (relations.tuples Field.vars.label)).outcome
      (addArguments ∅ (relations'.tuples Field.vars.label)).outcome := by
  apply tupleReader_addArguments.parallel_of_perm perm
  intro fillings fillings' readAs perm'
  exact get?_fillAll_of_perm perm' (consistent.label_unique readAs) ∅

/-- The order of tuples without contradictions makes no difference to any look-up in their index, or
to whether there is one. -/
theorem Index.sameEntry_of_perm
    (perm : ∀ field : String, (relations.tuples field).Perm (relations'.tuples field))
    (consistent : relations.Consistent) :
    Parallel (fun _ _ => True)
      (fun index index' => index.root = index'.root ∧
        ∀ label field, index.SameEntry index' label field)
      (build relations).outcome (build relations').outcome := by
  have atRoot : Parallel (fun _ _ => True) Eq
      (rootOf (relations.tuples Field.root.label)).outcome
      (rootOf (relations'.tuples Field.root.label)).outcome := by
    rw [← consistent.roots_eq (perm _)]
    exact .refl (fun _ => trivial) (fun _ => rfl) _
  refine (parallel_build atRoot (arguments_of_perm consistent (perm _)) fun _ notVars notRoot =>
    pairs_of_perm consistent notVars notRoot (perm _)).imp ?_
  rintro index index' - - ⟨sameRoot, inVars, inPairs⟩
  refine ⟨sameRoot, ?_⟩
  intro label field
  exact sameEntry_of (fun _ => inVars label) fun notVars notRoot =>
    inPairs field notVars notRoot label

end

/-! ## Lists of tuples -/

namespace Relations

theorem tuples_foldl_insert (relations : Relations) (entries : List (String × Tuple))
    (field : String) :
    (entries.foldl (fun relations entry => relations.insert entry.1 entry.2) relations).tuples field =
      relations.tuples field ++ (entries.filter fun entry => entry.1 = field).map Prod.snd := by
  induction entries generalizing relations with
  | nil => exact (List.append_nil _).symm
  | cons entry entries ih =>
      rw [List.foldl_cons, ih, insert, tuples_extend]
      by_cases same : entry.1 = field
      · rw [if_pos same, List.filter_cons_of_pos (by simpa using same), List.map_cons, same,
          List.append_assoc]
        rfl
      · rw [if_neg same, List.filter_cons_of_neg (by simpa using same)]

theorem tuples_ofList (entries : List (String × Tuple)) (field : String) :
    (ofList entries).tuples field =
      (entries.filter fun entry => entry.1 = field).map Prod.snd :=
  tuples_foldl_insert ∅ entries field

/-- Tuples that are added in another order stand in another order in every field. -/
theorem perm_tuples_ofList {entries entries' : List (String × Tuple)} (perm : entries.Perm entries')
    (field : String) : ((ofList entries).tuples field).Perm ((ofList entries').tuples field) := by
  rw [tuples_ofList, tuples_ofList]
  exact (perm.filter _).map Prod.snd

/-! ## Texts -/

/-- In two orders, tuples without contradictions can both not be indexed, or have the same texts, or
have no texts for the same reason. -/
theorem texts_of_perm {relations relations' : Relations}
    (perm : ∀ field : String, (relations.tuples field).Perm (relations'.tuples field))
    (consistent : relations.Consistent) :
    (∃ error error', (Index.build relations).outcome = .error error ∧
        (Index.build relations').outcome = .error error') ∨
      (relations.rawText.outcome = relations'.rawText.outcome ∧
        relations.canonicalText.outcome = relations'.canonicalText.outcome) := by
  have parallel := Index.sameEntry_of_perm perm consistent
  have formulas (h : Parallel Eq (fun index index' => index.formula.outcome = index'.formula.outcome)
      (Index.build relations).outcome (Index.build relations').outcome) :=
    texts_of_outcome_formula (outcome_formula_eq_of_parallel h)
  generalize (Index.build relations).outcome = built at parallel formulas ⊢
  generalize (Index.build relations').outcome = built' at parallel formulas ⊢
  cases parallel with
  | error _ => exact Or.inl ⟨_, _, rfl, rfl⟩
  | ok same =>
      obtain ⟨sameRoot, sameEntry⟩ := same
      have sameFormula := Index.formula_eq_of_sameEntry sameRoot sameEntry
      exact Or.inr (formulas (.ok (congrArg Attempt.outcome sameFormula)))

/-- The tuples of a quantified formula, with the first argument given twice. -/
def repeatedSample : List (String × Tuple) :=
  [("vars", ["Atom$0", "0", "V0$0"]), ("vars", ["Atom$0", "+1", "V1$0"]),
    ("vars", ["Atom$0", "00", "V0$0"]), ("relation", ["Atom$0", "E$3"]),
    ("bound_var", ["Forall$0", "V0$0"]), ("body", ["Forall$0", "Atom$0"]),
    ("root", ["Root$0", "Forall$0"])]

theorem consistent_repeatedSample : (ofList repeatedSample).Consistent where
  root := by decide
  target := by
    intro field notVars notRoot source target target' inside inside'
    cases field with
    | vars => exact absurd rfl notVars
    | root => exact absurd rfl notRoot
    | _ =>
        rw [tuples_ofList] at inside inside'
        simp_all [repeatedSample, Field.label]
  argument := by
    intro atom index index' label label' position inside inside' found found'
    have same : ∀ tuple ∈ (ofList repeatedSample).tuples Field.vars.label,
        ∀ tuple' ∈ (ofList repeatedSample).tuples Field.vars.label, tuple[0]? = tuple'[0]? →
          tuple[1]?.bind Position.ofLabel? = tuple'[1]?.bind Position.ofLabel? →
            tuple[2]? = tuple'[2]? := by decide
    exact Option.some.inj (same _ inside _ inside' rfl (found.trans found'.symm))

theorem texts_repeatedSample :
    (ofList repeatedSample).rawText.outcome = (ofList repeatedSample.reverse).rawText.outcome ∧
      (ofList repeatedSample).canonicalText.outcome =
        (ofList repeatedSample.reverse).canonicalText.outcome := by
  have found : (ofList repeatedSample).formula.outcome =
      .ok (.quantified .universal "V0$0" (.atom "E$3" ⟨.var "V0$0", .var "V1$0"⟩)) := by decide
  obtain ⟨index, built, -⟩ := outcome_formula_eq_ok_iff.mp found
  refine (texts_of_perm (perm_tuples_ofList (List.reverse_perm _).symm)
    consistent_repeatedSample).resolve_left ?_
  rintro ⟨error, -, failed, -⟩
  rw [built] at failed
  cases failed

end Relations

end FormulaExport

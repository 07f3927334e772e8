import Mathlib.Data.List.Forall2
import FormulaExport.Proofs.Formula.Token

/-!
# Formulas of the same shape

Two formulas correspond if they have the same shape and their labels are related place by place:
relation names in one way, variables and leaves in another. Two changes of labels make the same
formula of two formulas exactly if those correspond, with labels that are changed into the same one
(`Formula.mapLabels_eq_mapLabels_iff`).
-/

set_option autoImplicit false

namespace FormulaExport

/-! ## Labels that have a property -/

/-- The name of a term, if it has one, has a property. -/
def Term.Named (name : String → Prop) : Term → Prop
  | .var label => name label
  | .placeholder => True

/-- The relation names of a formula have one property, its variables and leaves another. -/
def Formula.Labelled (relation name : String → Prop) : Formula → Prop
  | .atom label arguments =>
    relation label ∧ arguments.first.Named name ∧ arguments.second.Named name
  | .negation inner => inner.Labelled relation name
  | .binary _ left right => left.Labelled relation name ∧ right.Labelled relation name
  | .quantified _ bound body => name bound ∧ body.Labelled relation name
  | .leaf label => name label

/-! ## Labels that are related -/

/-- Two terms **correspond** if both are placeholders or both have names, which are related. -/
inductive Term.Corresponds (name : String → String → Prop) : Term → Term → Prop where
  | var {label label' : String} : name label label' → Corresponds name (.var label) (.var label')
  | placeholder : Corresponds name .placeholder .placeholder

/-- Two formulas **correspond** if their shapes are the same and their labels are related. -/
inductive Formula.Corresponds (relation name : String → String → Prop) :
    Formula → Formula → Prop where
  | atom {label label' : String} {arguments arguments' : Arguments} : relation label label' →
      arguments.first.Corresponds name arguments'.first →
      arguments.second.Corresponds name arguments'.second →
      Corresponds relation name (.atom label arguments) (.atom label' arguments')
  | negation {inner inner' : Formula} : Corresponds relation name inner inner' →
      Corresponds relation name (.negation inner) (.negation inner')
  | binary {connective : Connective} {left left' right right' : Formula} :
      Corresponds relation name left left' → Corresponds relation name right right' →
      Corresponds relation name (.binary connective left right) (.binary connective left' right')
  | quantified {quantifier : Quantifier} {bound bound' : String} {body body' : Formula} :
      name bound bound' → Corresponds relation name body body' →
      Corresponds relation name (.quantified quantifier bound body)
        (.quantified quantifier bound' body')
  | leaf {label label' : String} : name label label' →
      Corresponds relation name (.leaf label) (.leaf label')

namespace Formula

variable {formula other : Formula}

section

variable {relation name : String → Prop}

theorem Labelled.imp {relation' name' : String → Prop} (h : formula.Labelled relation name)
    (ofRelation : ∀ label, relation label → relation' label)
    (ofName : ∀ label, name label → name' label) : formula.Labelled relation' name' := by
  have ofTerm : ∀ term : Term, term.Named name → term.Named name' := by
    intro term isNamed
    cases term with
    | var label => exact ofName label isNamed
    | placeholder => trivial
  induction formula with
  | atom label arguments => exact ⟨ofRelation _ h.1, ofTerm _ h.2.1, ofTerm _ h.2.2⟩
  | negation inner ih => exact ih h
  | binary connective left right ih ih' => exact ⟨ih h.1, ih' h.2⟩
  | quantified quantifier bound body ih => exact ⟨ofName _ h.1, ih h.2⟩
  | leaf label => exact ofName _ h

theorem labelled_mem_labels (formula : Formula) :
    formula.Labelled (· ∈ formula.labels) (· ∈ formula.labels) := by
  have ofTerm : ∀ (term : Term) {labels : List String},
      (∀ label ∈ term.token.label?, label ∈ labels) → term.Named (· ∈ labels) := by
    intro term labels inside
    cases term with
    | var label => exact inside label rfl
    | placeholder => trivial
  induction formula with
  | atom label arguments =>
      rw [labels_atom]
      refine ⟨List.mem_cons_self, ofTerm _ ?_, ofTerm _ ?_⟩
      · intro label inside
        exact List.mem_cons_of_mem _ (List.mem_append_left _ (Option.mem_toList.mpr inside))
      · intro label inside
        exact List.mem_cons_of_mem _ (List.mem_append_right _ (Option.mem_toList.mpr inside))
  | negation inner ih =>
      rw [labels_negation]
      exact ih
  | binary connective left right ih ih' =>
      rw [labels_binary]
      exact ⟨ih.imp (fun _ => List.mem_append_left _) fun _ => List.mem_append_left _,
        ih'.imp (fun _ => List.mem_append_right _) fun _ => List.mem_append_right _⟩
  | quantified quantifier bound body ih =>
      rw [labels_quantified]
      exact ⟨List.mem_cons_self,
        ih.imp (fun _ => List.mem_cons_of_mem _) fun _ => List.mem_cons_of_mem _⟩
  | leaf label => exact List.mem_singleton_self label

theorem Labelled.mapLabels {change : String → String}
    (h : formula.Labelled (fun label => relation (change label)) fun label => name (change label)) :
    (formula.mapLabels change).Labelled relation name := by
  have ofTerm : ∀ term : Term, (term.Named fun label => name (change label)) →
      (term.mapLabel change).Named name := by
    intro term isNamed
    cases term with
    | var label => exact isNamed
    | placeholder => trivial
  induction formula with
  | atom label arguments => exact ⟨h.1, ofTerm _ h.2.1, ofTerm _ h.2.2⟩
  | negation inner ih => exact ih h
  | binary connective left right ih ih' => exact ⟨ih h.1, ih' h.2⟩
  | quantified quantifier bound body ih => exact ⟨h.1, ih h.2⟩
  | leaf label => exact h

theorem Labelled.of_mem_labels (h : formula.Labelled relation name) :
    ∀ label ∈ formula.labels, relation label ∨ name label := by
  have ofTerm : ∀ term : Term, term.Named name → ∀ label ∈ term.token.label?, name label := by
    rintro (label | _) isNamed label' inside
    · cases inside
      exact isNamed
    · cases inside
  induction formula with
  | atom label arguments =>
      rw [labels_atom]
      intro label' inside
      rcases List.mem_cons.mp inside with rfl | inside
      · exact Or.inl h.1
      · rcases List.mem_append.mp inside with inside | inside
        · exact Or.inr (ofTerm _ h.2.1 _ (Option.mem_toList.mp inside))
        · exact Or.inr (ofTerm _ h.2.2 _ (Option.mem_toList.mp inside))
  | negation inner ih =>
      rw [labels_negation]
      exact ih h
  | binary connective left right ih ih' =>
      rw [labels_binary]
      exact List.forall_mem_append.mpr ⟨ih h.1, ih' h.2⟩
  | quantified quantifier bound body ih =>
      rw [labels_quantified]
      exact List.forall_mem_cons.mpr ⟨Or.inr h.1, ih h.2⟩
  | leaf label => exact List.forall_mem_singleton.mpr (Or.inr h)

end

section

variable {relation name : String → String → Prop}

/-- Formulas correspond in every way that follows, from the way they do and from the properties of
their labels. -/
theorem Corresponds.imp {relation' name' : String → String → Prop}
    {isRelation isName isRelation' isName' : String → Prop}
    (h : formula.Corresponds relation name other) (labelled : formula.Labelled isRelation isName)
    (labelled' : other.Labelled isRelation' isName')
    (ofRelation : ∀ label label', relation label label' → isRelation label →
      isRelation' label' → relation' label label')
    (ofName : ∀ label label', name label label' → isName label → isName' label' →
      name' label label') : formula.Corresponds relation' name' other := by
  have ofTerm : ∀ {term term' : Term}, term.Corresponds name term' → term.Named isName →
      term'.Named isName' → term.Corresponds name' term' := by
    rintro _ _ (related | _) isNamed isNamed'
    · exact .var (ofName _ _ related isNamed isNamed')
    · exact .placeholder
  induction h with
  | atom related first second =>
      exact .atom (ofRelation _ _ related labelled.1 labelled'.1)
        (ofTerm first labelled.2.1 labelled'.2.1) (ofTerm second labelled.2.2 labelled'.2.2)
  | negation _ ih => exact .negation (ih labelled labelled')
  | binary _ _ ih ih' =>
      exact .binary (ih labelled.1 labelled'.1) (ih' labelled.2 labelled'.2)
  | quantified related _ ih =>
      exact .quantified (ofName _ _ related labelled.1 labelled'.1) (ih labelled.2 labelled'.2)
  | leaf related => exact .leaf (ofName _ _ related labelled labelled')

theorem Corresponds.labels (h : formula.Corresponds relation name other) :
    List.Forall₂ (fun label label' => relation label label' ∨ name label label')
      formula.labels other.labels := by
  have ofTerm : ∀ {term term' : Term}, term.Corresponds name term' →
      List.Forall₂ (fun label label' => relation label label' ∨ name label label')
        term.token.label?.toList term'.token.label?.toList := by
    rintro _ _ (related | _)
    · exact .cons (Or.inr related) .nil
    · exact .nil
  induction h with
  | atom related first second =>
      rw [labels_atom, labels_atom]
      exact .cons (Or.inl related) (List.rel_append (ofTerm first) (ofTerm second))
  | negation _ ih =>
      rw [labels_negation, labels_negation]
      exact ih
  | binary _ _ ih ih' =>
      rw [labels_binary, labels_binary]
      exact List.rel_append ih ih'
  | quantified related _ ih =>
      rw [labels_quantified, labels_quantified]
      exact .cons (Or.inr related) ih
  | leaf related => exact .cons (Or.inr related) .nil

end

theorem Corresponds.exists_of_mem_labels {relation name : String → String → Prop}
    (h : formula.Corresponds relation name other) {label : String} (inside : label ∈ formula.labels) :
    ∃ label' ∈ other.labels, relation label label' ∨ name label label' := by
  have related := h.labels
  generalize formula.labels = labels at inside related
  generalize other.labels = labels' at related
  induction related with
  | nil => cases inside
  | cons one _ ih =>
      rcases List.mem_cons.mp inside with rfl | inside
      · exact ⟨_, List.mem_cons_self, one⟩
      · obtain ⟨label', inside', later⟩ := ih inside
        exact ⟨label', List.mem_cons_of_mem _ inside', later⟩

theorem mapLabel_eq_mapLabel_iff {change change' : String → String} {term term' : Term} :
    term.mapLabel change = term'.mapLabel change' ↔
      term.Corresponds (fun label label' => change label = change' label') term' := by
  constructor
  · intro h
    cases term with
    | var label =>
        cases term' with
        | var label' => exact .var (Term.var.inj h)
        | placeholder => cases h
    | placeholder =>
        cases term' with
        | var label' => cases h
        | placeholder => exact .placeholder
  · rintro (related | _)
    · exact congrArg Term.var related
    · rfl

/-- Changed labels make the same formula exactly if shapes and changed labels are the same. -/
theorem mapLabels_eq_mapLabels_iff {change change' : String → String} :
    formula.mapLabels change = other.mapLabels change' ↔
      formula.Corresponds (fun label label' => change label = change' label')
        (fun label label' => change label = change' label') other := by
  constructor
  · intro h
    induction formula generalizing other with
    | atom label arguments =>
        -- the other formula can only be of the same kind
        cases other <;> simp only [mapLabels, atom.injEq, Arguments.mk.injEq, reduceCtorEq] at h
        exact .atom h.1 (mapLabel_eq_mapLabel_iff.mp h.2.1) (mapLabel_eq_mapLabel_iff.mp h.2.2)
    | negation inner ih =>
        cases other <;> simp only [mapLabels, negation.injEq, reduceCtorEq] at h
        exact .negation (ih h)
    | binary connective left right ih ih' =>
        cases other <;> simp only [mapLabels, binary.injEq, reduceCtorEq] at h
        obtain ⟨rfl, onLeft, onRight⟩ := h
        exact .binary (ih onLeft) (ih' onRight)
    | quantified quantifier bound body ih =>
        cases other <;> simp only [mapLabels, quantified.injEq, reduceCtorEq] at h
        obtain ⟨rfl, atBound, below⟩ := h
        exact .quantified atBound (ih below)
    | leaf label =>
        cases other <;> simp only [mapLabels, leaf.injEq, reduceCtorEq] at h
        exact .leaf h
  · intro h
    induction h with
    | atom related first second =>
        rw [mapLabels, mapLabels, related, mapLabel_eq_mapLabel_iff.mpr first,
          mapLabel_eq_mapLabel_iff.mpr second]
    | negation _ ih => rw [mapLabels, mapLabels, ih]
    | binary _ _ ih ih' => rw [mapLabels, mapLabels, ih, ih']
    | quantified related _ ih => rw [mapLabels, mapLabels, related, ih]
    | leaf related => exact congrArg leaf related

end Formula

end FormulaExport

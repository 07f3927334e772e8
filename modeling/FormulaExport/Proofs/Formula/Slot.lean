import FormulaExport.Proofs.Formula.Correspondence

/-!
# Slots and scopes

A printed formula has a **slot** for each of its marks, relations and names, where the names are
those of variables and leaves (`Formula.slots`). An occurrence of a name in an atom or a leaf is
bound by the innermost quantifier around it with that variable (`Occurrence.binder?`). When labels
are changed, every slot and every occurrence is still there, with the changed label.
-/

set_option autoImplicit false

namespace FormulaExport

/-! ## Slots -/

/-- A **slot** in a printed formula: a mark of the printer, a relation, or the name of a variable or
a leaf. -/
inductive Slot where
  | mark (c : Char)
  | relation (label : String)
  | name (label : String)

namespace Slot

def token : Slot → Token
  | mark c => .mark c
  | relation label => .label label
  | name label => .label label

@[simp] theorem token_mark (c : Char) : (mark c).token = .mark c := rfl

@[simp] theorem token_relation (label : String) : (relation label).token = .label label := rfl

@[simp] theorem token_name (label : String) : (name label).token = .label label := rfl

def mapLabel (change : String → String) : Slot → Slot
  | mark c => mark c
  | relation label => relation (change label)
  | name label => name (change label)

end Slot

def Term.slot : Term → Slot
  | .var name => .name name
  | .placeholder => .mark '_'

def Formula.slots : Formula → List Slot
  | atom relation arguments =>
    [.relation relation, .mark '(', arguments.first.slot, .mark ',', .mark ' ',
      arguments.second.slot, .mark ')']
  | negation inner => .mark '¬' :: .mark '(' :: (inner.slots ++ [.mark ')'])
  | binary connective left right =>
    .mark '(' :: (left.slots ++ .mark ' ' :: .mark connective.sign :: .mark ' ' ::
      (right.slots ++ [.mark ')']))
  | quantified quantifier bound body =>
    .mark quantifier.sign :: .name bound :: .mark '.' :: .mark '(' :: (body.slots ++ [.mark ')'])
  | leaf label => [.name label]

/-! ## Scopes -/

/-- An **occurrence** of a name: its label, and the variables of the quantifiers around it, from the
innermost one outwards. -/
structure Occurrence where
  label : String
  scope : List String

namespace Occurrence

/-- Which of the quantifiers around an occurrence binds it, counted from the innermost one; none if
the occurrence is free. -/
def binder? (occurrence : Occurrence) : Option Nat :=
  occurrence.scope.idxOf? occurrence.label

/-- Changes the label of an occurrence and the variables around it. -/
def mapLabels (change : String → String) (occurrence : Occurrence) : Occurrence :=
  ⟨change occurrence.label, occurrence.scope.map change⟩

end Occurrence

/-- The occurrence of a name in a term, if it has one. -/
def Term.occurrences (scope : List String) : Term → List Occurrence
  | .var name => [⟨name, scope⟩]
  | .placeholder => []

namespace Formula

/-- The occurrences of names in the atoms and leaves of a formula, in printing order. -/
def occurrences (scope : List String) : Formula → List Occurrence
  | atom _ arguments => arguments.first.occurrences scope ++ arguments.second.occurrences scope
  | negation inner => inner.occurrences scope
  | binary _ left right => left.occurrences scope ++ right.occurrences scope
  | quantified _ bound body => body.occurrences (bound :: scope)
  | leaf label => [⟨label, scope⟩]

/-- The binders of a formula: for each occurrence of a name, the quantifier that binds it. -/
def binders (formula : Formula) : List (Option Nat) :=
  (formula.occurrences []).map Occurrence.binder?

/-! ## Changed labels -/

theorem token_slot (term : Term) : term.slot.token = term.token := by
  cases term <;> rfl

theorem map_token_slots (formula : Formula) : formula.slots.map Slot.token = formula.tokens := by
  induction formula with
  | atom relation arguments => simp [slots, tokens, token_slot]
  | negation inner ih => simp [slots, tokens, ih]
  | binary connective left right ih ih' => simp [slots, tokens, ih, ih']
  | quantified quantifier bound body ih => simp [slots, tokens, ih]
  | leaf label => rfl

theorem slot_mapLabel (change : String → String) (term : Term) :
    (term.mapLabel change).slot = term.slot.mapLabel change := by
  cases term <;> rfl

theorem slots_mapLabels (change : String → String) (formula : Formula) :
    (formula.mapLabels change).slots = formula.slots.map (Slot.mapLabel change) := by
  induction formula with
  | atom relation arguments => simp [mapLabels, slots, Slot.mapLabel, slot_mapLabel]
  | negation inner ih => simp [mapLabels, slots, Slot.mapLabel, ih]
  | binary connective left right ih ih' => simp [mapLabels, slots, Slot.mapLabel, ih, ih']
  | quantified quantifier bound body ih => simp [mapLabels, slots, Slot.mapLabel, ih]
  | leaf label => rfl

theorem occurrences_mapLabel (change : String → String) (scope : List String) (term : Term) :
    (term.mapLabel change).occurrences (scope.map change) =
      (term.occurrences scope).map (Occurrence.mapLabels change) := by
  cases term <;> rfl

theorem occurrences_mapLabels (change : String → String) (scope : List String) (formula : Formula) :
    (formula.mapLabels change).occurrences (scope.map change) =
      (formula.occurrences scope).map (Occurrence.mapLabels change) := by
  induction formula generalizing scope with
  | atom relation arguments =>
      rw [mapLabels, occurrences, occurrences, occurrences_mapLabel, occurrences_mapLabel,
        List.map_append]
  | negation inner ih => exact ih scope
  | binary connective left right ih ih' =>
      rw [mapLabels, occurrences, occurrences, ih, ih', List.map_append]
  | quantified quantifier bound body ih => exact ih (bound :: scope)
  | leaf label => rfl

/-- With changed labels an occurrence is bound by the innermost quantifier whose variable is changed
into the same label. -/
theorem binder?_mapLabels {change : String → String} {occurrence : Occurrence} {same : String → Bool}
    (h : ∀ bound ∈ occurrence.scope,
      change bound = change occurrence.label ↔ same bound = true) :
    (occurrence.mapLabels change).binder? = occurrence.scope.findIdx? same := by
  obtain ⟨label, scope⟩ := occurrence
  show (scope.map change).findIdx? (· == change label) = scope.findIdx? same
  induction scope with
  | nil => rfl
  | cons bound scope ih =>
      obtain ⟨first, rest⟩ := List.forall_mem_cons.mp h
      have atFirst : (change bound == change label) = same bound :=
        Bool.eq_iff_iff.mpr (beq_iff_eq.trans first)
      rw [List.map_cons, List.findIdx?_cons, List.findIdx?_cons, atFirst, ih rest]

/-! ## Labels in slots -/

variable {formula : Formula} {relation name : String → Prop}

theorem Labelled.of_mem_slots (h : formula.Labelled relation name) {label : String}
    (inside : .name label ∈ formula.slots) : name label := by
  have ofTerm : ∀ term : Term, term.Named name → .name label = term.slot → name label := by
    rintro (label' | _) isNamed same
    · cases same
      exact isNamed
    · cases same
  induction formula with
  | atom relation arguments =>
      simp only [slots, List.mem_cons, List.not_mem_nil, or_false, reduceCtorEq, false_or] at inside
      rcases inside with same | same
      · exact ofTerm _ h.2.1 same
      · exact ofTerm _ h.2.2 same
  | negation inner ih =>
      simp only [slots, List.mem_cons, List.mem_append, List.not_mem_nil, or_false, reduceCtorEq,
        false_or] at inside
      exact ih h inside
  | binary connective left right ih ih' =>
      simp only [slots, List.mem_cons, List.mem_append, List.not_mem_nil, or_false, reduceCtorEq,
        false_or] at inside
      rcases inside with inside | inside
      · exact ih h.1 inside
      · exact ih' h.2 inside
  | quantified quantifier bound body ih =>
      simp only [slots, List.mem_cons, List.mem_append, List.not_mem_nil, or_false, reduceCtorEq,
        false_or, Slot.name.injEq] at inside
      rcases inside with rfl | inside
      · exact h.1
      · exact ih h.2 inside
  | leaf label' =>
      cases List.mem_singleton.mp inside
      exact h

/-- The labels of occurrences, and the variables around them, have the property of the names. -/
theorem Labelled.of_mem_occurrences (h : formula.Labelled relation name) {scope : List String}
    (around : ∀ bound ∈ scope, name bound) {occurrence : Occurrence}
    (inside : occurrence ∈ formula.occurrences scope) :
    name occurrence.label ∧ ∀ bound ∈ occurrence.scope, name bound := by
  have ofTerm : ∀ (term : Term) {scope : List String}, term.Named name →
      (∀ bound ∈ scope, name bound) → occurrence ∈ term.occurrences scope →
        name occurrence.label ∧ ∀ bound ∈ occurrence.scope, name bound := by
    rintro (label | _) scope isNamed around inside
    · cases List.mem_singleton.mp inside
      exact ⟨isNamed, around⟩
    · cases inside
  induction formula generalizing scope with
  | atom relation arguments =>
      rcases List.mem_append.mp inside with inside | inside
      · exact ofTerm _ h.2.1 around inside
      · exact ofTerm _ h.2.2 around inside
  | negation inner ih => exact ih h around inside
  | binary connective left right ih ih' =>
      rcases List.mem_append.mp inside with inside | inside
      · exact ih h.1 around inside
      · exact ih' h.2 around inside
  | quantified quantifier bound body ih =>
      exact ih h.2 (List.forall_mem_cons.mpr ⟨h.1, around⟩) inside
  | leaf label =>
      cases List.mem_singleton.mp inside
      exact ⟨h, around⟩

end Formula

end FormulaExport

import FormulaExport.Proofs.Export.Document
import FormulaExport.Proofs.Export.Index

/-!
# Import inverts export

The tuples of an export may be written in any order, and those of a field in any number of elements
between the elements of other fields. Read back from the printed document, they give the formula
that was exported, so its two texts are the printed form of that formula and the canonical form of
it.
-/

set_option autoImplicit false

namespace FormulaExport.Export

open FormulaExport.Markup

/-- Groups of tuples hold an export if those of every field have its tuples, in any order. -/
def Holds (groups : List (Field × List Tuple)) (labelled : LabelledFormula) (first : String) :
    Prop :=
  ∀ field, (tuplesIn groups field).Perm (labelled.tuples first field)

theorem exportedTo_document {groups : List (Field × List Tuple)} {labelled : LabelledFormula}
    {first : String} (holds : Holds groups labelled first) :
    labelled.ExportedTo first (Instance.ofDocument (document groups)).value.relations := by
  intro field
  rw [tuples_document]
  exact holds field

/-- The printed document of an export is read, and its relations have the texts of the exported
formula, whatever labels its nodes were given and however its tuples were grouped. -/
theorem texts_of_read_print_document {groups : List (Field × List Tuple)}
    {labelled : LabelledFormula} {first : String} (holds : Holds groups labelled first)
    (distinct : labelled.labels.Nodup) (fits : labelled.Fits) :
    ∃ read, Document.read (document groups).print = .ok read ∧
      (Instance.ofDocument read).value.relations.rawText.outcome = .ok labelled.formula.print ∧
      (Instance.ofDocument read).value.relations.canonicalText.outcome =
        .ok (canonicalize labelled.formula.print).value := by
  have found := LabelledFormula.outcome_formula (exportedTo_document holds) distinct fits
  refine ⟨document groups, read_print_document groups, ?_, ?_⟩
  · exact Relations.outcome_rawText_eq_ok_iff.mpr ⟨_, found, rfl⟩
  · exact Relations.outcome_canonicalText_eq_ok_iff.mpr ⟨_, found, rfl⟩

/-- The universal quantification of a conjunction, with labels that markup has to escape. -/
def sample : LabelledFormula :=
  .quantified "Forall\"1\"" .universal "V<0>$0"
    (.binary "And&'" .conjunction
      (.atom "Atom\n" "E$0" ⟨.var "V<0>$0", .placeholder⟩)
      (.negation "Not$0" (.leaf "True<")))

/-- The tuples of the sample, out of order and in more elements than there are fields. -/
def sampleGroups : List (Field × List Tuple) :=
  [(.right, []), (.root, [["Root$0", "Forall\"1\""]]), (.child, [["Not$0", "True<"]]),
    (.right, [["And&'", "Not$0"]]), (.vars, [["Atom\n", "0", "V<0>$0"]]),
    (.left, [["And&'", "Atom\n"]]), (.child, []), (.relation, [["Atom\n", "E$0"]]),
    (.body, [["Forall\"1\"", "And&'"]]), (.boundVar, [["Forall\"1\"", "V<0>$0"]])]

theorem texts_of_read_print_sample :
    ∃ read, Document.read (document sampleGroups).print = .ok read ∧
      (Instance.ofDocument read).value.relations.rawText.outcome = .ok sample.formula.print ∧
      (Instance.ofDocument read).value.relations.canonicalText.outcome =
        .ok (canonicalize sample.formula.print).value := by
  have holds : Holds sampleGroups sample "Root$0" := by
    intro field
    cases field <;> decide
  refine texts_of_read_print_document holds (by decide) ?_
  · intro node inside
    simp only [sample, LabelledFormula.nodes, List.mem_cons, List.mem_append, List.not_mem_nil,
      or_false] at inside
    rcases inside with rfl | rfl | rfl | rfl | rfl
    case inr.inr.inl =>
      refine ⟨by decide, ?_⟩
      intro position
      cases position <;> decide
    all_goals exact ⟨by decide, trivial⟩

end FormulaExport.Export

import FormulaExport.Conversion
import FormulaExport.Proofs.Formula.Denotation

/-!
# When relations have a text

Relations describe the formula that the root of their index denotes, and their two texts are its
printed form and the canonical form of that.
-/

set_option autoImplicit false

namespace FormulaExport.Relations

variable {relations : Relations}

theorem outcome_formula_eq_ok_iff {formula : Formula} :
    relations.formula.outcome = .ok formula ↔
      ∃ index, (Index.build relations).outcome = .ok index ∧
        ∃ root, index.root = some root ∧ index.Denotes root formula := by
  simp only [Relations.formula, Attempt.outcome_bind_eq_ok_iff, Attempt.outcome_adapt_eq_ok_iff,
    Index.outcome_formula_eq_ok_iff]

theorem outcome_rawText_eq_ok_iff {text : String} :
    relations.rawText.outcome = .ok text ↔
      ∃ formula, relations.formula.outcome = .ok formula ∧ formula.print = text := by
  simp only [rawText, Attempt.outcome_bind_eq_ok_iff, Attempt.outcome_note, Attempt.outcome_pure,
    Except.ok.injEq, true_and, exists_const]

theorem outcome_canonicalText_eq_ok_iff {text : String} :
    relations.canonicalText.outcome = .ok text ↔
      ∃ formula, relations.formula.outcome = .ok formula ∧
        (canonicalize formula.print).value = text := by
  simp only [canonicalText, Attempt.outcome_bind_eq_ok_iff, outcome_rawText_eq_ok_iff,
    Attempt.outcome_lift, Except.ok.injEq]
  constructor
  · rintro ⟨_, ⟨formula, found, rfl⟩, canonical⟩
    exact ⟨formula, found, canonical⟩
  · rintro ⟨formula, found, canonical⟩
    exact ⟨_, ⟨formula, found, rfl⟩, canonical⟩

/-! ## Two relations -/

variable {relations' : Relations}

theorem texts_of_outcome_formula (h : relations.formula.outcome = relations'.formula.outcome) :
    relations.rawText.outcome = relations'.rawText.outcome ∧
      relations.canonicalText.outcome = relations'.canonicalText.outcome := by
  have raw : relations.rawText.outcome = relations'.rawText.outcome := by
    simp only [rawText, Attempt.outcome_bind, Attempt.outcome_note, Attempt.outcome_pure, h]
  constructor
  · exact raw
  · simp only [canonicalText, Attempt.outcome_bind, Attempt.outcome_lift, raw]

/-- Relations have the same formula, or the same error, if their indexes do. -/
theorem outcome_formula_eq_of_parallel
    (h : Attempt.Parallel Eq (fun index index' => index.formula.outcome = index'.formula.outcome)
      (Index.build relations).outcome (Index.build relations').outcome) :
    relations.formula.outcome = relations'.formula.outcome := by
  simp only [formula, Attempt.outcome_bind, Attempt.outcome_adapt]
  generalize (Index.build relations).outcome = built at h ⊢
  generalize (Index.build relations').outcome = built' at h ⊢
  cases h with
  | error same => rw [same]
  | @ok index index' same =>
      show index.formula.outcome.mapError ConversionError.reconstruction =
        index'.formula.outcome.mapError ConversionError.reconstruction
      rw [same]

end FormulaExport.Relations

import FormulaExport.Proofs.Conversion
import FormulaExport.Proofs.Isomorphism.Index

/-!
# The text of a relabelled export

The canonical text of an export does not depend on the labels of its nodes and identifiers: a
relabelled export has the same one, as long as there are letters for all identifiers.
-/

set_option autoImplicit false

namespace FormulaExport.Relabelling

variable {relabelling : Relabelling} {relations relations' : Relations}

/-- A relabelled export describes a formula with names exchanged. -/
theorem exists_exchanged (proper : relabelling.Proper relations)
    (relates : relabelling.Relates relations relations') {formula : Formula}
    (h : relations.formula.outcome = .ok formula) :
    ∃ formula', relations'.formula.outcome = .ok formula' ∧
      formula.Exchanged relabelling.identifier formula' ∧
        ∀ label ∈ formula.labels, label ∈ relations.names := by
  obtain ⟨index, built, root, atRoot, denotes⟩ := Relations.outcome_formula_eq_ok_iff.mp h
  obtain ⟨index', built', related⟩ := exists_relatesIndex proper relates built
  obtain ⟨occurs, atRoot'⟩ := related.root root atRoot
  obtain ⟨formula', denotes', corresponds⟩ := related.denotes proper denotes occurs
  refine ⟨formula', Relations.outcome_formula_eq_ok_iff.mpr ⟨index', built', _, atRoot', denotes'⟩,
    ?_, ?_⟩
  · refine corresponds.imp formula.labelled_mem_labels formula'.labelled_mem_labels ?_ ?_
    · rintro label label' ⟨-, both | same⟩ - -
      · exact Or.inl ⟨Or.inr both.1, Or.inr both.2⟩
      · exact Or.inr same
    · rintro label label' ⟨-, same⟩ - -
      exact same
  · intro label inside
    obtain ⟨label', -, among | among⟩ := corresponds.exists_of_mem_labels inside
    · exact among.1
    · exact among.1

/-- Exports that are isomorphic have the same canonical text. -/
theorem outcome_canonicalText (proper : relabelling.Proper relations)
    (relates : relabelling.Relates relations relations') {text : String}
    (h : relations.canonicalText.outcome = .ok text)
    (enough : ∀ identifier,
      Diagnostic.outOfLetters identifier ∉ relations.canonicalText.log) :
    relations'.canonicalText.outcome = .ok text := by
  obtain ⟨formula, found, canonical⟩ := Relations.outcome_canonicalText_eq_ok_iff.mp h
  obtain ⟨formula', found', isExchanged, among⟩ := exists_exchanged proper relates found
  have whole : ∀ label ∈ formula.labels, IsWhole label := fun label inside =>
    proper.whole label (among label inside)
  have amongIdentifiers : ∀ identifier ∈ formula.identifiers,
      identifier ∈ relations.names ∧ IsIdentifier identifier.toList := by
    intro identifier inside
    obtain ⟨inside, isIdentifier⟩ := List.mem_filter.mp inside
    exact ⟨among identifier inside, of_decide_eq_true isIdentifier⟩
  have raw : relations.rawText.outcome = .ok formula.print :=
    Relations.outcome_rawText_eq_ok_iff.mpr ⟨formula, found, rfl⟩
  -- an identifier without a letter would have been reported
  have letters : ∀ identifier ∈ formula.identifiers,
      ∃ letter, letterIn formula.identifiers identifier = some letter := by
    rw [← Formula.named_eq_identifiers whole]
    intro identifier inside
    refine Option.ne_none_iff_exists'.mp fun nothing => enough identifier ?_
    rw [Relations.canonicalText, Attempt.log_bind, raw]
    exact List.mem_append_right _
      (Formula.outOfLetters_mem_log_canonicalize_iff.mpr ⟨inside, nothing⟩)
  have same : formula.canonical = formula'.canonical := by
    refine isExchanged.canonical_eq whole ?_ ?_ letters
    · exact proper.identifiers.mono amongIdentifiers
    · exact fun identifier inside =>
        proper.isIdentifier identifier (amongIdentifiers identifier inside).1
          (amongIdentifiers identifier inside).2
  refine Relations.outcome_canonicalText_eq_ok_iff.mpr ⟨formula', found', ?_⟩
  calc (canonicalize formula'.print).value
      = collapseQuantifiers formula'.canonical.print := formula'.canonicalize_print
    _ = collapseQuantifiers formula.canonical.print := by rw [same]
    _ = (canonicalize formula.print).value := formula.canonicalize_print.symm
    _ = text := canonical

/-- An export of a conjunction whose two sides are one node, with a variable that is replaced. -/
def sample (conjunction atom relation replaced name : String) : Relations :=
  .ofList [("root", ["Root$0", conjunction]), ("left", [conjunction, atom]),
    ("right", [conjunction, atom]), ("vars", [atom, "0", replaced]), ("relation", [atom, relation]),
    ("vars", [atom, "0", name])]

/-- A relabelling of the sample. -/
def sampleRelabelling : Relabelling where
  node label := if label = "And$0" then "And$7" else "Atom$4"
  identifier label := if label = "V0$0" then "V6$6" else "V5$5"

theorem proper_sampleRelabelling :
    sampleRelabelling.Proper (sample "And$0" "Atom$0" "E$3" "V0$0" "V1$1") where
  kind := by decide
  nodes := by
    have different : ∀ label ∈ (sample "And$0" "Atom$0" "E$3" "V0$0" "V1$1").innerNodes,
        ∀ label' ∈ (sample "And$0" "Atom$0" "E$3" "V0$0" "V1$1").innerNodes,
          sampleRelabelling.node label = sampleRelabelling.node label' → label = label' := by
      decide
    exact fun label inside label' inside' => different label inside label' inside'
  isIdentifier := by decide
  identifiers := by
    have different : ∀ label ∈ (sample "And$0" "Atom$0" "E$3" "V0$0" "V1$1").names,
        IsIdentifier label.toList →
          ∀ label' ∈ (sample "And$0" "Atom$0" "E$3" "V0$0" "V1$1").names,
            IsIdentifier label'.toList → sampleRelabelling.identifier label =
              sampleRelabelling.identifier label' → label = label' := by
      decide
    exact fun label inside label' inside' =>
      different label inside.1 inside.2 label' inside'.1 inside'.2
  whole := by decide

theorem outcome_canonicalText_sample :
    (sample "And$7" "Atom$4" "E$9" "V6$6" "V5$5").canonicalText.outcome =
      (sample "And$0" "Atom$0" "E$3" "V0$0" "V1$1").canonicalText.outcome := by
  have found : (sample "And$0" "Atom$0" "E$3" "V0$0" "V1$1").formula.outcome =
      .ok (.binary .conjunction (.atom "E$3" ⟨.var "V1$1", .placeholder⟩)
        (.atom "E$3" ⟨.var "V1$1", .placeholder⟩)) := by decide
  have text := Relations.outcome_canonicalText_eq_ok_iff.mpr ⟨_, found, rfl⟩
  have raw := Relations.outcome_rawText_eq_ok_iff.mpr ⟨_, found, rfl⟩
  rw [text]
  refine outcome_canonicalText proper_sampleRelabelling ?_ text ?_
  · intro field
    cases field with
    | vars =>
        exact .cons (.column rfl (.column rfl (.column rfl (.beyond _))))
          (.cons (.column rfl (.column rfl (.column rfl (.beyond _)))) .nil)
    | relation => exact .cons (.column rfl (.column (Or.inl (by decide)) (.beyond _))) .nil
    | left => exact .cons (.column rfl (.column rfl (.beyond _))) .nil
    | right => exact .cons (.column rfl (.column rfl (.beyond _))) .nil
    | root => exact .cons (.column trivial (.column rfl (.beyond _))) .nil
    | boundVar => exact .nil
    | body => exact .nil
    | child => exact .nil
  · intro identifier reported
    rw [Relations.canonicalText, Attempt.log_bind, raw] at reported
    -- nothing of the kind is reported before the text is renamed
    rcases List.mem_append.mp reported with early | late
    · have log : (sample "And$0" "Atom$0" "E$3" "V0$0" "V1$1").rawText.log =
          [.replacedArgument "Atom$0" 0 "V0$0" "V1$1", .indexed 1 0 0 1, .reconstructing "And$0",
            .unfilledArgument "Atom$0", .unfilledArgument "Atom$0", .reconstructed 2] := by
        decide
      rw [log] at early
      simp at early
    · obtain ⟨inside, nothing⟩ := Formula.outOfLetters_mem_log_canonicalize_iff.mp late
      rw [Formula.named_eq_identifiers (by decide)] at inside nothing
      obtain ⟨letter, known, -⟩ := exists_letterIn (by decide) inside
      rw [known] at nothing
      cases nothing

end FormulaExport.Relabelling

import FormulaExport.Program
import FormulaExport.Proofs.Attempt
import FormulaExport.Proofs.Export.Import
import FormulaExport.Proofs.Files.Collect

/-!
# Batches of files

The command `render` on several inputs is a run over the files they stand for. `Outcome.andThen`
puts runs one behind the other and is associative, so a run over two lists of files is the run over
the first followed by the run over the second, unless the first one fails. What a run writes and
whether it fails is decided by the formulas of its files alone (`Workspace.formulaOf?`): every file
before the first without a formula has its line.
-/

set_option autoImplicit false

namespace FormulaExport

open FormulaExport.Markup
open FormulaExport.CommandLine

/-! ## Runs one behind the other -/

namespace Outcome

variable {first : Outcome}

theorem andThen_of_failure {failure : Failure} (second : Unit → Outcome)
    (h : first.failure = some failure) : first.andThen second = first := by
  obtain ⟨output, log, _⟩ := first
  subst h
  rfl

theorem andThen_of_none (second : Unit → Outcome) (h : first.failure = none) :
    first.andThen second =
      ⟨first.output ++ (second ()).output, first.log ++ (second ()).log, (second ()).failure⟩ := by
  rw [andThen, h]

@[simp] theorem silent_andThen (second : Unit → Outcome) : silent.andThen second = second () := by
  rw [andThen_of_none second rfl]
  simp [silent]

@[simp] theorem andThen_silent (first : Outcome) : (first.andThen fun _ => silent) = first := by
  cases h : first.failure with
  | some failure => exact andThen_of_failure _ h
  | none =>
      rw [andThen_of_none _ h]
      obtain ⟨output, log, _⟩ := first
      subst h
      simp [silent]

theorem andThen_assoc (first : Outcome) (second third : Unit → Outcome) :
    (first.andThen second).andThen third = first.andThen fun _ => (second ()).andThen third := by
  cases h : first.failure with
  | some failure =>
      rw [andThen_of_failure second h, andThen_of_failure third h, andThen_of_failure _ h]
  | none =>
      rw [andThen_of_none second h, andThen_of_none _ h]
      cases h' : (second ()).failure with
      | some failure =>
          rw [andThen_of_failure third h', andThen_of_failure third rfl]
          rw [h']
      | none =>
          rw [andThen_of_none third h', andThen_of_none third rfl]
          simp [String.append_assoc]

theorem status_eq_zero_iff : first.status = 0 ↔ first.failure = none := by
  unfold status
  cases first.failure with
  | none => simp
  | some failure => simp

theorem output_ofAttempt (attempt : Attempt Failure String) :
    (ofAttempt attempt).output = attempt.outcome.toOption.getD "" := by
  unfold ofAttempt
  cases attempt.outcome <;> rfl

theorem status_ofAttempt (attempt : Attempt Failure String) :
    (ofAttempt attempt).status = if attempt.outcome.toOption.isSome then 0 else 1 := by
  unfold ofAttempt
  cases attempt.outcome <;> rfl

end Outcome

/-! ## The formula of a text -/

/-- The printed formula of the export that a text holds, raw or canonical. -/
def formulaIn? (raw : Bool) (text : String) : Option String :=
  (Document.read text).toOption.bind fun document =>
    let relations := (Instance.ofDocument document).value.relations
    (if raw then relations.rawText else relations.canonicalText).outcome.toOption

/-- The printed formula of the file at a path. -/
def Workspace.formulaOf? (workspace : Workspace) (raw : Bool) (path : String) : Option String :=
  (workspace.read path).toOption.bind (formulaIn? raw)

/-- The lines of the files before the first one without a formula. -/
def Workspace.linesOf (workspace : Workspace) (raw : Bool) (paths : List String) : List String :=
  ((paths.takeWhile fun path => (workspace.formulaOf? raw path).isSome).filterMap
    (workspace.formulaOf? raw)).map (· ++ "\n")

theorem toOption_outcome_instanceOf (surroundings : Surroundings) (source : Source) :
    (surroundings.instanceOf source).outcome.toOption =
      (surroundings.textOf source).toOption.bind fun text =>
        (Document.read text).toOption.map fun document =>
          (Instance.ofDocument document).value := by
  unfold Surroundings.instanceOf
  cases surroundings.textOf source with
  | error error => rfl
  | ok text =>
      dsimp only [Except.toOption, Option.bind_some]
      cases Document.read text <;> rfl

theorem toOption_outcome_convert (source : Source) (raw : Bool) (found : Instance) :
    (convert source raw found).outcome.toOption =
      (if raw then found.relations.rawText else found.relations.canonicalText).outcome.toOption :=
  Attempt.toOption_outcome_adapt _ _

theorem toOption_outcome_formulaLine (surroundings : Surroundings) (raw : Bool) (source : Source) :
    (formulaLine surroundings raw source).outcome.toOption =
      ((surroundings.textOf source).toOption.bind (formulaIn? raw)).map (· ++ "\n") := by
  rw [formulaLine, Attempt.toOption_outcome_bind, toOption_outcome_instanceOf]
  simp only [Attempt.toOption_outcome_bind, toOption_outcome_convert, Attempt.outcome_pure]
  rw [Option.bind_assoc, Option.map_bind]
  refine Option.bind_congr ?_
  intro text _
  show ((Document.read text).toOption.map _).bind _ = (formulaIn? raw text).map _
  rw [formulaIn?, Option.bind_map, Option.map_bind]
  refine Option.bind_congr ?_
  intro document _
  exact Option.map_eq_bind.symm

/-! ## Files one after the other -/

section

variable (surroundings : Surroundings) (raw : Bool)

/-- A run over two lists of files is the one run after the other. -/
theorem renderFiles_append (a b : List String) :
    renderFiles surroundings raw (a ++ b) =
      (renderFiles surroundings raw a).andThen fun _ => renderFiles surroundings raw b := by
  induction a with
  | nil => exact (Outcome.silent_andThen fun _ => renderFiles surroundings raw b).symm
  | cons path paths ih =>
      rw [List.cons_append, renderFiles, renderFiles, Outcome.andThen_assoc]
      simp only [ih]

/-- Reporting a file before it is converted changes nothing in what it yields. -/
theorem toOption_outcome_renderFile (path : String) :
    (Attempt.outcome do
      Traced.note (.converting path)
      formulaLine surroundings raw (.path path)).toOption =
      (surroundings.workspace.formulaOf? raw path).map (· ++ "\n") := by
  rw [Attempt.toOption_outcome_bind, Attempt.outcome_note]
  exact toOption_outcome_formulaLine surroundings raw (.path path)

theorem output_renderFile (path : String) :
    (renderFile surroundings raw path).output =
      ((surroundings.workspace.formulaOf? raw path).map (· ++ "\n")).getD "" := by
  rw [renderFile, Outcome.output_ofAttempt, toOption_outcome_renderFile]

theorem status_renderFile (path : String) :
    (renderFile surroundings raw path).status =
      if (surroundings.workspace.formulaOf? raw path).isSome then 0 else 1 := by
  rw [renderFile, Outcome.status_ofAttempt, toOption_outcome_renderFile, Option.isSome_map]

/-- The run over several files writes the lines of those before the first failure, and fails unless
all of them have a formula. -/
theorem renderFiles_lines (paths : List String) :
    (renderFiles surroundings raw paths).output =
        String.join (surroundings.workspace.linesOf raw paths) ∧
      ((renderFiles surroundings raw paths).status = 0 ↔
        ∀ path ∈ paths, (surroundings.workspace.formulaOf? raw path).isSome) := by
  induction paths with
  | nil => exact ⟨rfl, by simp [renderFiles, Outcome.status, Outcome.silent]⟩
  | cons path paths ih =>
      obtain ⟨output, status⟩ := ih
      have ownOutput := output_renderFile surroundings raw path
      have ownStatus := status_renderFile surroundings raw path
      rw [renderFiles, Workspace.linesOf, List.forall_mem_cons]
      cases found : surroundings.workspace.formulaOf? raw path with
      | none =>
          rw [found] at ownOutput ownStatus
          have failed : (renderFile surroundings raw path).failure ≠ none := by
            intro none
            rw [Outcome.status_eq_zero_iff.mpr none] at ownStatus
            simp at ownStatus
          obtain ⟨failure, failed⟩ := Option.ne_none_iff_exists'.mp failed
          -- so this file writes nothing, and the run stops
          rw [Outcome.andThen_of_failure _ failed, List.takeWhile_cons_of_neg (by simp [found])]
          rw [ownOutput, ownStatus]
          simp
      | some formula =>
          rw [found] at ownOutput ownStatus
          have succeeded := Outcome.status_eq_zero_iff.mp ownStatus
          rw [Outcome.andThen_of_none _ succeeded, List.takeWhile_cons_of_pos (by simp [found]),
            List.filterMap_cons_some found, List.map_cons, String.join_cons]
          constructor
          · show _ ++ _ = _
            rw [ownOutput, output]
            rfl
          · rw [Outcome.status_eq_zero_iff] at status ⊢
            simpa using status

theorem renderInputs_of_ne_nil {inputs : List String} (nonempty : inputs ≠ []) :
    renderInputs surroundings raw inputs =
      renderFiles surroundings raw (surroundings.workspace.collect inputs) := by
  cases inputs with
  | nil => exact absurd rfl nonempty
  | cons input inputs => rfl

end

theorem Workspace.decodeText_toByteArray (text : String) :
    decodeText text.toByteArray = .ok text := by
  rw [decodeText, String.fromUTF8?, dif_pos text.isValidUTF8]
  rfl

/-! ## Runs of the program -/

/-- The run of the command `render` on inputs, its log shown up to a level. -/
def Run.render (surroundings : Surroundings) (raw : Bool) (level : Severity)
    (inputs : List String) : Run :=
  .finished level (runCommand surroundings (.render raw inputs))

namespace Run

variable {surroundings : Surroundings} {raw : Bool} {level : Severity}

theorem render_of_ne_nil {inputs : List String} (nonempty : inputs ≠ []) :
    render surroundings raw level inputs =
      .finished level (renderFiles surroundings raw (surroundings.workspace.collect inputs)) :=
  congrArg (Run.finished level) (renderInputs_of_ne_nil surroundings raw nonempty)

/-- The run on two lists of inputs is the run on the first and then, unless it fails, the run on the
second. -/
theorem render_append {a b : List String} (nonempty : a ≠ []) (nonempty' : b ≠ []) :
    render surroundings raw level (a ++ b) =
      .finished level ((renderInputs surroundings raw a).andThen fun _ =>
        renderInputs surroundings raw b) := by
  have whole : a ++ b ≠ [] := fun h => nonempty (List.append_eq_nil_iff.mp h).1
  rw [render_of_ne_nil whole, Workspace.collect_append, renderFiles_append,
    renderInputs_of_ne_nil surroundings raw nonempty,
    renderInputs_of_ne_nil surroundings raw nonempty']

/-- A run on one file writes and ends as the run on standard input that is given its content. -/
theorem render_file {path : String} {content : ByteArray}
    (h : surroundings.workspace.find path = .ok (.file content)) {other : Surroundings}
    (given : other.input = content) :
    (render surroundings raw level [path]).output = (render other raw level []).output ∧
      (render surroundings raw level [path]).status = (render other raw level []).status := by
  have single : render surroundings raw level [path] =
      .finished level (renderFile surroundings raw path) := by
    rw [render_of_ne_nil (List.cons_ne_nil _ _), Workspace.collect_file h, renderFiles]
    exact congrArg (Run.finished level) (Outcome.andThen_silent _)
  have text : surroundings.textOf (.path path) = other.textOf .standardInput := by
    show surroundings.workspace.read path = Workspace.decodeText other.input
    rw [Workspace.read, h, given]
  have same : (formulaLine surroundings raw (.path path)).outcome.toOption =
      (formulaLine other raw .standardInput).outcome.toOption := by
    rw [toOption_outcome_formulaLine, toOption_outcome_formulaLine, text]
  -- the log of the run on the path has one entry more, so only what is yielded is the same
  have reported : (Attempt.outcome do
      Traced.note (.converting path)
      formulaLine surroundings raw (.path path)).toOption =
        (formulaLine other raw .standardInput).outcome.toOption := by
    rw [Attempt.toOption_outcome_bind, Attempt.outcome_note]
    exact same
  rw [single]
  constructor
  · show (Outcome.ofAttempt _).output = (Outcome.ofAttempt _).output
    rw [Outcome.output_ofAttempt, Outcome.output_ofAttempt, reported]
  · show (Outcome.ofAttempt _).status = (Outcome.ofAttempt _).status
    rw [Outcome.status_ofAttempt, Outcome.status_ofAttempt, reported]

/-- A run of `render` is made of its parts. If the run on the first inputs succeeds, what further
inputs write, report and fail with comes behind what it writes and reports; if it fails, further
inputs change nothing. Every run on inputs writes the lines of its files up to the first that has no
formula, and succeeds if there is no such file. A single file is as good as standard input. -/
theorem render_parts (surroundings : Surroundings) (raw : Bool) (level : Severity) :
    (∀ a b : List String, a ≠ [] → b ≠ [] →
      let first := render surroundings raw level a
      let second := render surroundings raw level b
      let whole := render surroundings raw level (a ++ b)
      (first.status = 0 →
        whole.output = first.output ++ second.output ∧
          whole.shownLog = first.shownLog ++ second.shownLog ∧
          whole.status = second.status ∧ whole.failure = second.failure) ∧
        (first.status ≠ 0 → whole = first)) ∧
      (∀ inputs : List String, inputs ≠ [] →
        let files := surroundings.workspace.collect inputs
        let run := render surroundings raw level inputs
        run.output = String.join (surroundings.workspace.linesOf raw files) ∧
          (run.status = 0 ↔
            ∀ path ∈ files, (surroundings.workspace.formulaOf? raw path).isSome)) ∧
      ∀ (path : String) (content : ByteArray) (other : Surroundings),
        surroundings.workspace.find path = .ok (.file content) → other.input = content →
          (render surroundings raw level [path]).output = (render other raw level []).output ∧
            (render surroundings raw level [path]).status = (render other raw level []).status := by
  refine ⟨?_, ?_, ?_⟩
  · intro a b nonempty nonempty' first second whole
    have parts : whole = _ := render_append nonempty nonempty'
    constructor
    · intro success
      have noFailure : (renderInputs surroundings raw a).failure = none :=
        Outcome.status_eq_zero_iff.mp success
      rw [parts, Outcome.andThen_of_none _ noFailure]
      exact ⟨rfl, List.filter_append _ _, rfl, rfl⟩
    · intro failed
      have isFailure : (renderInputs surroundings raw a).failure ≠ none :=
        fun h => failed (Outcome.status_eq_zero_iff.mpr h)
      obtain ⟨failure, isFailure⟩ := Option.ne_none_iff_exists'.mp isFailure
      rw [parts, Outcome.andThen_of_failure _ isFailure]
      rfl
  · intro inputs nonempty files run
    have lines : run = _ := render_of_ne_nil nonempty
    rw [lines]
    exact renderFiles_lines surroundings raw files
  · intro path content other h given
    exact render_file h given

def leafContent : ByteArray :=
  (Export.document [(.root, [["Root$0", "True"]])]).print.toByteArray

def singleFile (content : ByteArray) : Surroundings :=
  ⟨⟨.directory [("a.xml", .file content)], []⟩, .empty⟩

/-- An empty working directory and an export on standard input. -/
def onStandardInput (content : ByteArray) : Surroundings :=
  ⟨⟨.emptyDirectory, []⟩, content⟩

theorem find_singleFile (content : ByteArray) :
    (singleFile content).workspace.find "a.xml" = .ok (.file content) := rfl

theorem formulaOf?_leafContent :
    (singleFile leafContent).workspace.formulaOf? true "a.xml" = some "True" := by
  have holds : Export.Holds [(.root, [["Root$0", "True"]])] (.leaf "True") "Root$0" := by
    intro field
    cases field <;> decide
  have fits : (LabelledFormula.leaf "True").Fits := by
    intro node inside
    obtain rfl := List.mem_singleton.mp inside
    exact ⟨by decide, trivial⟩
  have formula := LabelledFormula.outcome_formula (Export.exportedTo_document holds)
    (by decide) fits
  have text := Relations.outcome_rawText_eq_ok_iff.mpr ⟨_, formula, rfl⟩
  have read : (singleFile leafContent).workspace.read "a.xml" =
      .ok (Export.document [(.root, [["Root$0", "True"]])]).print := by
    rw [Workspace.read, find_singleFile]
    exact Workspace.decodeText_toByteArray _
  rw [Workspace.formulaOf?, read, Except.toOption, Option.bind_some, formulaIn?,
    Export.read_print_document, Except.toOption, Option.bind_some]
  exact congrArg Except.toOption text

theorem render_parts_leaf :
    let run := render (singleFile leafContent) true .info
    ((run ["a.xml"]).status = 0 ∧
      (run ["a.xml", "b.xml"]).output = (run ["a.xml"]).output ++ (run ["b.xml"]).output) ∧
      ((run ["b.xml"]).status ≠ 0 ∧ run ["b.xml", "a.xml"] = run ["b.xml"]) ∧
      (run ["a.xml", "b.xml"]).output =
        String.join ((singleFile leafContent).workspace.linesOf true ["a.xml", "b.xml"]) ∧
      (singleFile leafContent).workspace.find "a.xml" = .ok (.file leafContent) ∧
        (run ["a.xml"]).output = (render (onStandardInput leafContent) true .info []).output := by
  intro run
  have parts := render_parts (singleFile leafContent) true .info
  have found := find_singleFile leafContent
  have given : ∀ content, (onStandardInput content).input = content := fun _ => rfl
  have collected : (singleFile leafContent).workspace.collect ["a.xml", "b.xml"] =
      ["a.xml", "b.xml"] := by
    show (singleFile leafContent).workspace.collect (["a.xml"] ++ ["b.xml"]) = _
    rw [Workspace.collect_append, Workspace.collect_file found]
    rfl
  have success : (run ["a.xml"]).status = 0 := by
    show (render (singleFile leafContent) true .info ["a.xml"]).status = 0
    rw [render_of_ne_nil (List.cons_ne_nil _ _), Workspace.collect_file found]
    refine (renderFiles_lines (singleFile leafContent) true ["a.xml"]).2.mpr ?_
    intro path inside
    obtain rfl := List.mem_singleton.mp inside
    rw [formulaOf?_leafContent]
    rfl
  have failed : (run ["b.xml"]).status ≠ 0 := Nat.one_ne_zero
  have lines := (parts.2.1 ["a.xml", "b.xml"] nofun).1
  rw [collected] at lines
  exact ⟨⟨success, ((parts.1 ["a.xml"] ["b.xml"] nofun nofun).1 success).1⟩,
    ⟨failed, (parts.1 ["b.xml"] ["a.xml"] nofun nofun).2 failed⟩, lines, found,
    (parts.2.2 "a.xml" leafContent (onStandardInput leafContent) found (given _)).1⟩

end Run

end FormulaExport

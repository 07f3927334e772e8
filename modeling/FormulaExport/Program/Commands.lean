import FormulaExport.Conversion
import FormulaExport.Files.Workspace
import FormulaExport.CommandLine.Invocation
import FormulaExport.Program.Outcome

/-!
# Carrying out commands

A command is a function of its **surroundings**: the workspace in which its paths are resolved, and
the bytes of standard input. The export of a source is read, parsed and converted, and each of these
steps fails in words of its own. A run over several files stops at the first one that fails.
-/

set_option autoImplicit false

namespace FormulaExport

open FormulaExport.Markup
open FormulaExport.CommandLine

/-! ## Sources -/

/-- Where the text of an export comes from. -/
inductive Source where
  | standardInput
  | path (name : String)
deriving DecidableEq, Repr

namespace Source

def unreadable : Source → String
  | standardInput => "could not read from stdin"
  | path name => s!"could not read file `{name}`"

def unparsable : Source → String
  | standardInput => "could not parse stdin"
  | path name => s!"could not parse file `{name}`"

def inconvertible : Source → String
  | standardInput => "could not reconstruct the formula from stdin"
  | path name => s!"could not reconstruct the formula of `{name}`"

end Source

/-! ## Instances -/

/-- What the program is given besides its arguments. -/
structure Surroundings where
  workspace : Workspace
  input : ByteArray

namespace Surroundings

def textOf (surroundings : Surroundings) : Source → Except FileError String
  | .standardInput => Workspace.decodeText surroundings.input
  | .path path => surroundings.workspace.read path

def instanceOf (surroundings : Surroundings) (source : Source) : Attempt Failure Instance :=
  match surroundings.textOf source with
  | .error error => throw [.message source.unreadable, .message error.message]
  | .ok text =>
    match Document.read text with
    | .error error => throw [.message source.unparsable, .malformed error]
    | .ok document => Instance.ofDocument document

end Surroundings

/-- The failure of a conversion, in the context of its source. -/
def conversionFailure (source : Source) (error : ConversionError) : Failure :=
  [.message source.inconvertible, .message error.message, .message error.causeMessage]

/-- The text of the formula of an instance, raw or canonical. -/
def convert (source : Source) (raw : Bool) (found : Instance) : Attempt Failure String :=
  (if raw then found.relations.rawText else found.relations.canonicalText).adapt
    (conversionFailure source)

/-- The line that is printed for the formula of a source. -/
def formulaLine (surroundings : Surroundings) (raw : Bool) (source : Source) :
    Attempt Failure String := do
  let found ← surroundings.instanceOf source
  let formula ← convert source raw found
  pure (formula ++ "\n")

/-! ## Commands -/

/-- Converts one file, and reports it before. -/
def renderFile (surroundings : Surroundings) (raw : Bool) (path : String) : Outcome :=
  .ofAttempt do
    Traced.note (.converting path)
    formulaLine surroundings raw (.path path)

/-- Converts files one after the other, up to the first that fails. -/
def renderFiles (surroundings : Surroundings) (raw : Bool) : List String → Outcome
  | [] => .silent
  | path :: paths =>
    (renderFile surroundings raw path).andThen fun _ => renderFiles surroundings raw paths

/-- The command `render`: without inputs it converts standard input, otherwise the instance files
that the inputs stand for. -/
def renderInputs (surroundings : Surroundings) (raw : Bool) : List String → Outcome
  | [] => .ofAttempt (formulaLine surroundings raw .standardInput)
  | input :: inputs =>
    renderFiles surroundings raw (surroundings.workspace.collect (input :: inputs))

/-- The command `atoms`: one line for every atom of the export. -/
def listAtoms (surroundings : Surroundings) (input : Option String) : Outcome :=
  .ofAttempt do
    let found ← surroundings.instanceOf (input.elim .standardInput .path)
    pure (String.join (found.atoms.map (· ++ "\n")))

def runCommand (surroundings : Surroundings) : Command → Outcome
  | .render raw inputs => renderInputs surroundings raw inputs
  | .atoms input => listAtoms surroundings input

end FormulaExport

import FormulaExport.CommandLine.Help
import FormulaExport.Program.Commands

/-!
# The program

The whole **program** as a function of what it is given: the words of its command line and its
surroundings. Its run tells what is written to standard output and standard error, and the exit
status.
-/

set_option autoImplicit false

namespace FormulaExport

open FormulaExport.CommandLine

/-- How the program ended: its command line was not understood, or its command was run and its log
is shown up to a level. -/
inductive Run where
  | refused (error : UsageError)
  | finished (level : Severity) (outcome : Outcome)

namespace Run

/-- The status with which usage errors end; requests for help or version end with zero. -/
def usageStatus (error : UsageError) : Nat :=
  if error.isRequest then 0 else 2

/-- The exit status. -/
def status : Run → Nat
  | refused error => usageStatus error
  | finished _ outcome => outcome.status

/-- Everything written to standard output. -/
def output : Run → String
  | refused error => if error.isRequest then error.message else ""
  | finished _ outcome => outcome.output

/-- The diagnostics that are shown. -/
def shownLog : Run → List Diagnostic
  | refused _ => []
  | finished level outcome => shown level outcome.log

/-- The failure of the command. -/
def failure : Run → Option Failure
  | refused _ => none
  | finished _ outcome => outcome.failure

/-- One line for a diagnostic. -/
def diagnosticLine (diagnostic : Diagnostic) : String :=
  s!"[{diagnostic.severity.name.toUpper}] {diagnostic.message}\n"

def causeText : Cause → String
  | .message text => text
  | .malformed .malformed => "the text is not a document"
  | .malformed (.trailing place) => s!"unexpected input at {place.line}:{place.column}"

/-- The causes below the outermost message, each on a line of its own and numbered if there are
several. -/
def causeLines : List Cause → List String
  | [cause] => ["    " ++ causeText cause ++ "\n"]
  | causes => causes.zipIdx.map fun entry => s!"    {entry.2}: {causeText entry.1}\n"

/-- The report of a failure: the outermost message and what caused it. -/
def failureText : Failure → String
  | [] => ""
  | [cause] => "Error: " ++ causeText cause ++ "\n"
  | cause :: causes =>
    "Error: " ++ causeText cause ++ "\n\nCaused by:\n" ++ String.join (causeLines causes)

/-- Everything written to standard error. -/
def errorOutput (run : Run) : String :=
  match run with
  | refused error => if error.isRequest then "" else error.message
  | finished _ outcome =>
    String.join (run.shownLog.map diagnosticLine) ++ (outcome.failure.map failureText).getD ""

end Run

/-- The least severity that an invocation asks to be shown. -/
def CommandLine.Invocation.level (invocation : Invocation) : Severity :=
  .ofVerbosity invocation.verbosity

/-- The paths that a command names. -/
def commandPaths : Command → List String
  | .render _ inputs => inputs
  | .atoms input => input.toList

/-- The paths that a command line names, if it is understood. -/
def namedPaths (words : List String) : Option (List String) :=
  match Invocation.parse words with
  | .error _ => none
  | .ok invocation => some (commandPaths invocation.command)

def runProgram (surroundings : Surroundings) (words : List String) : Run :=
  match Invocation.parse words with
  | .error error => .refused error
  | .ok invocation => .finished invocation.level (runCommand surroundings invocation.command)

end FormulaExport

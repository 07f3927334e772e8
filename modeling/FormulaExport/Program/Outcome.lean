import FormulaExport.Traced
import FormulaExport.Markup.Reader

/-!
# Outcomes

The **outcome** of a run is what it writes to standard output, what it reports on the way, and the
failure with which it ends, if any. Runs are put one behind the other with `Outcome.andThen`: what
was written before a failure stays written.
-/

set_option autoImplicit false

namespace FormulaExport

open FormulaExport.Markup

/-! ## Failures -/

/-- The **cause** of a failure that ends a chain of messages. -/
inductive Cause where
  | message (text : String)
  | malformed (error : ReadError)
deriving DecidableEq, Repr

/-- A failure of a command: messages from the outermost context inwards. -/
abbrev Failure := List Cause

/-! ## Runs -/

/-- How a run **ended**, together with everything it wrote. -/
structure Outcome where
  output : String
  log : List Diagnostic
  failure : Option Failure

namespace Outcome

/-- The outcome of a run that does nothing. -/
def silent : Outcome := ⟨"", [], none⟩

/-- A run followed by another one, which only takes place if the first did not fail. -/
def andThen (first : Outcome) (second : Unit → Outcome) : Outcome :=
  match first.failure with
  | some failure => ⟨first.output, first.log, some failure⟩
  | none =>
    let last := second ()
    ⟨first.output ++ last.output, first.log ++ last.log, last.failure⟩

/-- The run that makes one attempt and writes what it yields. -/
def ofAttempt (attempt : Attempt Failure String) : Outcome :=
  match attempt.outcome with
  | .ok text => ⟨text, attempt.log, none⟩
  | .error failure => ⟨"", attempt.log, some failure⟩

def status (outcome : Outcome) : Nat :=
  if outcome.failure.isSome then 1 else 0

end Outcome

end FormulaExport

import FormulaExport.Field

/-!
# Diagnostics

What the library has to say on the way: each **diagnostic** is an event with a severity and a
message. Whether it is shown depends on the verbosity alone (`Severity.shownAt`).
-/

set_option autoImplicit false

namespace FormulaExport

/-- How **severe** a diagnostic is. -/
inductive Severity where
  | warn
  | info
  | debug
  | trace
deriving DecidableEq, Repr

namespace Severity

/-- The name of a severity. -/
def name : Severity → String
  | .warn => "warn"
  | .info => "info"
  | .debug => "debug"
  | .trace => "trace"

/-- The place of a severity, the most severe first. -/
def rank : Severity → Nat
  | .warn => 0
  | .info => 1
  | .debug => 2
  | .trace => 3

/-- The least severity that is shown when the verbosity has been raised some times. -/
def ofVerbosity : Nat → Severity
  | 0 => .warn
  | 1 => .info
  | 2 => .debug
  | _ => .trace

/-- Whether a severity is shown at a level: it is if it is at least as severe. -/
def shownAt (severity level : Severity) : Bool :=
  severity.rank ≤ level.rank

end Severity

/-- The **events** that are reported. -/
inductive Diagnostic where
  /-- A field of the export has no label. -/
  | unlabelledField
  /-- There are several root tuples. -/
  | extraRoots (count : Nat)
  /-- A later tuple of a field replaces the target of a source. -/
  | replacedTarget (field : Field) (source previous target : String)
  /-- A later tuple replaces an argument of an atom. -/
  | replacedArgument (atom : String) (position : Nat) (previous next : String)
  /-- The index has been built. -/
  | indexed (atoms quantifiers negations connectives : Nat)
  /-- The formula below a root is about to be built. -/
  | reconstructing (root : String)
  /-- An argument of an atom is missing. -/
  | unfilledArgument (atom : String)
  /-- An atom has no arguments at all. -/
  | missingArguments (atom : String)
  /-- The formula has been built. -/
  | reconstructed (depth : Nat)
  /-- An identifier gets its letter. -/
  | renaming (identifier : String) (letter : Char)
  /-- There is no letter for an identifier. -/
  | outOfLetters (identifier : String)
  /-- The identifiers have been renamed. -/
  | renamed (count : Nat)
  /-- The next file is about to be read. -/
  | converting (path : String)
deriving DecidableEq, Repr

namespace Diagnostic

def severity : Diagnostic → Severity
  | .unlabelledField => .warn
  | .extraRoots .. => .warn
  | .replacedTarget .. => .warn
  | .replacedArgument .. => .warn
  | .indexed .. => .debug
  | .reconstructing .. => .debug
  | .unfilledArgument .. => .warn
  | .missingArguments .. => .warn
  | .reconstructed .. => .debug
  | .renaming .. => .trace
  | .outOfLetters .. => .warn
  | .renamed .. => .debug
  | .converting .. => .info

def message : Diagnostic → String
  | .unlabelledField => "skipping a field without a label"
  | .extraRoots count => s!"found {count} `root` tuples, only the first one is used"
  | .replacedTarget field source previous target =>
    s!"`{source}` has more than one `{field.label}` tuple, `{previous}` is replaced by `{target}`"
  | .replacedArgument atom position previous next =>
    s!"`{atom}` has more than one variable at position {position}, " ++
      s!"`{previous}` is replaced by `{next}`"
  | .indexed atoms quantifiers negations connectives =>
    s!"indexed {atoms} atoms, {quantifiers} quantifiers, {negations} negations and " ++
      s!"{connectives} connectives"
  | .reconstructing root => s!"reconstructing the formula rooted at `{root}`"
  | .unfilledArgument atom => s!"atom `{atom}` has an unfilled argument position"
  | .missingArguments atom => s!"atom `{atom}` has no `vars` tuple"
  | .reconstructed depth => s!"reconstructed a formula of depth {depth}"
  | .renaming identifier letter => s!"renaming `{identifier}` to `{letter}`"
  | .outOfLetters identifier => s!"ran out of characters, `{identifier}` keeps its name"
  | .renamed count => s!"renamed {count} variables"
  | .converting path => s!"reconstructing the formula of `{path}`"

end Diagnostic

def shown (level : Severity) (log : List Diagnostic) : List Diagnostic :=
  log.filter fun diagnostic => diagnostic.severity.shownAt level

end FormulaExport

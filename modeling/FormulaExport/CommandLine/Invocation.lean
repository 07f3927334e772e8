/-!
# Invocations

The program has two commands: `render` prints the formulas of some exports, `atoms` the atoms of
one. Options may stand before and after the command, and behind `--` everything is taken as it is.
`Invocation.parse` reads a command line, word by word, and the first word that cannot be understood
decides what is wrong with it (`UsageError`).
-/

set_option autoImplicit false

namespace FormulaExport.CommandLine

/-! ## What a command line asks for -/

/-- A **command** with its own arguments. -/
inductive Command where
  /-- Print the formulas of exports, canonical unless raw. -/
  | render (raw : Bool) (inputs : List String)
  /-- Print the atoms of one export. -/
  | atoms (input : Option String)
deriving DecidableEq, Repr

/-- An **invocation** of the program: a command and how often verbosity was raised. -/
structure Invocation where
  command : Command
  verbosity : Nat
deriving DecidableEq, Repr

/-- What a help text is **about**. -/
inductive Topic where
  | program
  | render
  | atoms
  | help
deriving DecidableEq, Repr

/-- Why a command line does not ask for a command. -/
inductive UsageError where
  /-- It asks for help. -/
  | help (topic : Topic)
  /-- It asks for the version. -/
  | version
  /-- It asks for nothing at all. -/
  | nothing
  /-- It has options, but no command. -/
  | missingCommand
  /-- A word stands in the place of the command. -/
  | unknownCommand (word : String)
  /-- A word is no option, or one argument too many. -/
  | unexpected (word : String)
  /-- An option that stands alone has been repeated. -/
  | repeated (word : String)
  /-- An option has a value and takes none. -/
  | needlessValue (word : String)
  /-- A path is empty. -/
  | emptyPath
deriving DecidableEq, Repr

/-! ## Words -/

/-- The sorts of **words** before the mark `--`. -/
inductive Word where
  /-- The mark behind which no word is an option. -/
  | mark
  /-- A long option, and whether a value is attached to it. -/
  | long (name : List Char) (hasValue : Bool)
  /-- Short options in one word. -/
  | short (letters : List Char)
  /-- Any other word. -/
  | plain
deriving DecidableEq, Repr

/-- The sort of a word. A single hyphen is no option. -/
def Word.of (word : String) : Word :=
  match word.toList with
  | ['-', '-'] => .mark
  | '-' :: '-' :: option => .long (option.takeWhile (· != '=')) (option.contains '=')
  | '-' :: letter :: letters => .short (letter :: letters)
  | _ => .plain

/-- The largest verbosity that is told apart. -/
def verbosityLimit : Nat := 255

def raise (verbosity : Nat) : Nat := min (verbosity + 1) verbosityLimit

/-! ## Behind the command -/

/-- The commands whose words are read. -/
inductive Mode where
  | render
  | atoms
deriving DecidableEq, Repr

/-- The help topic of a command. -/
def Mode.topic : Mode → Topic
  | .render => .render
  | .atoms => .atoms

/-- What has been read **behind a command**. The paths read last wait to be checked, which is done
when the next option is reached or the words end. -/
structure Progress where
  raw : Bool := false
  verbosity : Nat := 0
  paths : List String := []
  waiting : List String := []

namespace Progress

/-- Checks the waiting paths: none may be empty. -/
def settle (progress : Progress) : Except UsageError Progress :=
  if "" ∈ progress.waiting then .error .emptyPath
  else .ok { progress with paths := progress.paths ++ progress.waiting, waiting := [] }

/-- Adds a path. Only `render` takes more than one. -/
def addPath (mode : Mode) (path : String) (progress : Progress) : Except UsageError Progress :=
  if mode = .atoms ∧ progress.paths ++ progress.waiting ≠ [] then .error (.unexpected path)
  else .ok { progress with waiting := progress.waiting ++ [path] }

def addShort (mode : Mode) (word : String) :
    List Char → Progress → Except UsageError Progress
  | [], progress => .ok progress
  | 'v' :: letters, progress => do
    let progress ← progress.settle
    addShort mode word letters { progress with verbosity := raise progress.verbosity }
  | 'h' :: _, progress => do
    let _ ← progress.settle
    .error (.help mode.topic)
  | _ :: _, _ => .error (.unexpected word)

def addLong (mode : Mode) (word : String) (name : List Char) (hasValue : Bool)
    (progress : Progress) : Except UsageError Progress :=
  if name = "raw".toList ∧ mode = .render then
    if hasValue then .error (.needlessValue word)
    else do
      let progress ← progress.settle
      if progress.raw then .error (.repeated word)
      else .ok { progress with raw := true }
  else if name = "verbose".toList then
    if hasValue then .error (.needlessValue word)
    else do
      let progress ← progress.settle
      .ok { progress with verbosity := raise progress.verbosity }
  else if name = "help".toList then
    if hasValue then .error (.needlessValue word)
    else do
      let _ ← progress.settle
      .error (.help mode.topic)
  else .error (.unexpected word)

/-- Reads words of which none is an option. -/
def addPaths (mode : Mode) : List String → Progress → Except UsageError Progress
  | [], progress => progress.settle
  | word :: words, progress => do
    let progress ← progress.addPath mode word
    addPaths mode words progress

/-- Reads the words behind a command. -/
def addWords (mode : Mode) : List String → Progress → Except UsageError Progress
  | [], progress => progress.settle
  | word :: words, progress =>
    match Word.of word with
    | .mark => addPaths mode words progress
    | .long name hasValue => do
      let progress ← progress.addLong mode word name hasValue
      addWords mode words progress
    | .short letters => do
      let progress ← progress.addShort mode word letters
      addWords mode words progress
    | .plain => do
      let progress ← progress.addPath mode word
      addWords mode words progress

def command (progress : Progress) : Mode → Command
  | .render => .render progress.raw progress.paths
  | .atoms => .atoms progress.paths.head?

end Progress

/-- Reads the words behind a command. Verbosity raised there replaces what was raised before. -/
def parseCommand (mode : Mode) (verbosity : Nat) (words : List String) :
    Except UsageError Invocation := do
  let progress ← Progress.addWords mode words {}
  pure ⟨progress.command mode, if progress.verbosity = 0 then verbosity else progress.verbosity⟩

/-! ## Before the command -/

/-- The command, or the request for help, that a word stands for. -/
def commandOf? (word : String) : Option (Option Mode) :=
  if word = "render" then some (some .render)
  else if word = "atoms" then some (some .atoms)
  else if word = "help" then some none
  else none

/-- The words behind the request for help name what the help is about. -/
def parseHelp : List String → UsageError
  | [] => .help .program
  | word :: words =>
    match commandOf? word, words with
    | none, _ => .unknownCommand word
    | some mode, [] => .help (mode.elim .help Mode.topic)
    | some _, other :: _ => .unknownCommand other

/-- Reads the short options of one word before the command. -/
def shortBefore (word : String) : List Char → Nat → Except UsageError Nat
  | [], verbosity => .ok verbosity
  | 'v' :: letters, verbosity => shortBefore word letters (raise verbosity)
  | 'h' :: _, _ => .error (.help .program)
  | 'V' :: _, _ => .error .version
  | _ :: _, _ => .error (.unexpected word)

def longBefore (word : String) (name : List Char) (hasValue : Bool) (verbosity : Nat) :
    Except UsageError Nat :=
  if name = "verbose".toList then
    if hasValue then .error (.needlessValue word) else .ok (raise verbosity)
  else if name = "help".toList then
    if hasValue then .error (.needlessValue word) else .error (.help .program)
  else if name = "version".toList then
    if hasValue then .error (.needlessValue word) else .error .version
  else .error (.unexpected word)

/-- What is wrong when the words end without a command. -/
def withoutCommand (verbosity : Nat) : UsageError :=
  if verbosity = 0 then .nothing else .missingCommand

/-- What is wrong with the words behind `--` before a command: no command can stand there. -/
def behindMark (verbosity : Nat) : List String → UsageError
  | [] => withoutCommand verbosity
  | word :: _ => if (commandOf? word).isSome then .unexpected word else .unknownCommand word

/-- Reads a command line from its beginning, with the verbosity raised so far. -/
def parseFrom (verbosity : Nat) : List String → Except UsageError Invocation
  | [] => .error (withoutCommand verbosity)
  | word :: words =>
    match Word.of word with
    | .mark => .error (behindMark verbosity words)
    | .long name hasValue => do
      let verbosity ← longBefore word name hasValue verbosity
      parseFrom verbosity words
    | .short letters => do
      let verbosity ← shortBefore word letters verbosity
      parseFrom verbosity words
    | .plain =>
      match commandOf? word with
      | some (some mode) => parseCommand mode verbosity words
      | some none => .error (parseHelp words)
      | none => .error (.unknownCommand word)

/-- Reads a command line, given without the name of the program. -/
def Invocation.parse (words : List String) : Except UsageError Invocation :=
  parseFrom 0 words

end FormulaExport.CommandLine

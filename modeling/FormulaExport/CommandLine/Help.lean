import FormulaExport.CommandLine.Invocation

/-!
# Help texts

The texts that the program prints about itself: its version, the **help** on each topic, and what is
wrong with a command line.
-/

set_option autoImplicit false

namespace FormulaExport.CommandLine

def programName : String := "relfol"

/-- The line that names the version. -/
def versionText : String := programName ++ " 0.1.0-dev\n"

def verboseLine : String :=
  "  -v, --verbose...  Increase the verbosity of the diagnostics written to stderr " ++
    "(-v, -vv, -vvv)\n"

def helpLine : String := "  -h, --help        Print help\n"

def usage : Topic → String
  | .program => "Usage: " ++ programName ++ " [OPTIONS] <COMMAND>\n"
  | .render => "Usage: " ++ programName ++ " render [OPTIONS] [INPUTS]...\n"
  | .atoms => "Usage: " ++ programName ++ " atoms [OPTIONS] [INPUT]\n"
  | .help => "Usage: " ++ programName ++ " help [COMMAND]...\n"

def helpText : Topic → String
  | .program =>
    "A translator from relational formula exports of model finders to first-order logic\n\n" ++
      usage .program ++
      "\nCommands:\n" ++
      "  render  Reconstruct the first-order formula encoded in one or more instance exports\n" ++
      "  atoms   List the labels of the formula nodes of an instance export\n" ++
      "  help    Print this message or the help of the given subcommand(s)\n" ++
      "\nOptions:\n" ++ verboseLine ++ helpLine ++ "  -V, --version     Print version\n"
  | .render =>
    "Reconstruct the first-order formula encoded in one or more instance exports\n\n" ++
      usage .render ++
      "\nArguments:\n" ++
      "  [INPUTS]...  The instance files or directories of instance files " ++
      "(reads stdin if omitted)\n" ++
      "\nOptions:\n" ++
      "      --raw         Print the formula with its exported identifiers " ++
      "instead of canonicalizing it\n" ++
      verboseLine ++ helpLine
  | .atoms =>
    "List the labels of the formula nodes of an instance export\n\n" ++
      usage .atoms ++
      "\nArguments:\n" ++
      "  [INPUT]  The instance file (reads stdin if omitted)\n" ++
      "\nOptions:\n" ++ verboseLine ++ helpLine
  | .help =>
    "Print this message or the help of the given subcommand(s)\n\n" ++
      usage .help ++
      "\nArguments:\n" ++
      "  [COMMAND]...  Print help for the subcommand(s)\n"

namespace UsageError

/-- Whether a usage error is a request that is answered on standard output. -/
def isRequest : UsageError → Bool
  | help _ => true
  | version => true
  | _ => false

/-- What is wrong with a command line, in one line. -/
def complaint : UsageError → String
  | help _ => "help was asked for"
  | version => "the version was asked for"
  | nothing => "a command is required"
  | missingCommand =>
    "'" ++ programName ++ "' requires a subcommand but one was not provided"
  | unknownCommand word => s!"unrecognized subcommand '{word}'"
  | unexpected word => s!"unexpected argument '{word}' found"
  | repeated word => s!"the argument '{word}' cannot be used multiple times"
  | needlessValue word => s!"unexpected value in '{word}' found; no more were expected"
  | emptyPath => "a value is required for a path but none was supplied"

/-- The text that is printed on a usage error. -/
def message : UsageError → String
  | help topic => helpText topic
  | version => versionText
  | nothing => helpText .program
  | error =>
    "error: " ++ error.complaint ++ "\n\n" ++ usage .program ++
      "\nFor more information, try '--help'.\n"

end UsageError

end FormulaExport.CommandLine

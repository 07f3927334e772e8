import FormulaExport.Files.Tree

/-!
# Workspaces

A **workspace** is a file tree seen from a working directory. Paths are resolved in it one component
after the other: an empty component and `.` stay, `..` goes up, and every component needs a
directory to stand in, also the empty one behind a slash at the end.
-/

set_option autoImplicit false

namespace FormulaExport

/-- Why something cannot be read as text. -/
inductive FileError where
  | notFound
  | notDirectory
  | isDirectory
  | notText
deriving DecidableEq, Repr

def FileError.message : FileError → String
  | .notFound => "No such file or directory (os error 2)"
  | .notDirectory => "Not a directory (os error 20)"
  | .isDirectory => "Is a directory (os error 21)"
  | .notText => "stream did not contain valid UTF-8"

/-! ## Paths -/

def separator : Char := '/'

/-- The components of a path: the texts between its separators, empty ones included. -/
def components : List Char → List (List Char)
  | [] => [[]]
  | c :: path =>
    if c = separator then [] :: components path
    else
      match components path with
      | [] => [[c]]
      | first :: rest => (c :: first) :: rest

def pathNames (path : String) : List String :=
  (components path.toList).map String.ofList

/-- A path with names added to it, with one separator between all parts. -/
def joinNames (path : String) : List String → String
  | [] => path
  | name :: names =>
    let front := if path.toList.getLast? = some separator then path else path.push separator
    joinNames (front ++ name) names

/-! ## Resolution -/

/-- A file tree and the names that lead from its root to the **working directory**. -/
structure Workspace where
  root : Tree
  working : List String

namespace Workspace

/-- Follows names from a tree; the directories above it are known, innermost first. The root is its
own parent. -/
def follow (current : Tree) (above : List Tree) : List String → Except FileError Tree
  | [] => .ok current
  | name :: names =>
    match current with
    | .file _ => .error .notDirectory
    | .directory entries =>
      if name = "" ∨ name = "." then follow current above names
      else if name = ".." then
        match above with
        | [] => follow current [] names
        | parent :: above => follow parent above names
      else
        match Tree.lookup name entries with
        | some tree => follow tree (current :: above) names
        | none => .error .notFound

/-- The place that names lead to, as far as names alone can tell: an empty name and `.` stay, `..`
goes up. -/
def placeOf (names : List String) : List String :=
  (names.foldl (fun above name =>
    if name = "" ∨ name = "." then above
    else if name = ".." then above.tail
    else name :: above) []).reverse

/-- What stands at a path. A path that begins with a separator starts at the root, any other path in
the working directory. The empty path leads nowhere. -/
def find (workspace : Workspace) (path : String) : Except FileError Tree :=
  match path.toList with
  | [] => .error .notFound
  | c :: _ =>
    let start := if c = separator then [] else workspace.working
    follow workspace.root [] (start ++ pathNames path)

def decodeText (content : ByteArray) : Except FileError String :=
  match String.fromUTF8? content with
  | some text => .ok text
  | none => .error .notText

def read (workspace : Workspace) (path : String) : Except FileError String :=
  match workspace.find path with
  | .error error => .error error
  | .ok (.directory _) => .error .isDirectory
  | .ok (.file content) => decodeText content

/-! ## Instance files -/

def instanceExtension : List Char := ['.', 'x', 'm', 'l']

/-- Whether a file name has the extension of instance files and something before it. -/
def hasInstanceExtension (name : String) : Bool :=
  instanceExtension.isSuffixOf name.toList && instanceExtension.length < name.toList.length

/-- Whether the names that lead to a file end in one with the extension of instance files. -/
def isInstanceFile (names : List String) : Bool :=
  names.getLast?.any hasInstanceExtension

/-- The paths that a path stands for: a directory for the instance files below it, anything else for
itself. -/
def expand (workspace : Workspace) (path : String) : List String :=
  match workspace.find path with
  | .ok (.directory entries) =>
    ((Tree.directory entries).filesBelow.filter isInstanceFile).map (joinNames path)
  | _ => [path]

/-- The paths that several paths stand for, one after the other. -/
def collect (workspace : Workspace) (paths : List String) : List String :=
  paths.flatMap workspace.expand

end Workspace

end FormulaExport

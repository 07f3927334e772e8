import FormulaExport.Program

/-!
# The command line program

The part of the program that touches the world. It takes a picture of the files that the command
line names, reads standard input if no file is named, runs the program on the picture, and writes
what the run yields.
-/

set_option autoImplicit false

namespace FormulaExport.Main

/-- A picture of what stands at a path. Of the files in a directory only instance files are read,
and what is neither a file nor a directory is left out. -/
partial def picture (path : String) (isInner : Bool) : IO (Option Tree) := do
  let location := (← IO.currentDir) / path
  let metadata ← if isInner then location.symlinkMetadata else location.metadata
  match metadata.type with
  | .dir =>
    let mut entries := []
    for entry in ← location.readDir do
      if let some tree ← picture (joinNames path [entry.fileName]) true then
        entries := (entry.fileName, tree) :: entries
    pure (some (.directory entries))
  | .file =>
    if isInner && !Workspace.hasInstanceExtension path then
      pure (some (.file .empty))
    else
      pure (some (.file (← IO.FS.readBinFile location)))
  | _ => pure none

/-- Adds a picture of what stands at a path to a tree, with the directories on the way. What is not
there, or cannot be read, adds nothing. -/
def addPath (working : List String) (root : Tree) (path : String) : IO Tree := do
  let names := pathNames path
  let start := if path.toList.head? = some separator then [] else working
  let mut tree := root
  for count in List.range names.length do
    let front := String.intercalate "/" (names.take count)
    if front ≠ "" then
      if ← ((← IO.currentDir) / front).isDir then
        tree := tree.makeDirectory (Workspace.placeOf (start ++ names.take count))
  if path ≠ "" then
    try
      if let some found ← picture path false then
        tree := found.place (Workspace.placeOf (start ++ names)) tree
    catch _ => pure ()
  pure tree

/-- Reads a stream to its end. -/
partial def readAll (stream : IO.FS.Stream) (known : ByteArray) : IO ByteArray := do
  let bytes ← stream.read 65536
  if bytes.isEmpty then pure known else readAll stream (known ++ bytes)

/-- The surroundings of a run: what stands at the named paths, and standard input if none is named.
-/
def surroundings (paths : List String) : IO Surroundings := do
  let working := Workspace.placeOf (pathNames (← IO.currentDir).toString)
  let mut root := Tree.emptyDirectory.makeDirectory working
  for path in paths do
    root ← addPath working root path
  let input ← if paths.isEmpty then readAll (← IO.getStdin) .empty else pure .empty
  pure ⟨⟨root, working⟩, input⟩

end FormulaExport.Main

open FormulaExport in
/-- Runs the program on the words of its command line. -/
def main (words : List String) : IO UInt32 := do
  let given ←
    match namedPaths words with
    | some paths => Main.surroundings paths
    | none => pure ⟨⟨.emptyDirectory, []⟩, .empty⟩
  let run := runProgram given words
  (← IO.getStderr).putStr run.errorOutput
  (← IO.getStdout).putStr run.output
  pure run.status.toUInt32

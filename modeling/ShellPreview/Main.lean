import ShellPreview.CommandLine.Run
/-!
# The program

`main` hands the files that a run may look at, the environment and the
standard input to `CommandLine.run`, prints what it says and writes the
file that it wants written.
-/

namespace ShellPreview

/-- What stands at a path: its bytes, a directory, or nothing. -/
def lookAt (path : String) : IO (Option FileTree.Entry) := do
  try
    return some (.file (← IO.FS.readBinFile path))
  catch e =>
    match e with
    | .noFileOrDirectory .. => return none
    | .inappropriateType .. => return some .directory
    | .resourceExhausted .. => return some .directory
    | _ => return none

/-- The part of the tree of files that lies on the way to a place. -/
def lookAlong (tree : FileTree) (place : List String) : IO FileTree := do
  let mut tree := tree
  for n in List.range place.length do
    let front := place.take (n + 1)
    match ← lookAt ("/" ++ String.intercalate "/" front) with
    | some e => tree := tree.put front e
    | none => pure ()
  return tree

/-- The values of the environment that count. -/
def environment : IO (List (String × String)) := do
  let mut values := []
  for name in ["HOME", "XDG_CONFIG_HOME", "CMDPEEK_JSON", "CLICOLOR_FORCE"] do
    match ← IO.getEnv name with
    | some value => values := (name, value) :: values
    | none => pure ()
  return values

/-- All bytes of a stream. -/
partial def readAll (stream : IO.FS.Stream) (done : ByteArray) : IO ByteArray := do
  let chunk ← stream.read 65536
  if chunk.isEmpty then return done else readAll stream (done ++ chunk)

/-- The path that a run may look at. -/
def pathOf (arguments : List String) (usual : String) : String :=
  match CommandLine.readArguments arguments with
  | .run i => i.config.getD usual
  | _ => usual

/-- Writes what has changed. -/
def writeChanges (before after : FileTree) : IO Unit := do
  for (place, entry) in after.entries.reverse do
    if before.get? place != some entry then
      let path := "/" ++ String.intercalate "/" place
      match entry with
      | .directory => IO.FS.createDir path
      | .file bytes => IO.FS.writeBinFile path bytes

end ShellPreview

open ShellPreview in
/-- Runs the program. -/
def main (arguments : List String) : IO UInt32 := do
  let values ← environment
  let working := FileTree.names (toString (← IO.currentDir))
  let path := pathOf arguments (Configuration.usualPath values)
  let place := FileTree.origin working path ++ FileTree.names path
  let files ← lookAlong (← lookAlong ⟨[]⟩ working) place
  let input ←
    if CommandLine.needsInput arguments then readAll (← IO.getStdin) ByteArray.empty
    else pure ByteArray.empty
  let outcome := CommandLine.run ⟨files, working, values, input, CommandLine.unconnected⟩ arguments
  writeChanges files outcome.files
  for e in outcome.events do
    IO.eprintln (e.level.word ++ " " ++ e.message)
  IO.print outcome.output
  for line in outcome.errorLines do
    IO.eprintln line
  return outcome.status.toUInt32

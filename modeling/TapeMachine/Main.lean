import TapeMachine.CommandLine.Program

/-! The command line.

The files that a call may touch are read beforehand and written back afterwards; what happens in
between is decided by `CommandLine.execute` alone. -/
namespace TapeMachine.Main

/-- More steps than any turn takes. -/
def fuel : Nat := 4611686018427387904

/-- Everything that a stream holds. -/
partial def drain (stream : IO.FS.Stream) (taken : ByteArray) : IO ByteArray := do
  let piece ← stream.read 65536
  if piece.isEmpty then return taken else drain stream (taken ++ piece)

/-- The variables that settings can come from, and the home directory. -/
def vars : IO CommandLine.Variables :=
  ("HOME" :: Command.Settings.keys.map Command.Documentation.variableName).filterMapM fun name => do
    return (← IO.getEnv name).map (name, ·)

/-- A path and the directories on the way to it. -/
def stations (path : String) : List String :=
  let names := path.splitOn "/"
  (List.range names.length).map fun k => "/".intercalate (names.take (k + 1))

/-- Takes over what stands at a path. -/
def load (disk : Disk) (path : String) : IO Disk := do
  let whole := (← IO.currentDir) / path
  match disk.locate path with
  | .error _ => return disk
  | .ok place =>
    if ← whole.isDir then return disk.put place .directory
    else if ← whole.pathExists then
      return disk.put place (.file (← IO.FS.readBinFile whole).toList)
    else return disk

/-- Takes over what stands at some paths and on the way to them. -/
def loadAll (disk : Disk) (paths : List String) : IO Disk :=
  ((paths.flatMap stations).filter (· != "")).foldlM load disk

/-- The texts of a call that may be paths: arguments, and what is behind an equals sign in them. -/
def mentioned (arguments : List String) (vars : CommandLine.Variables) : List String :=
  arguments ++ arguments.map (fun a => String.ofList ((a.toList.dropWhile (· != '=')).drop 1))
    ++ vars.map (·.2)

/-- The paths that a configuration file names. -/
def configured (disk : Disk) (vars : CommandLine.Variables) (paths : List String) : List String :=
  paths.flatMap fun path =>
    match CommandLine.Configuration.ofFile disk vars path with
    | .ok c => c.map fun (_, value) => CommandLine.textOf value
    | .error _ => []

/-- Writes back the files that have changed. -/
def save (before after : Disk) : IO Unit :=
  after.entries.forM fun (place, entry) => do
    match entry with
    | .file content =>
      if before.entry? place != some entry then
        IO.FS.writeBinFile ("/" ++ "/".intercalate place) ⟨content.toArray⟩
    | .directory => pure ()

end TapeMachine.Main

open TapeMachine TapeMachine.Main in
def main (arguments : List String) : IO UInt32 := do
  let vars ← Main.vars
  let disk : Disk := { workingDirectory := Disk.names (← IO.currentDir).toString }
  let usual := CommandLine.Configuration.usualPaths disk vars
  let disk ← loadAll disk (usual ++ mentioned arguments vars)
  let disk ← loadAll disk (configured disk vars (usual ++ mentioned arguments vars))
  let input ← drain (← IO.getStdin) .empty
  let world : Command.World := { disk, input := .plain { data := input.toList } }
  let screen : Fault := .told "open /dev/tty: no such device or address"
  match CommandLine.execute fuel { arguments, vars, screen := some screen } world with
  | none => return 2
  | some outcome =>
    (← IO.getStdout).write ⟨outcome.world.output.delivered⟩
    (← IO.getStderr).putStr outcome.world.messages
    save disk outcome.world.disk
    return outcome.code.toUInt32

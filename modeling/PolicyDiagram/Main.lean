import PolicyDiagram.Run.Command

/-!
The program on a real machine. Every place that a command can reach is looked up first; the command then
runs on what was found, and the places that it changed are written back.
-/

namespace PolicyDiagram

def Location.name (place : Location) : String := "/" ++ "/".intercalate place.reverse

def Location.ofName (name : String) : Location := ((name.splitOn "/").filter (· != "")).reverse

def inspect (place : Location) : IO (Option FileNode) := do
  let here ← IO.currentDir
  if ← (here / Location.name place).isDir then return some .directory
  else
    try return some (.file (← IO.FS.readBinFile (Location.name place)))
    catch _ => return none

def explore (known : FileSystem) (paths : List Path) : IO FileSystem := do
  let mut files := known
  for place in paths.flatMap known.route do
    match ← inspect place with
    | some node => files := files.put place node
    | none => pure ()
  return files

def Arguments.paths (arguments : Arguments) : List Path :=
  arguments.files ++ arguments.output.toList ++ arguments.config.toList.map Path.mk ++
    arguments.logDirectory.toList.map Path.mk

def Config.paths (config : Config) : List Path := config.files ++ config.output.toList

def reachable (known : FileSystem) (line : List String) : IO (List Path × FileSystem) := do
  match Arguments.parse line with
  | .error _ => return ([], known)
  | .ok arguments =>
    let files ← explore known arguments.paths
    match Config.ofArguments files arguments with
    | .error _ => return (arguments.paths, files)
    | .ok config => return (arguments.paths ++ config.paths, ← explore files config.paths)

def isUnchanged : Option FileNode → Option FileNode → Bool
  | some (.file before), some (.file after) => before == after
  | some .directory, some .directory => true
  | some (.link before), some (.link after) => before == after
  | none, none => true
  | _, _ => false

def restore (before after : FileSystem) (paths : List Path) : IO Unit := do
  for place in paths.flatMap before.route do
    if !isUnchanged (before.node place) (after.node place) then
      match after.node place with
      | some .directory => IO.FS.createDirAll (Location.name place)
      | some (.file content) => IO.FS.writeBinFile (Location.name place) content
      | some (.link _) | none => pure ()

end PolicyDiagram

open PolicyDiagram in
def main (line : List String) : IO UInt32 := do
  let here ← IO.currentDir
  let (paths, files) ← reachable (.bare (Location.ofName here.toString)) line
  let (outcome, world) := Command.run line ⟨files, ""⟩
  restore files world.files paths
  (← IO.getStdout).putStr world.printed
  for note in outcome.notes do IO.eprintln note
  for error in outcome.errors do IO.eprintln (error.level.name ++ " " ++ error.text)
  return outcome.exitCode.toUInt32

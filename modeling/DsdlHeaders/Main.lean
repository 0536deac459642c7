import DsdlHeaders.CommandLine.Command

/-!
# The executable

The command works on a store. The executable copies what the command may look at from the disk into
a store, runs the command on it, and carries out on the disk what changed in the store.
-/

namespace DsdlHeaders.Main

/-- The directories around a place, outermost first, and the place itself. -/
def ancestors (place : Place) : List Place :=
  (List.range place.length).map fun n => place.take (n + 1)

/-- The spelling of a place. -/
def spelling (place : Place) : String :=
  "/" ++ String.intercalate "/" place

/-- The place of a path, step by step and without looking at the disk. -/
def placeOf (current : Place) (path : String) : Place :=
  (Path.steps path).foldl (fun place step =>
    match step with
    | .root => []
    | .here => place
    | .up => place.dropLast
    | .entry name => place ++ [name]) current

/-- Copies one place from the disk. -/
def copyPlace (store : Store) (place : Place) : IO Store := do
  let root ← IO.currentDir
  let onDisk := root / spelling place
  if ← onDisk.isDir then return store.insert place .directory
  else if ← onDisk.pathExists then
    let bytes ← IO.FS.readBinFile onDisk
    return store.insert place (.file bytes Store.plainMode)
  else return store

/-- Copies paths and the directories around them from the disk. -/
def copyPaths (store : Store) (paths : List String) : IO Store :=
  paths.foldlM (fun store path =>
    (ancestors (placeOf store.current path)).foldlM copyPlace store) store

/-- Are two nodes alike? -/
def alike : Node → Node → Bool
  | .directory, .directory => true
  | .file bytes mode, .file bytes' mode' => bytes.data = bytes'.data && mode = mode'
  | _, _ => false

/-- Carries out what changed at one place. -/
def carryOut (before : Store) (entry : Place × Node) : IO Unit := do
  let (place, node) := entry
  if (before.node? place).any (alike node) then return ()
  let root ← IO.currentDir
  let onDisk := root / spelling place
  match node with
  | .directory => IO.FS.createDirAll onDisk
  | .file bytes mode =>
    let fresh := root / (spelling place ++ ".new")
    IO.FS.writeBinFile fresh bytes
    let user : IO.AccessRight := { read := true, write := mode = 0o600 }
    let others : IO.AccessRight := { read := mode ≠ 0o600 }
    IO.setAccessRights fresh { user := user, group := others, other := others }
    IO.FS.rename fresh onDisk

/-- The word for a level. -/
def levelWord : Level → String
  | .debug => "DEBUG"
  | .info => "INFO"
  | .warn => "WARN"

/-- The store that a request is carried out on. -/
def loadFor (request : Option CommandLine.Request) (store : Store) : IO Store := do
  match request with
  | some (.run arguments) =>
    let sources ← copyPaths store (arguments.template :: arguments.types)
    copyPaths sources (CommandLine.headerPaths arguments sources)
  | _ => return store

/-- The directory that the executable was started in. -/
def currentPlace : IO Place := do
  let path := toString (← IO.currentDir)
  return placeOf [] path

/-- Runs the command on the disk and gives its exit code. -/
def execute (arguments : List String) : IO UInt32 := do
  let current ← currentPlace
  let bare : Store := ⟨(ancestors current).map fun place => (place, .directory), current⟩
  let store ← loadFor (CommandLine.parse arguments) bare
  let report := CommandLine.run arguments store
  for line in report.log do
    IO.eprintln (levelWord line.level ++ " " ++ line.message)
  for entry in report.store.listing [] do
    carryOut store entry
  IO.print report.output
  match report.ending with
  | .error error => IO.eprintln ("Error: " ++ error.message)
  | .misused => IO.eprint CommandLine.helpText
  | ending =>
    match ending.failure? with
    | some text => IO.eprintln ("Error: " ++ text)
    | none => pure ()
  return report.ending.code.toUInt32

end DsdlHeaders.Main

/-- Runs the command. -/
def main (arguments : List String) : IO UInt32 :=
  DsdlHeaders.Main.execute arguments

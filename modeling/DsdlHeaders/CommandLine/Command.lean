import DsdlHeaders.CommandLine.Arguments
import DsdlHeaders.Generation.Run

/-!
# The command

The command reads all documents, in the order in which they were given, and generates the headers of
all their definitions in one run. A document that cannot be read or parsed ends the command before
anything is written. A dry run prints where the headers would go.
-/

namespace DsdlHeaders.CommandLine

/-- The name and version of the command. -/
def versionText : String := "dsdlc 0.3.0\n"

/-- How the command is used. -/
def helpText : String :=
  "Usage: dsdlc [OPTIONS] --types <XML>... --template <PATH>\n"

/-- How the command ended. -/
inductive Ending where
  | success
  /-- The arguments were not understood. -/
  | misused
  | error (error : RunError)
  /-- Some of the definitions failed. -/
  | incomplete (failed total : Nat)
deriving DecidableEq, Repr

/-- The exit code of an ending. -/
def Ending.code : Ending → Nat
  | .success => 0
  | .misused => 2
  | .error _ => 1
  | .incomplete _ _ => 1

/-- What is reported when some of the definitions failed. -/
def Ending.failure? : Ending → Option String
  | .incomplete failed total =>
    some (toString failed ++ " of " ++ toString total ++ " types failed to generate")
  | _ => none

/-- What the command leaves behind. -/
structure Report where
  ending : Ending
  output : String
  log : List LogLine
  store : Store

/-- Reads documents one after the other. -/
def readAll : List String → Workspace → Except DocumentError (List Definition) × Workspace
  | [], workspace => (.ok [], workspace)
  | path :: rest, workspace =>
    let announced := workspace.say .info ("source: " ++ path)
    match announced.store.readDefinitions path with
    | .error error => (.error error, announced)
    | .ok definitions =>
      match readAll rest announced with
      | (.error error, workspace) => (.error error, workspace)
      | (.ok later, workspace) => (.ok (definitions ++ later), workspace)

/-- The run that arguments ask for. -/
def Arguments.config (arguments : Arguments) : Config where
  output := arguments.output
  template := arguments.template
  dryRun := arguments.dryRun
  policy := if arguments.keepGoing then .proceed else .abort

/-- The messages that are shown. -/
def Arguments.shown (arguments : Arguments) (log : List LogLine) : List LogLine :=
  log.filter fun line => arguments.verbose || line.level ≠ .debug

/-- What a dry run prints. -/
def pathList (paths : List String) : String :=
  String.join (paths.map (· ++ ";"))

/-- The ending of a run over so many definitions. -/
def endingOf (total : Nat) (summary : Summary) : Ending :=
  if summary.isSuccess then .success else .incomplete summary.failures.length total

/-- Reads the documents and generates the headers. -/
def Arguments.run (arguments : Arguments) (store : Store) : Report :=
  let config := arguments.config
  match readAll arguments.types ⟨store, .empty, []⟩ with
  | (.error error, after) =>
    ⟨.error (.document error), "", arguments.shown after.log, after.store⟩
  | (.ok definitions, ready) =>
    match config.run definitions ready with
    | (.error error, after) => ⟨.error error, "", arguments.shown after.log, after.store⟩
    | (.ok summary, after) =>
      ⟨endingOf definitions.length summary,
        if arguments.dryRun then pathList summary.paths else "",
        arguments.shown after.log, after.store⟩

/-- Runs the command. -/
def run (arguments : List String) (store : Store) : Report :=
  match parse arguments with
  | none => ⟨.misused, "", [], store⟩
  | some .version => ⟨.success, versionText, [], store⟩
  | some .help => ⟨.success, helpText, [], store⟩
  | some (.run arguments) => arguments.run store

/-- The paths of the headers that the command may write. -/
def headerPaths (arguments : Arguments) (store : Store) : List String :=
  let definitions := arguments.types.flatMap fun path =>
    (store.readDefinitions path).toOption.getD []
  let folder := (Path.absolute? store.currentPath arguments.output).getD arguments.output
  definitions.map (arguments.config.headerPath folder)

end DsdlHeaders.CommandLine

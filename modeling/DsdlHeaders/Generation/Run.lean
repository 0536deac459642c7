import DsdlHeaders.Document.Reader
import DsdlHeaders.Generation.Failure

/-!
# Generating headers

A run turns definitions into header files below an output directory, one file per definition.

1. The definitions are validated, and the output directory is spelled from the root.
2. A **dry run** stops here and only says where each header would go.
3. The contexts of all definitions are built, so every constant is checked before a file is touched.
4. The template is taken from the cache or compiled.
5. For each context in turn the template is expanded and the header written.

What happens when a definition fails is the **policy** of the run: it aborts with that failure, or
it records the failure and goes on with the next definition.

A run works on a **workspace**: a store, a cache and a log. It returns its result and the workspace
after it, also when it fails.
-/

namespace DsdlHeaders

/-! ## Logs and workspaces -/

/-- How much a message matters. -/
inductive Level where
  | debug
  | info
  | warn
deriving DecidableEq, Repr

/-- A message of a run. -/
structure LogLine where
  level : Level
  message : String
deriving DecidableEq, Repr

/-- What a run works on. -/
structure Workspace where
  store : Store
  cache : Template.Cache
  /-- The messages so far, oldest first. -/
  log : List LogLine

namespace Workspace

/-- Adds a message. -/
def say (workspace : Workspace) (level : Level) (message : String) : Workspace :=
  { workspace with log := workspace.log ++ [⟨level, message⟩] }

/-- The template of a path. A template that has to be compiled is announced once it was read. -/
def template (workspace : Workspace) (path : String) :
    Except RunError Template.Compiled × Workspace :=
  let found := workspace.cache.get workspace.store path
  let isRead := (workspace.cache.find? path).isNone && (workspace.store.readText path).isOk
  let announced :=
    if isRead then workspace.say .debug ("compiling template " ++ path) else workspace
  let changed := { announced with cache := found.2 }
  match found.1 with
  | .error error => (.error (.template error), changed)
  | .ok cached => (.ok cached.template, changed)

/-- What is said about a file that was written. -/
def outcomeLine (path : String) : Outcome → LogLine
  | .created => ⟨.info, "Creating [" ++ path ++ "]"⟩
  | .replaced => ⟨.info, "Rewriting [" ++ path ++ "]"⟩
  | .upToDate => ⟨.debug, "Up to date [" ++ path ++ "]"⟩

/-- Writes a header and says what happened to the file. -/
def write (workspace : Workspace) (readOnly : Bool) (path text : String) :
    Except WriteFault Outcome × Workspace :=
  let written := workspace.store.write readOnly path text
  let changed := { workspace with store := written.2 }
  match written.1 with
  | .error fault => (.error fault, changed)
  | .ok outcome =>
    let line := outcomeLine path outcome
    (.ok outcome, changed.say line.level line.message)

end Workspace

/-! ## Runs -/

/-- What to do when a definition fails. -/
inductive Policy where
  | abort
  | proceed
deriving DecidableEq, Repr

/-- How to run. -/
structure Config where
  output : String
  template : String
  dryRun : Bool := false
  policy : Policy := .abort
  extension : String := defaultExtension
  readOnly : Bool := true
deriving DecidableEq, Repr

/-- A definition whose header was generated, or would have been. -/
structure Entry where
  fullName : String
  path : String
  /-- What happened to the file; nothing in a dry run. -/
  outcome : Option Outcome
deriving DecidableEq, Repr

/-- What a run did. -/
structure Summary where
  entries : List Entry
  failures : List Failure
deriving DecidableEq, Repr

namespace Summary

/-- Nothing was done yet. -/
def empty : Summary := ⟨[], []⟩

/-- Did every definition succeed? -/
def isSuccess (summary : Summary) : Bool :=
  summary.failures.isEmpty

/-- The paths of the headers, in order. -/
def paths (summary : Summary) : List String :=
  summary.entries.map (·.path)

/-- How many files had the given outcome. -/
def count (summary : Summary) (outcome : Outcome) : Nat :=
  summary.entries.countP fun entry => entry.outcome = some outcome

/-- Adds a header. -/
def add (summary : Summary) (entry : Entry) : Summary :=
  { summary with entries := summary.entries ++ [entry] }

/-- Adds a failure. -/
def fail (summary : Summary) (failure : Failure) : Summary :=
  { summary with failures := summary.failures ++ [failure] }

end Summary

namespace Config

/-- Where the header of a definition goes below a directory. -/
def headerPath (config : Config) (folder : String) (definition : Definition) : String :=
  Path.push folder (definition.outputPath config.extension)

/-- Goes on after a failure, or stops with it. -/
def afterFailure (config : Config) (failure : Failure) (summary : Summary)
    (workspace : Workspace) : Except RunError Summary × Workspace :=
  match config.policy with
  | .abort => (.error (.failed failure), workspace)
  | .proceed => (.ok (summary.fail failure), workspace.say .warn failure.message)

/-- What a dry run says about a definition. -/
def dryEntry (config : Config) (folder : String) (definition : Definition) : Entry :=
  ⟨definition.fullName, config.headerPath folder definition, none⟩

/-- Lists where the headers would go. -/
def dryRunAll (config : Config) (folder : String) (definitions : List Definition)
    (workspace : Workspace) : Summary × Workspace :=
  let entries := definitions.map (config.dryEntry folder)
  let said := entries.foldl (fun workspace entry => workspace.say .info
    ("Would have generated type " ++ entry.fullName ++ " as " ++ entry.path)) workspace
  (⟨entries, []⟩, said)

/-- A definition with its context. -/
abbrev Prepared := Definition × Context

/-- Builds the contexts of definitions. -/
def prepare (config : Config) : List Definition → Summary → Workspace →
    Except RunError (List Prepared × Summary) × Workspace
  | [], summary, workspace => (.ok ([], summary), workspace)
  | definition :: rest, summary, workspace =>
    match definition.context config.extension with
    | .ok context =>
      match config.prepare rest summary workspace with
      | (.error error, workspace) => (.error error, workspace)
      | (.ok (prepared, summary), workspace) =>
        (.ok ((definition, context) :: prepared, summary), workspace)
    | .error error =>
      match config.afterFailure ⟨definition.fullName, .context error⟩ summary workspace with
      | (.error error, workspace) => (.error error, workspace)
      | (.ok summary, workspace) => config.prepare rest summary workspace

/-- Expands the template for a context and writes the header. -/
def generateOne (config : Config) (template : Template.Compiled) (context : Context)
    (path : String) (workspace : Workspace) : Except Cause Outcome × Workspace :=
  match template.expand context with
  | .error error => (.error (.expand error), workspace)
  | .ok text =>
    match workspace.write config.readOnly path text with
    | (.error fault, workspace) => (.error (.write fault), workspace)
    | (.ok outcome, workspace) => (.ok outcome, workspace)

/-- Generates the headers of contexts one after the other. -/
def generateAll (config : Config) (folder : String) (template : Template.Compiled) :
    List Prepared → Summary → Workspace → Except RunError Summary × Workspace
  | [], summary, workspace => (.ok summary, workspace)
  | (definition, context) :: rest, summary, workspace =>
    let path := config.headerPath folder definition
    let announced := workspace.say .info ("Generating type " ++ definition.fullName)
    match config.generateOne template context path announced with
    | (.ok outcome, workspace) =>
      config.generateAll folder template rest
        (summary.add ⟨definition.fullName, path, some outcome⟩) workspace
    | (.error cause, workspace) =>
      match config.afterFailure ⟨definition.fullName, cause⟩ summary workspace with
      | (.error error, workspace) => (.error error, workspace)
      | (.ok summary, workspace) => config.generateAll folder template rest summary workspace

/-- Generates headers below a directory that is spelled from the root. -/
def generateBelow (config : Config) (folder : String) (definitions : List Definition)
    (workspace : Workspace) : Except RunError Summary × Workspace :=
  match config.prepare definitions Summary.empty workspace with
  | (.error error, workspace) => (.error error, workspace)
  | (.ok (prepared, summary), workspace) =>
    match workspace.template config.template with
    | (.error error, workspace) => (.error error, workspace)
    | (.ok template, workspace) => config.generateAll folder template prepared summary workspace

/-- Generates one header per definition. -/
def run (config : Config) (definitions : List Definition) (workspace : Workspace) :
    Except RunError Summary × Workspace :=
  if definitions.isEmpty then (.error .noTypes, workspace)
  else
    match validate definitions with
    | .error error => (.error (.model error), workspace)
    | .ok _ =>
      let counted := workspace.say .info (toString definitions.length ++ " types total")
      match Path.absolute? workspace.store.currentPath config.output with
      | none => (.error (.file .emptyPath), counted)
      | some folder =>
        if config.dryRun then
          let (summary, said) := config.dryRunAll folder definitions counted
          (.ok summary, said)
        else config.generateBelow folder definitions counted

end Config

/-! ## Runs on documents -/

/-- The definitions of a document file. -/
def Store.readDefinitions (store : Store) (path : String) :
    Except DocumentError (List Definition) :=
  match store.readText path with
  | .error fault => .error (.unreadable fault)
  | .ok text => Document.parse text

/-- Generates the headers of what was read from a document. -/
def Config.runOn (config : Config) (definitions : Except DocumentError (List Definition))
    (workspace : Workspace) : Except RunError Summary × Workspace :=
  match definitions with
  | .error error => (.error (.document error), workspace)
  | .ok definitions => config.run definitions workspace

end DsdlHeaders

import DsdlHeaders.Text.Search

/-!
# Command line arguments

The command takes type-model documents (`-t`, `--types`), a template (`--template`), an output
directory (`-o`, `--output`) and the flags `--dry-run`, `--keep-going` and `-v`, `--verbose`.
`--version` and `--help` answer at once.

* An option takes its value from the next argument, from after an equals sign, or, when it is short,
  from the rest of its own argument. Only the first form of `--types` takes several values.
* Short flags may share one argument.
* Everything but `--types` is given at most once. Values are not empty, and nothing is given without
  an option. After `--` nothing may follow.

`parse` answers what was asked for, or nothing when the arguments break one of these rules.
-/

namespace DsdlHeaders.CommandLine

/-! ## Requests -/

/-- What a run was asked for. -/
structure Arguments where
  types : List String
  template : String
  output : String
  dryRun : Bool
  keepGoing : Bool
  verbose : Bool
deriving DecidableEq, Repr

/-- What the command was asked for. -/
inductive Request where
  | run (arguments : Arguments)
  | version
  | help
deriving DecidableEq, Repr

/-- Where headers go unless another directory is given. -/
def defaultOutput : String := "dsdlc_generated"

/-! ## Options -/

/-- Options that take a value. -/
inductive Slot where
  | types
  | template
  | output
deriving DecidableEq, Repr

/-- Options that take none. -/
inductive Switch where
  | dryRun
  | keepGoing
  | verbose
  | version
  | help
deriving DecidableEq, Repr

/-- An option. -/
inductive Opt where
  | slot (slot : Slot)
  | switch (switch : Switch)
deriving DecidableEq, Repr

/-- The option of a long name. -/
def Opt.ofLong? (name : List Char) : Option Opt :=
  match String.ofList name with
  | "types" => some (.slot .types)
  | "template" => some (.slot .template)
  | "output" => some (.slot .output)
  | "dry-run" => some (.switch .dryRun)
  | "keep-going" => some (.switch .keepGoing)
  | "verbose" => some (.switch .verbose)
  | "version" => some (.switch .version)
  | "help" => some (.switch .help)
  | _ => none

/-- The option of a short name. -/
def Opt.ofShort? (name : Char) : Option Opt :=
  match name with
  | 't' => some (.slot .types)
  | 'o' => some (.slot .output)
  | 'v' => some (.switch .verbose)
  | 'V' => some (.switch .version)
  | 'h' => some (.switch .help)
  | _ => none

/-! ## Reading -/

/-- What was given so far. -/
structure Given where
  types : List String
  template : Option String
  output : Option String
  dryRun : Bool
  keepGoing : Bool
  verbose : Bool
deriving DecidableEq, Repr

/-- Nothing was given. -/
def Given.nothing : Given := ⟨[], none, none, false, false, false⟩

/-- Gives an option a value. -/
def Given.put (given : Given) (slot : Slot) (value : String) : Option Given :=
  if value = "" then none
  else
    match slot with
    | .types => some { given with types := given.types ++ [value] }
    | .template =>
      if given.template.isSome then none else some { given with template := some value }
    | .output => if given.output.isSome then none else some { given with output := some value }

/-- What the reading of arguments has come to. -/
inductive Progress where
  /-- What was given, and the option that takes the next value, with whether it needs one. -/
  | going (given : Given) (slot : Option (Slot × Bool))
  /-- What was asked for does not depend on the rest. -/
  | answered (request : Request)
deriving DecidableEq, Repr

/-- Sets a switch. -/
def Given.set (given : Given) (switch : Switch) : Option Progress :=
  match switch with
  | .dryRun =>
    if given.dryRun then none else some (.going { given with dryRun := true } none)
  | .keepGoing =>
    if given.keepGoing then none else some (.going { given with keepGoing := true } none)
  | .verbose =>
    if given.verbose then none else some (.going { given with verbose := true } none)
  | .version => some (.answered .version)
  | .help => some (.answered .help)

/-- Reads a long option, without its dashes. -/
def Given.long (given : Given) (text : List Char) : Option Progress :=
  match Text.cut? ['='] text with
  | some (name, value) =>
    match Opt.ofLong? name with
    | some (.slot slot) =>
      (given.put slot (String.ofList value)).map fun given => .going given none
    | _ => none
  | none =>
    match Opt.ofLong? text with
    | some (.slot slot) => some (.going given (some (slot, true)))
    | some (.switch switch) => given.set switch
    | none => none

/-- Reads short options that share an argument, without its dash. -/
def Given.short (given : Given) : List Char → Option Progress
  | [] => some (.going given none)
  | name :: rest =>
    match Opt.ofShort? name with
    | some (.slot slot) =>
      match rest with
      | [] => some (.going given (some (slot, true)))
      | '=' :: value => (given.put slot (String.ofList value)).map fun given => .going given none
      | value => (given.put slot (String.ofList value)).map fun given => .going given none
    | some (.switch switch) =>
      match given.set switch with
      | some (.going given _) => given.short rest
      | other => other
    | none => none

/-- Is the value that an option needs there? -/
def isSettled (slot : Option (Slot × Bool)) : Bool :=
  match slot with
  | some (_, true) => false
  | _ => true

/-- Reads one argument that is not `--`. -/
def readArgument (given : Given) (slot : Option (Slot × Bool)) (argument : String) :
    Option Progress :=
  match argument.toList with
  | '-' :: '-' :: text => if isSettled slot then given.long text else none
  | '-' :: name :: text => if isSettled slot then given.short (name :: text) else none
  | _ =>
    match slot with
    | none => none
    | some (slot, _) =>
      (given.put slot argument).map fun given =>
        .going given (if slot = .types then some (slot, false) else none)

/-- What was asked for when all arguments were read. -/
def Given.finish (given : Given) (slot : Option (Slot × Bool)) : Option Request :=
  match isSettled slot, given.types, given.template with
  | true, _ :: _, some template =>
    some (.run ⟨given.types, template, given.output.getD defaultOutput, given.dryRun,
      given.keepGoing, given.verbose⟩)
  | _, _, _ => none

/-- Reads arguments. -/
def parseFrom : Given → Option (Slot × Bool) → List String → Option Request
  | given, slot, [] => given.finish slot
  | given, slot, argument :: rest =>
    if argument = "--" then if rest.isEmpty then given.finish slot else none
    else
      match readArgument given slot argument with
      | none => none
      | some (.answered request) => some request
      | some (.going given slot) => parseFrom given slot rest

/-- What the arguments ask for. -/
def parse (arguments : List String) : Option Request :=
  parseFrom Given.nothing none arguments

end DsdlHeaders.CommandLine

import DsdlHeaders.Template.ExprReader

/-!
# Reading statements

A template tree is read from the parts of a text in two steps. Each statement part is first read on
its own as a **command**: the opener of a block, a branch, a closer or an assignment. Then the
commands are nested: `nest` keeps the blocks that are open, innermost first, each with the
statements read so far, and closes the innermost block when its closer comes.

Reading fails when a command cannot be read, when a branch or a closer does not belong to the
innermost block, and when a block is still open at the end.
-/

namespace DsdlHeaders.Template

/-! ## Commands -/

/-- How deep blocks and brackets may nest together. -/
def maxNesting : Nat := 150

/-- A statement part on its own. -/
inductive Command where
  | loop (head : LoopHead)
  | branch (condition : Expr)
  | elseBranch (condition : Expr)
  | otherwise
  | assign (target : Target) (value : Expr)
  | routine (name : String) (parameters : List String) (defaults : List Expr)
  | endLoop
  | endBranch
  | endRoutine
deriving Repr

namespace Reader

/-- Names that cannot be assigned. -/
def reservedNames : List String :=
  ["true", "True", "false", "False", "none", "None", "loop", "self"]

/-- A name that can be assigned. -/
def assignable : Reader String := fun tokens => do
  let (found, rest) ← anyName tokens
  if found ∈ reservedNames then none else some (found, rest)

/-- Does a token end a list of targets? -/
def endsTargets : List Token → Bool
  | [] => true
  | .symbol s :: _ => s = .parenClose
  | .name w :: _ => w = "in"
  | _ => false

/-- Members after a name that is assigned. -/
def memberTarget : Nat → Target → Reader Target
  | 0, found, tokens => some (found, tokens)
  | rounds + 1, found, tokens =>
    match skip .dot tokens with
    | none => some (found, tokens)
    | some rest => do
      let (member, rest) ← anyName rest
      let object := match found with
        | .name w => Expr.name w
        | .member object name => .member object name
        | .unpack _ => .nothing
      memberTarget rounds (.member object member) rest

/-- A name that is assigned, or a name with members where those are allowed. -/
def nameTarget (members : Bool) : Reader Target := fun tokens => do
  let (name, rest) ← assignable tokens
  if members then memberTarget rest.length (.name name) rest else some (.name name, rest)

/-- Targets with commas between them; whether there was a comma is returned as well. -/
def targetsFor (members : Bool) : (rounds : Nat) → Reader (List Target × Bool)
  | 0, _ => none
  | rounds + 1, tokens =>
    if endsTargets tokens then some (([], false), tokens)
    else do
      let (head, rest) ←
        match skip .parenOpen tokens with
        | some rest => do
          let (inner, rest) ← targetsFor members rounds rest
          let rest ← skip .parenClose rest
          match inner with
          | ([target], false) => some (target, rest)
          | (targets, _) => some (Target.unpack targets, rest)
        | none => nameTarget members tokens
      match skip .comma rest with
      | some rest =>
        (targetsFor members rounds rest).map fun later => ((head :: later.1.1, true), later.2)
      | none => some (([head], false), rest)

/-- One target, or several that a value is unpacked into. -/
def target (members : Bool) : Reader Target := fun tokens => do
  let (found, rest) ← targetsFor members (tokens.length + 1) tokens
  match found with
  | ([only], false) => some (only, rest)
  | (targets, _) => some (.unpack targets, rest)

/-- A parameter with its default, if it has one. -/
def parameter (value : Reader Expr) : Reader (String × Option Expr) := fun tokens => do
  let (name, rest) ← assignable tokens
  match skip .assign rest with
  | some rest => (value rest).map fun found => ((name, some found.1), found.2)
  | none => some ((name, none), rest)

/-- Does every parameter after the first default have one too? -/
def defaultsLast : List (String × Option Expr) → Bool
  | [] => true
  | (_, none) :: rest => defaultsLast rest
  | (_, some _) :: rest => rest.all fun later => later.2.isSome

/-- Succeeds when nothing is left. -/
def finished (found : Option (α × List Token)) : Option α :=
  match found with
  | some (value, []) => some value
  | _ => none

/-- Reads the rest of a loop's opener. -/
def loopCommand (budget : Nat) (tokens : List Token) : Option Command := do
  let (target, rest) ← target false tokens
  let rest ← skipWord "in" rest
  let (items, rest) ← disjunction budget rest
  let (condition, rest) ←
    match skipWord "if" rest with
    | some rest => (expression budget rest).map fun found => (some found.1, found.2)
    | none => some (none, rest)
  if rest = [] then some (.loop ⟨target, items, condition, false⟩)
  else if rest = [.name "recursive"] then some (.loop ⟨target, items, condition, true⟩)
  else none

/-- Further values, each after a comma; a comma may follow the last one. -/
def valuesAfter (value : Reader Expr) : (rounds : Nat) → Reader (List Expr)
  | 0, tokens => some ([], tokens)
  | rounds + 1, tokens =>
    match skip .comma tokens with
    | none => some ([], tokens)
    | some [] => some ([], [])
    | some rest => do
      let (head, rest) ← value rest
      let (tail, rest) ← valuesAfter value rounds rest
      some (head :: tail, rest)

/-- What is assigned: a value, or several that make a list. -/
def assigned (value : Reader Expr) : Reader Expr := fun tokens => do
  let (head, rest) ← value tokens
  if isAt .comma rest then
    let (tail, rest) ← valuesAfter value rest.length rest
    some (.list (head :: tail), rest)
  else some (head, rest)

/-- Reads the rest of an assignment. -/
def assignCommand (budget : Nat) (tokens : List Token) : Option Command := do
  let (target, rest) ← target true tokens
  let rest ← skip .assign rest
  let value ← finished (assigned (expression budget) rest)
  some (.assign target value)

/-- Reads the rest of a routine's opener. -/
def routineCommand (budget : Nat) (tokens : List Token) : Option Command := do
  let (name, rest) ← anyName tokens
  let rest ← skip .parenOpen rest
  let parameters ← finished (items .parenClose (parameter (expression budget)) rest)
  if defaultsLast parameters then
    some (.routine name (parameters.map (·.1)) (parameters.filterMap (·.2)))
  else none

/-- A command without arguments. -/
def bare (tokens : List Token) (command : Command) : Option Command :=
  if tokens = [] then some command else none

/-- Reads a command. The budget is that of the opener of a block; a further branch of a block stands
one level higher. -/
def command (budget : Nat) (tokens : List Token) : Option Command := do
  let (keyword, rest) ← anyName tokens
  match keyword with
  | "for" => loopCommand budget rest
  | "if" => (finished (disjunction budget rest)).map .branch
  | "elif" => (finished (disjunction (budget + 1) rest)).map .elseBranch
  | "else" => bare rest .otherwise
  | "set" => assignCommand budget rest
  | "macro" => routineCommand budget rest
  | "endfor" => bare rest .endLoop
  | "endif" => bare rest .endBranch
  | "endmacro" => bare rest .endRoutine
  | _ => none

end Reader

/-! ## Nesting -/

/-- A block that is open. The statements of its last part are still being read. -/
inductive OpenBlock where
  | loop (head : LoopHead)
  /-- A loop whose body is complete. -/
  | loopElse (head : LoopHead) (body : List Stmt)
  /-- A condition, and the complete branches before it, last one first. -/
  | branch (before : List (Expr × List Stmt)) (condition : Expr)
  /-- All branches of a condition, last one first. -/
  | branchElse (before : List (Expr × List Stmt))
  | routine (name : String) (parameters : List String) (defaults : List Expr)
deriving Repr

/-- The statement of several branches, last one first, with what holds when all of them fail. -/
def ofBranches (branches : List (Expr × List Stmt)) (otherwise : List Stmt) : List Stmt :=
  branches.foldl (fun no branch => [.choose branch.1 branch.2 no]) otherwise

/-- The blocks that are open and the statements read so far. -/
structure Nesting where
  /-- The open blocks, innermost first, each with the statements before it, last one first. -/
  blocks : List (OpenBlock × List Stmt)
  /-- The statements of the innermost block, last one first. -/
  current : List Stmt
deriving Repr

/-- Nothing is open and nothing was read. -/
def Nesting.start : Nesting := ⟨[], []⟩

/-- Adds a statement to the innermost block. -/
def Nesting.add (nesting : Nesting) (stmt : Stmt) : Nesting :=
  { nesting with current := stmt :: nesting.current }

/-- Opens a block. -/
def Nesting.enter (nesting : Nesting) (block : OpenBlock) : Option Nesting :=
  if nesting.blocks.length < maxNesting then
    some ⟨(block, nesting.current) :: nesting.blocks, []⟩
  else none

/-- Replaces the innermost block by its next part. -/
def Nesting.continue (outer : List (OpenBlock × List Stmt)) (before : List Stmt)
    (block : OpenBlock) : Nesting :=
  ⟨(block, before) :: outer, []⟩

/-- Applies a command. -/
def Nesting.apply (nesting : Nesting) (command : Command) : Option Nesting :=
  let body := nesting.current.reverse
  match command, nesting.blocks with
  | .loop head, _ => nesting.enter (.loop head)
  | .branch condition, _ => nesting.enter (.branch [] condition)
  | .routine name parameters defaults, _ => nesting.enter (.routine name parameters defaults)
  | .assign target value, _ => some (nesting.add (.assign target value))
  | .otherwise, (.loop head, before) :: outer =>
    some (.continue outer before (.loopElse head body))
  | .otherwise, (.branch branches condition, before) :: outer =>
    some (.continue outer before (.branchElse ((condition, body) :: branches)))
  | .elseBranch later, (.branch branches condition, before) :: outer =>
    some (.continue outer before (.branch ((condition, body) :: branches) later))
  | .endLoop, (.loop head, before) :: outer =>
    some ⟨outer, .loop head body [] :: before⟩
  | .endLoop, (.loopElse head inner, before) :: outer =>
    some ⟨outer, .loop head inner body :: before⟩
  | .endBranch, (.branch branches condition, before) :: outer =>
    some ⟨outer, ofBranches ((condition, body) :: branches) [] ++ before⟩
  | .endBranch, (.branchElse branches, before) :: outer =>
    some ⟨outer, ofBranches branches body ++ before⟩
  | .endRoutine, (.routine name parameters defaults, before) :: outer =>
    some ⟨outer, .routine name parameters defaults body :: before⟩
  | _, _ => none

/-- Reads one part. -/
def Nesting.read (nesting : Nesting) (part : Part) : Option Nesting :=
  let budget := maxNesting - nesting.blocks.length
  match part with
  | .literal s => some (nesting.add (.text (String.ofList s)))
  | .tagged .output tokens =>
    (Reader.finished (Reader.expression budget tokens)).map fun value =>
      nesting.add (.output value)
  | .tagged .statement tokens => (Reader.command (budget - 1) tokens).bind nesting.apply

/-- The statements when no block is open any more. -/
def Nesting.finish (nesting : Nesting) : Option (List Stmt) :=
  if nesting.blocks.isEmpty then some nesting.current.reverse else none

/-- The statements of parts. -/
def ofParts (parts : List Part) : Option (List Stmt) :=
  (parts.foldlM Nesting.read Nesting.start).bind Nesting.finish

/-- The statements of a text in statement notation. -/
def statements (source : List Char) : Option (List Stmt) :=
  (parts source).bind ofParts

end DsdlHeaders.Template

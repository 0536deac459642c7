/-!
# Template trees

What a template says, as data. A template is a list of **statements**: literal text, outputs, loops,
conditions, assignments and routines. Statements hold **expressions**.

A **routine** is a named piece of template with parameters. `captured` lists the names that a
routine takes from the place where it stands: the names that it reads and does not assign before.
-/

namespace DsdlHeaders.Template

/-! ## Expressions -/

/-- Operators between two values that both are evaluated. -/
inductive BinaryOp where
  | add
  | subtract
  | multiply
  | divide
  | floorDivide
  | modulo
  | power
  | concat
deriving DecidableEq, Repr

/-- Questions about two values. -/
inductive Comparison where
  | equal
  | notEqual
  | less
  | lessEqual
  | greater
  | greaterEqual
  | isIn
  | notIn
deriving DecidableEq, Repr

/-- An expression. -/
inductive Expr where
  | name (name : String)
  | text (value : String)
  | integer (value : Nat)
  /-- The number `digits · 10^exponent`. -/
  | decimal (digits : Nat) (exponent : Int)
  | boolean (value : Bool)
  | nothing
  /-- The value of a condition that fails and has no alternative. -/
  | absent
  | list (items : List Expr)
  /-- Keys and values in turn. -/
  | map (parts : List Expr)
  | negate (operand : Expr)
  | not (operand : Expr)
  | and (left right : Expr)
  | or (left right : Expr)
  | binary (op : BinaryOp) (left right : Expr)
  /-- A chain such as `a < b <= c`: all its links have to hold. -/
  | compare (first : Expr) (links : List Comparison) (operands : List Expr)
  | choose (condition yes no : Expr)
  | member (object : Expr) (name : String)
  | item (object key : Expr)
  | slice (object start stop step : Expr)
  /-- As an argument: all items of a value, each as an argument of its own. -/
  | spread (items : Expr)
  /-- Keyword arguments come last. Where a keyword is missing, its value is a map of them. -/
  | call (callee : Expr) (arguments : List Expr) (keywords : List (Option String))
      (values : List Expr)
  | filter (name : String) (operand : Expr) (arguments : List Expr)
      (keywords : List (Option String)) (values : List Expr)
  | test (name : String) (operand : Expr) (arguments : List Expr)
      (keywords : List (Option String)) (values : List Expr)
deriving Repr

/-! ## Statements -/

/-- What a value is assigned to. -/
inductive Target where
  | name (name : String)
  | unpack (targets : List Target)
  | member (object : Expr) (name : String)
deriving Repr

/-- What a loop walks over. -/
structure LoopHead where
  target : Target
  items : Expr
  /-- Which items count. -/
  condition : Option Expr
  /-- May the body ask for the loop to be run again, over other items? -/
  recursive : Bool
deriving Repr

/-- A statement. -/
inductive Stmt where
  | text (value : String)
  | output (value : Expr)
  | loop (head : LoopHead) (body otherwise : List Stmt)
  | choose (condition : Expr) (yes no : List Stmt)
  | assign (target : Target) (value : Expr)
  | routine (name : String) (parameters : List String) (defaults : List Expr) (body : List Stmt)
deriving Repr

/-! ## Captured names -/

/-- The name by which a routine may ask for the text of its caller. -/
def callerName : String := "caller"

/-- The names that were read and are not assigned, and the names assigned so far. -/
structure Usage where
  /-- Names that a scope takes from outside. -/
  free : List String
  /-- Names that were assigned in a scope that is still open. -/
  bound : List String

/-- Counts a name as read. -/
def Usage.read (usage : Usage) (name : String) : Usage :=
  if name ∈ usage.bound || name ∈ usage.free then usage
  else { usage with free := usage.free ++ [name] }

/-- Counts names as assigned. -/
def Usage.bind (usage : Usage) (names : List String) : Usage :=
  { usage with bound := names ++ usage.bound }

mutual

/-- The names that count as read by an expression. What a slice is taken from does not count. -/
def Expr.names : Expr → List String
  | .name x => [x]
  | .text _ => []
  | .integer _ => []
  | .decimal _ _ => []
  | .boolean _ => []
  | .nothing => []
  | .absent => []
  | .list items => Expr.namesAll items
  | .map parts => Expr.namesAll parts
  | .negate operand => operand.names
  | .not operand => operand.names
  | .and left right => left.names ++ right.names
  | .or left right => left.names ++ right.names
  | .binary _ left right => left.names ++ right.names
  | .compare first _ operands => first.names ++ Expr.namesAll operands
  | .choose condition yes no => condition.names ++ yes.names ++ no.names
  | .member object _ => object.names
  | .item object key => object.names ++ key.names
  | .slice _ start stop step => start.names ++ stop.names ++ step.names
  | .spread items => items.names
  | .call callee arguments _ values =>
    callee.names ++ Expr.namesAll arguments ++ Expr.namesAll values
  | .filter _ operand arguments _ values =>
    operand.names ++ Expr.namesAll arguments ++ Expr.namesAll values
  | .test _ operand arguments _ values =>
    operand.names ++ Expr.namesAll arguments ++ Expr.namesAll values

/-- The names that expressions read. -/
def Expr.namesAll : List Expr → List String
  | [] => []
  | e :: es => e.names ++ Expr.namesAll es

end

/-- Counts the names of an expression as read. -/
def Usage.readAll (usage : Usage) (names : List String) : Usage :=
  names.foldl Usage.read usage

mutual

/-- The names that a target assigns. -/
def Target.assigned : Target → List String
  | .name x => [x]
  | .unpack targets => Target.assignedAll targets
  | .member _ _ => []

/-- The names that targets assign. -/
def Target.assignedAll : List Target → List String
  | [] => []
  | t :: ts => t.assigned ++ Target.assignedAll ts

end

mutual

/-- The usage of names after a statement. What a loop, a branch or a routine assigns is forgotten
after it. -/
def Stmt.usage : Stmt → Usage → Usage
  | .text _, usage => usage
  | .output value, usage => usage.readAll value.names
  | .loop head body otherwise, usage =>
    let started := ((usage.bind ["loop"]).readAll head.items.names).bind head.target.assigned
    let checked := started.readAll ((head.condition.map Expr.names).getD [])
    let afterBody := Stmt.usageAll body checked
    let afterAll := Stmt.usageAll otherwise ⟨afterBody.free, usage.bound⟩
    ⟨afterAll.free, usage.bound⟩
  | .choose condition yes no, usage =>
    let afterYes := Stmt.usageAll yes (usage.readAll condition.names)
    let afterNo := Stmt.usageAll no ⟨afterYes.free, usage.bound⟩
    ⟨afterNo.free, usage.bound⟩
  | .assign target value, usage =>
    (usage.bind target.assigned).readAll value.names
  | .routine name parameters defaults body, usage =>
    let named := usage.bind [name]
    let started := (named.bind (callerName :: parameters)).readAll (Expr.namesAll defaults)
    ⟨(Stmt.usageAll body started).free, named.bound⟩

/-- The usage of names after statements. -/
def Stmt.usageAll : List Stmt → Usage → Usage
  | [], usage => usage
  | s :: rest, usage => Stmt.usageAll rest (s.usage usage)

end

/-- A named piece of template with parameters. -/
structure Routine where
  name : String
  parameters : List String
  /-- The defaults of the last parameters. -/
  defaults : List Expr
  body : List Stmt
deriving Repr

/-- The names that a routine reads and does not assign before. -/
def Routine.free (routine : Routine) : List String :=
  let started : Usage := ⟨[], routine.parameters⟩
  (Stmt.usageAll routine.body (started.readAll (Expr.namesAll routine.defaults))).free

/-- The names that a routine takes from the place where it stands. -/
def Routine.captured (routine : Routine) : List String :=
  routine.free.filter (· ≠ callerName)

/-- Does a routine ask for the text of its caller? -/
def Routine.asksCaller (routine : Routine) : Bool :=
  callerName ∈ routine.free

end DsdlHeaders.Template

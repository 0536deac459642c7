import DsdlHeaders.Template.Constant
import DsdlHeaders.Template.Library

/-!
# Expanding templates

The value of expressions and the effect of statements. Evaluation goes from left to right and stops
at the first error.

Expressions and statements are walked by recursion on the tree. Only a **jump** leaves the tree: a
call of a routine or a loop that is run again executes the body of another statement. So everything
here takes the meaning of jumps as a parameter, `Invoke`, and `jump` ties the knot level by level.
Every jump opens a frame, so jumps never nest deeper than `maxDepth`.
-/

namespace DsdlHeaders.Template

open Eval

/-! ## Expressions -/

/-- What leads from an expression back to statements. -/
inductive Jump where
  /-- A call of a routine, with its closure. -/
  | routine (routine : Routine) (closure : Option Nat) (arguments : List Value)
  /-- A loop that is run again, over other items. -/
  | again (loop : Again) (items : Value)

/-- What a jump gives. -/
abbrev Invoke := Jump → Eval Value

/-- Calls a value. -/
def callValue (invoke : Invoke) (callee : Value) (arguments : List Value) : Eval Value :=
  match callee with
  | .function function => function.call arguments
  | .routine routine closure => invoke (.routine routine closure arguments)
  | _ => fail .invalidOperation

/-- Runs a loop again, if it may be. The only argument holds the items. -/
def callLoop (invoke : Invoke) (again : Option Again) (arguments : List Value) : Eval Value :=
  match again, arguments with
  | some loop, [items] => invoke (.again loop items)
  | _, _ => fail .invalidOperation

/-- Calls what a name stands for. One name always means the innermost loop; another one is set aside
for a call that leads nowhere here. -/
def callName (invoke : Invoke) (name : String) (arguments : List Value) : Eval Value := do
  let machine ← get
  if name = "super" then fail .invalidOperation
  else if name = loopName then
    match machine.innermost? with
    | some walk => callLoop invoke walk.again arguments
    | none => fail .unknownFunction
  else
    match machine.lookup? name with
    | some callee => callValue invoke callee arguments
    | none => fail .unknownFunction

/-- Was a loop told something else before? It remembers what it is told if so. -/
def loopChanged (walk : Nat) (arguments : List Value) : Eval Value := do
  let same ← match ((← get).walks[walk]?).bind (·.changed) with
    | none => pure false
    | some before =>
      if before.length = arguments.length then equalItems equalValues before arguments
      else pure false
  if same then pure (.boolean false)
  else do
    modifyWalk walk fun found => { found with changed := some arguments }
    pure (.boolean true)

/-- Calls a member of a value. A loop has two of its own: one that notices a change between turns
and one that takes its arguments in turn. -/
def callMember (invoke : Invoke) (object : Value) (name : String) (arguments : List Value) :
    Eval Value :=
  match object with
  | .loop walk _ index _ _ =>
    match name with
    | "changed" => loopChanged walk arguments
    | "cycle" => pure (arguments[index % arguments.length]?.getD .missing)
    | _ => fail .unknownMethod
  | _ =>
    match object.member? name with
    | some callee => callValue invoke callee arguments
    | none => fail .unknownMethod

/-- Does an expression stand for the blocks of the template? -/
def Expr.standsForBlocks : Expr → Bool
  | .name n => n = "self"
  | _ => false

/-! ## Operators -/

/-- Applies a binary operator. Only texts joined with `~` refuse undefined values as such. A sum
that comes from a stream gets a mark. -/
def applyBinary (op : BinaryOp) (a b : Value) : Eval Value :=
  match op with
  | .concat => do
    let first ← printed a
    let second ← printed b
    pure (.text (first ++ second))
  | _ => do
    let result ← orInvalid (op.apply a b)
    match result with
    | .joined _ first second => do
      let mark ← freshMark
      pure (.joined mark first second)
    | _ => pure result

/-! ## Arguments -/

/-- Items with their positions as keys. -/
def positioned (place : Nat) : List Value → List (Value × Value)
  | [] => []
  | item :: rest => (.word place, item) :: positioned (place + 1) rest

/-- The entries that a keyword argument adds; one without keyword is a map of them, or a sequence,
whose items have their positions as keys. -/
def keywordEntries (keyword : Option String) (value : Value) : Eval (List (Value × Value)) :=
  match keyword with
  | some name => pure [(.text name, value)]
  | none => do
    present value
    if value.isSequence then do
      let items ← allItems value
      pure (positioned 0 items)
    else entriesOf value

/-- The entries of all keyword arguments. -/
def allKeywordEntries : List (Option String) → List Value → Eval (List (Value × Value))
  | keyword :: keywords, value :: values => do
    let found ← keywordEntries keyword value
    let later ← allKeywordEntries keywords values
    pure (found ++ later)
  | _, _ => pure []

/-- The value of an argument, and whether its items are arguments of their own. -/
abbrev Given := Bool × Value

/-- Arguments with items in place of what is spread. -/
def spreadOut : List Given → Eval (List Value)
  | [] => pure []
  | (isSpread, value) :: rest => do
    let found ← if isSpread then allItems value else pure [value]
    let later ← spreadOut rest
    pure (found ++ later)

/-- All arguments, once they have values: the keyword arguments come last as one map. -/
def assembled (arguments : List Given) (keywords : List (Option String))
    (values : List Value) : Eval (List Value) := do
  let found ← allKeywordEntries keywords values
  let positional ← spreadOut arguments
  if keywords.isEmpty then pure positional
  else pure (positional ++ [.entries true (Value.sortEntries found)])

/-! ## Evaluation -/

mutual

/-- The value of an expression. -/
def evaluate (invoke : Invoke) : Expr → Eval Value
  | .name n => do
    let machine ← get
    pure ((machine.lookup? n).getD .missing)
  | .text s => pure (.text s)
  | .integer n => pure (.word n)
  | .decimal digits exponent => pure (.float (Value.decimalFloat digits exponent))
  | .boolean b => pure (.boolean b)
  | .nothing => pure .nothing
  | .absent => pure (.undefined true)
  | .list items => do
    let values ← evaluateAll invoke items
    pure (.list values)
  | .map parts => do
    let values ← evaluateAll invoke parts
    pure (.map (inPairs values))
  | .negate operand => do
    let value ← evaluate invoke operand
    orInvalid value.negate
  | .not operand => do
    let value ← evaluate invoke operand
    let holds ← truth value
    pure (.boolean !holds)
  | .and left right =>
    match left.constant?, right.constant? with
    | some a, some b => pure (Value.conjunction a b)
    | _, _ => do
      let value ← evaluate invoke left
      let holds ← truth value
      if holds then evaluate invoke right else pure value
  | .or left right => do
    let value ← evaluate invoke left
    let holds ← truth value
    if holds then pure value else evaluate invoke right
  | .binary op left right => do
    let a ← evaluate invoke left
    let b ← evaluate invoke right
    applyBinary op a b
  | .compare first links operands => do
    let value ← evaluate invoke first
    let holds ← evaluateChain invoke value links operands
    pure (.boolean holds)
  | .choose condition yes no => do
    let value ← evaluate invoke condition
    let holds ← truth value
    if holds then evaluate invoke yes else evaluate invoke no
  | .member object m => do
    let value ← evaluate invoke object
    memberOf value m
  | .item object key => do
    let value ← evaluate invoke object
    let key ← evaluate invoke key
    itemOf value key
  | .slice object start stop step => do
    let value ← evaluate invoke object
    let start ← evaluate invoke start
    let stop ← evaluate invoke stop
    let step ← evaluate invoke step
    sliceOf value start stop step
  | .spread items => evaluate invoke items
  | .call (.name f) arguments keywords values => do
    let arguments ← evaluateArguments invoke arguments
    let values ← evaluateAll invoke values
    let given ← assembled arguments keywords values
    callName invoke f given
  | .call (.member object m) arguments keywords values =>
    if object.standsForBlocks then fail .unknownBlock
    else do
      let object ← evaluate invoke object
      let arguments ← evaluateArguments invoke arguments
      let values ← evaluateAll invoke values
      let given ← assembled arguments keywords values
      callMember invoke object m given
  | .call callee arguments keywords values => do
    let callee ← evaluate invoke callee
    let arguments ← evaluateArguments invoke arguments
    let values ← evaluateAll invoke values
    let given ← assembled arguments keywords values
    callValue invoke callee given
  | .filter f operand arguments keywords values => do
    let value ← evaluate invoke operand
    let arguments ← evaluateArguments invoke arguments
    let values ← evaluateAll invoke values
    let given ← assembled arguments keywords values
    applyFilter f (value :: given)
  | .test t operand arguments keywords values => do
    let value ← evaluate invoke operand
    let arguments ← evaluateArguments invoke arguments
    let values ← evaluateAll invoke values
    let given ← assembled arguments keywords values
    let passed ← applyTest t (value :: given)
    pure (.boolean passed)
termination_by structural e => e

/-- The values of expressions, from left to right. -/
def evaluateAll (invoke : Invoke) : List Expr → Eval (List Value)
  | [] => pure []
  | e :: rest => do
    let value ← evaluate invoke e
    let values ← evaluateAll invoke rest
    pure (value :: values)

/-- The values of arguments, from left to right. -/
def evaluateArguments (invoke : Invoke) : List Expr → Eval (List Given)
  | [] => pure []
  | .spread items :: rest => do
    let value ← evaluate invoke items
    let values ← evaluateArguments invoke rest
    pure ((true, value) :: values)
  | e :: rest => do
    let value ← evaluate invoke e
    let values ← evaluateArguments invoke rest
    pure ((false, value) :: values)

/-- Do all links of a chain hold? What follows the first one that fails is not evaluated. -/
def evaluateChain (invoke : Invoke) : (left : Value) → List Comparison → List Expr → Eval Bool
  | left, link :: links, operand :: rest => do
    let right ← evaluate invoke operand
    let holds ← compared link left right
    if holds then evaluateChain invoke right links rest else pure false
  | _, _, _ => pure true
termination_by structural _ _ operands => operands

end

/-! ## Statements -/

/-- The parts of a value that is unpacked. -/
def unpacked (value : Value) : Eval (List Value) :=
  if value.isSequence || value.isMapping then allItems value else fail .cannotUnpack

mutual

/-- Assigns a value to a target. -/
def assign (invoke : Invoke) : Target → Value → Eval Unit
  | .name n, value => store n value
  | .unpack targets, value => do
    let parts ← unpacked value
    if parts.length = targets.length then assignAll invoke targets parts
    else fail .cannotUnpack
  | .member object _, _ => do
    let _ ← evaluate invoke object
    fail .invalidOperation
termination_by structural t => t

/-- Assigns values to targets, one to one. -/
def assignAll (invoke : Invoke) : List Target → List Value → Eval Unit
  | target :: targets, value :: values => do
    assign invoke target value
    assignAll invoke targets values
  | _, _ => pure ()

end

/-- The value of an output. When all of it is a loop that is run again over spread items, the loop
gets the number of these items, which cannot be walked. -/
def outputValue (invoke : Invoke) (e : Expr) : Eval Value :=
  match e with
  | .call (.name f) [.spread items] [] [] =>
    if f = loopName then do
      let value ← evaluate invoke items
      let found ← allItems value
      callName invoke f [Value.counted found.length]
    else evaluate invoke e
  | _ => evaluate invoke e

/-- The items of a value that pass the condition of a loop. Each of them is tried before the next
one is taken. -/
def selected (invoke : Invoke) (target : Target) (condition : Expr) (value : Value) :
    Eval Value := do
  let kept ← walk false none value fun item => do
    assign invoke target item
    let value ← evaluate invoke condition
    let holds ← truth value
    pure (if holds then some item else none)
  pure (.list (kept.filterMap id))

mutual

/-- Runs a statement. -/
def execute (invoke : Invoke) : Stmt → Eval Unit
  | .text s => write s
  | .output e => do
    let value ← outputValue invoke e
    let text ← printed value
    write text
  | .loop head body otherwise => do
    let value ← evaluate invoke head.items
    let value ← match head.condition with
      | none => pure value
      | some condition => selected invoke head.target condition value
    let again := if head.recursive then some ⟨head.target, body⟩ else none
    let turns ← walk true again value fun item => do
      assign invoke head.target item
      executeAll invoke body
    if turns.isEmpty then executeAll invoke otherwise else pure ()
  | .choose condition yes no => do
    let value ← evaluate invoke condition
    let holds ← truth value
    if holds then executeAll invoke yes else executeAll invoke no
  | .assign target e => do
    let value ← evaluate invoke e
    assign invoke target value
  | .routine name parameters defaults body => do
    let routine : Routine := ⟨name, parameters, defaults, body⟩
    let machine ← get
    let (captured, closure) := machine.captureAll routine.captured
    set captured
    store name (.routine routine closure)
termination_by structural s => s

/-- Runs statements one after the other. -/
def executeAll (invoke : Invoke) : List Stmt → Eval Unit
  | [] => pure ()
  | s :: rest => do
    execute invoke s
    executeAll invoke rest

end

/-! ## Calls of routines -/

/-- Splits keyword arguments, which come last, from the others. -/
def splitKeywords (arguments : List Value) : List Value × List (Value × Value) :=
  match arguments.getLast? with
  | some (.entries true found) => (arguments.dropLast, found)
  | _ => (arguments, [])

/-- The values of parameters. Each is given by position or by keyword, not by both; one that is not
given is undefined. -/
def bindParameters (keywords : List (Value × Value)) :
    (parameters : List String) → (given : List Value) → Except EvalError (List Value)
  | [], [] => .ok []
  | [], _ :: _ => .error .tooManyArguments
  | parameter :: parameters, given =>
    match given, Value.lookup? (.text parameter) keywords with
    | _ :: _, some _ => .error .tooManyArguments
    | value :: given, none => do
      let values ← bindParameters keywords parameters given
      .ok (value :: values)
    | [], found => do
      let values ← bindParameters keywords parameters []
      .ok (found.getD .missing :: values)

/-- Does a keyword name a parameter that was not given by position? -/
def Routine.knows (routine : Routine) (keyword : Value) : Bool :=
  match keyword with
  | .text k => k ∈ routine.parameters || (routine.asksCaller && k = callerName)
  | _ => true

/-- The values of a routine's parameters, and what its caller hands in. -/
def Routine.bind (routine : Routine) (arguments : List Value) :
    Except EvalError (List Value × Bindings) := do
  let (given, keywords) := splitKeywords arguments
  let values ← bindParameters keywords routine.parameters given
  if keywords.all fun e => routine.knows e.1 then
    let caller := (Value.lookup? (.text callerName) keywords).getD .missing
    .ok (values, if routine.asksCaller then [(callerName, caller)] else [])
  else .error .tooManyArguments

/-- Stores the values of parameters, the last one first. Where a default is left, it stands in for
an undefined value. -/
def storeParameters (invoke : Invoke) :
    (lastFirst : List (String × Value)) → (defaults : List Expr) → Eval Unit
  | [], _ => pure ()
  | (parameter, value) :: rest, [] => do
    store parameter value
    storeParameters invoke rest []
  | (parameter, value) :: rest, default :: defaults => do
    let value ← if value.isUndefined then evaluate invoke default else pure value
    store parameter value
    storeParameters invoke rest defaults

/-- The frame that a call runs in. -/
def callFrame (closure : Option Nat) (names : Bindings) : Frame where
  names := names
  closure := none
  base := closure
  walk := none

/-- Runs a routine on its own: it sees its parameters and its closure; its text is the result. -/
def runRoutine (invoke : Invoke) (routine : Routine) (closure : Option Nat)
    (arguments : List Value) : Eval Value := do
  let (values, names) ← settled (routine.bind arguments)
  let caller ← get
  let outer := caller.depth + callCost
  if maxDepth < outer + 1 then fail .invalidOperation
  else
    set { caller with frames := [callFrame closure names], output := "", outer := outer }
    storeParameters invoke (routine.parameters.zip values).reverse routine.defaults.reverse
    executeAll invoke routine.body
    let finished ← get
    set { finished with frames := caller.frames, output := caller.output, outer := caller.outer }
    pure (.text finished.output)

/-- Runs a loop again; its text is the result. The condition of the loop does not apply. -/
def runAgain (invoke : Invoke) (loop : Again) (items : Value) : Eval Value := do
  let caller ← get
  set { caller with output := "" }
  let _ ← walk true (some loop) items fun item => do
    assign invoke loop.target item
    executeAll invoke loop.body
  let finished ← get
  set { finished with output := caller.output }
  pure (.text finished.output)

/-- Makes jumps, with a bound on how deep they nest from here. -/
def jump : (levels : Nat) → Invoke
  | 0 => fun _ => fail .invalidOperation
  | levels + 1 => fun target =>
    match target with
    | .routine routine closure arguments => runRoutine (jump levels) routine closure arguments
    | .again loop items => runAgain (jump levels) loop items

/-! ## Whole templates -/

/-- The state before an expansion in a context. -/
def Machine.start (context : Bindings) : Machine :=
  { Machine.blank with context := context, frames := [⟨[], none, none, none⟩] }

/-- The text of statements, in which the given names have values. -/
def expandAll (body : List Stmt) (names : Bindings) : Except EvalError String :=
  ((executeAll (jump maxDepth) body).run (Machine.start names)).map fun result =>
    result.2.output

end DsdlHeaders.Template

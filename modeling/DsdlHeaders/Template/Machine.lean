import DsdlHeaders.Template.Cursor
import DsdlHeaders.Template.Operators

/-!
# The state of an expansion

An expansion keeps track of the names in scope, of closures, of streams, of the loops that are
running and of the text written so far.

* **Frames.** A loop and a routine open a frame. Names are looked up from the innermost frame to the
  outermost one, and assigned in the innermost one. Below the names of a routine's frame lies its
  closure, and below all frames lies the context of the template.
* **Closures.** The first routine that captures a name gives its frame a closure, which all routines
  of that frame share. A later assignment in the frame reaches the closure too, so routines may call
  one another whatever their order.
* **Loops.** The frame of a loop also knows the name `loop`, which stands for its present turn,
  whenever it was looked up. Only the walk that tries the condition of a loop has no such name.
* **Walks.** Every walk pulls its items: the next item is taken only when it is needed. Starting a
  walk over something that runs backwards takes all its items at once.
-/

namespace DsdlHeaders.Template

/-! ## Errors -/

/-- Why an expansion fails. -/
inductive EvalError where
  /-- An undefined value was used. -/
  | undefinedValue
  | invalidOperation
  /-- A value of this kind was asked for its length. -/
  | noLength (kind : String)
  | unknownFunction
  | unknownFilter
  | unknownMethod
  /-- A block of the template was called, and there are none. -/
  | unknownBlock
  | unknownTest
  | missingArgument
  | tooManyArguments
  | cannotUnpack
deriving DecidableEq, Repr

/-! ## Names -/

/-- Names with their values. -/
abbrev Bindings := List (String × Value)

/-- The value of a name. -/
def Bindings.find? (bindings : Bindings) (name : String) : Option Value :=
  match bindings with
  | [] => none
  | (n, v) :: rest => if n = name then some v else Bindings.find? rest name

/-- Gives a name a value. -/
def Bindings.insert (bindings : Bindings) (name : String) (value : Value) : Bindings :=
  (name, value) :: bindings.filter fun b => b.1 ≠ name

/-- The names of a loop, a routine or the template itself. -/
structure Frame where
  names : Bindings
  /-- The closure that routines of this frame share, if there is one. -/
  closure : Option Nat
  /-- The closure of the routine that runs in this frame, if one does. -/
  base : Option Nat
  /-- The walk of the loop that the frame belongs to, if it belongs to one. -/
  walk : Option Nat

/-- A loop that may be run again over other items. -/
structure Again where
  target : Target
  body : List Stmt

/-- What is known of a loop that is running. -/
structure Walk where
  /-- The present turn. -/
  turn : Value
  /-- How often the loop runs inside a loop that may be run again. -/
  depth : Nat
  again : Option Again
  /-- Does the name `loop` stand for its present turn? -/
  named : Bool
  /-- What is left to walk. -/
  rest : Cursor
  /-- The next item, or that there is no more, once a template has asked for it. -/
  ahead : Option (Option Value)
  /-- What the loop was last told to compare with. -/
  changed : Option (List Value)

/-! ## The machine -/

/-- The state of an expansion. -/
structure Machine where
  /-- The context of the template. -/
  context : Bindings
  /-- The frames, innermost first. -/
  frames : List Frame
  closures : List Bindings
  /-- The streams, in the order in which they were made. -/
  streams : List Stream
  /-- The loops that are running, outermost first. -/
  walks : List Walk
  /-- The next mark of something that is built from a stream. -/
  mark : Nat
  output : String
  /-- How deep the place of the call lies that this part of the expansion answers. -/
  outer : Nat

/-- A computation of an expansion. -/
abbrev Eval (α : Type) := StateT Machine (Except EvalError) α

/-- How deep frames may nest, over all calls. -/
def maxDepth : Nat := 500

/-- How many levels a call counts for beyond its frame. -/
def callCost : Nat := 5

/-- How deep the innermost frame lies. -/
def Machine.depth (machine : Machine) : Nat :=
  machine.outer + machine.frames.length

/-- What a closure knows of a name. -/
def Machine.inClosure? (machine : Machine) (closure : Option Nat) (name : String) :
    Option Value :=
  (closure.bind (machine.closures[·]?)).bind (·.find? name)

/-- The name that stands for the present turn of a loop. -/
def loopName : String := "loop"

/-- The present turn of the loop that a frame belongs to, if a name asks for it. -/
def Machine.inLoop? (machine : Machine) (frame : Frame) (name : String) : Option Value :=
  if name = loopName then
    ((frame.walk.bind (machine.walks[·]?)).filter Walk.named).map Walk.turn
  else none

/-- What frames know of a name, the innermost first. -/
def Machine.inFrames? (machine : Machine) : List Frame → String → Option Value
  | [], _ => none
  | frame :: outer, name =>
    (frame.names.find? name).or <| (machine.inLoop? frame name).or <|
      (machine.inClosure? frame.base name).or <| machine.inFrames? outer name

/-- The innermost loop of the frames that are in use. -/
def Machine.innermost? (machine : Machine) : Option Walk :=
  (machine.frames.findSome? Frame.walk).bind (machine.walks[·]?)

/-- How often a loop that starts now runs inside a loop that may be run again. -/
def Machine.loopDepth (machine : Machine) : Nat :=
  match machine.innermost? with
  | some walk => if walk.again.isSome then walk.depth + 1 else 0
  | none => 0

/-- A value as it is now: a loop that was stored earlier is at its present turn. -/
def Machine.present (machine : Machine) : Value → Value
  | .loop walk depth index length previous =>
    ((machine.walks[walk]?).map Walk.turn).getD (.loop walk depth index length previous)
  | value => value

/-- The function of a name that every template knows. -/
def Builtin.ofName? (name : String) : Option Builtin :=
  match name with
  | "range" => some .range
  | "indent" => some .indent
  | "enum_last_value" => some .enumLastValue
  | "enumerate" => some .enumerate
  | "len" => some .len
  | _ => none

/-- The value of a name. -/
def Machine.lookup? (machine : Machine) (name : String) : Option Value :=
  ((machine.inFrames? machine.frames name).map machine.present).or <|
    (machine.context.find? name).or <| (Builtin.ofName? name).map .function

/-- Gives a name a value in a closure. -/
def Machine.inClosure (machine : Machine) (index : Nat) (name : String) (value : Value) :
    Machine :=
  { machine with closures := machine.closures.modify index (·.insert name value) }

/-- Gives a name a value in the innermost frame and in its closure. -/
def Machine.store (machine : Machine) (name : String) (value : Value) : Machine :=
  match machine.frames with
  | [] => machine
  | frame :: outer =>
    let stored := { machine with
      frames := { frame with names := frame.names.insert name value } :: outer }
    match frame.closure with
    | none => stored
    | some index => stored.inClosure index name value

/-- Puts the value that a name has now into a closure, unless the closure knows the name. -/
def Machine.capture (machine : Machine) (index : Nat) (name : String) : Machine :=
  match machine.inClosure? (some index) name with
  | some _ => machine
  | none => machine.inClosure index name ((machine.lookup? name).getD .missing)

/-- Captures names for a routine of the innermost frame. Without names the frame needs no
closure. -/
def Machine.captureAll (machine : Machine) (names : List String) : Machine × Option Nat :=
  match machine.frames with
  | [] => (machine, none)
  | frame :: outer =>
    match frame.closure, names with
    | some index, _ => (names.foldl (·.capture index ·) machine, some index)
    | none, [] => (machine, none)
    | none, _ :: _ =>
      let index := machine.closures.length
      let opened := { machine with
        frames := { frame with closure := some index } :: outer
        closures := machine.closures ++ [[]] }
      (names.foldl (·.capture index ·) opened, some index)

namespace Eval

/-! ## Steps -/

/-- Fails. -/
def fail (error : EvalError) : Eval α :=
  fun _ => .error error

/-- The value, or an invalid operation. -/
def orInvalid (value : Option α) : Eval α :=
  match value with
  | some value => pure value
  | none => fail .invalidOperation

/-- A result that was found without the state. -/
def settled (result : Except EvalError α) : Eval α :=
  match result with
  | .ok value => pure value
  | .error error => fail error

/-- Adds to the text. -/
def write (text : String) : Eval Unit :=
  modify fun machine => { machine with output := machine.output ++ text }

/-- Gives a name a value. -/
def store (name : String) (value : Value) : Eval Unit :=
  modify fun machine => machine.store name value

/-- Runs something in a frame of its own, which may belong to a loop. -/
def inFrame (walk : Option Nat) (action : Eval α) : Eval α := do
  modify fun machine => { machine with frames := ⟨[], none, none, walk⟩ :: machine.frames }
  if maxDepth < (← get).depth then fail .invalidOperation
  else
    let result ← action
    modify fun machine => { machine with frames := machine.frames.drop 1 }
    pure result

/-- Refuses an undefined value unless it is silent. -/
def present (value : Value) : Eval Unit :=
  if value.isMissing then fail .undefinedValue else pure ()

/-! ## Pulling items -/

/-- A mark that nothing has yet. -/
def freshMark : Eval Nat := do
  let machine ← get
  set { machine with mark := machine.mark + 1 }
  pure machine.mark

/-- A new stream. -/
def newStream (stream : Stream) : Eval Value := do
  let machine ← get
  set { machine with streams := machine.streams ++ [stream] }
  pure (.stream machine.streams.length)

/-- The next item of a cursor, and the cursor after it. -/
def pull (cursor : Cursor) : Eval (Option Value × Cursor) := do
  let machine ← get
  let found := cursor.pull machine.streams
  set { machine with streams := found.streams }
  pure (found.item, found.rest)

/-- The most items that can still be pulled. -/
def remaining (cursor : Cursor) : Eval Nat := do
  let machine ← get
  pure (cursor.remaining machine.streams)

/-- What visits of the next items of a cursor give, at most `count`. Each item is pulled after the
visit of the one before it. -/
def visitNext (visit : Value → Eval α) : (count : Nat) → Cursor → Eval (List α)
  | 0, _ => pure []
  | count + 1, cursor => do
    match ← pull cursor with
    | (none, _) => pure []
    | (some item, rest) => do
      let found ← visit item
      let later ← visitNext visit count rest
      pure (found :: later)

/-- All items that a cursor still meets. -/
def drained (cursor : Cursor) : Eval (List Value) :=
  match cursor with
  | .items rest => pure rest
  | _ => do
    let most ← remaining cursor
    visitNext pure most cursor

/-- Starts a walk over a value. What runs backwards takes all items of its source. -/
def opened : Value → Eval Cursor
  | .stream index => pure (.stream index)
  | .joined _ first second => do
    let one ← opened first
    let other ← opened second
    pure (.chain one other)
  | .window _ source start count step => do
    let cursor ← opened source
    pure (.window cursor start count 0 step)
  | .backward _ source start stop step => do
    let cursor ← opened source
    let items ← drained cursor
    pure (.items (Value.sliceBackward start stop step items))
  | value => do
    let items ← orInvalid value.items?
    pure (.items items)

/-- All items of a value. A stream is empty afterwards. -/
def allItems (value : Value) : Eval (List Value) := do
  let cursor ← opened value
  drained cursor

/-- What visits of all items of a value give. -/
def visitAll (visit : Value → Eval α) (value : Value) : Eval (List α) := do
  let cursor ← opened value
  let most ← remaining cursor
  visitNext visit most cursor

/-! ## Loops -/

/-- Starts the walk of a loop and gives its number and its depth. -/
def beginWalk (named : Bool) (again : Option Again) (rest : Cursor) : Eval (Nat × Nat) := do
  let machine ← get
  let depth := machine.loopDepth
  let started : Walk := ⟨.missing, depth, again, named, rest, none, none⟩
  set { machine with walks := machine.walks ++ [started] }
  pure (machine.walks.length, depth)

/-- Ends a walk and all walks inside it. -/
def endWalk (walk : Nat) : Eval Unit :=
  modify fun machine => { machine with walks := machine.walks.take walk }

/-- Changes what is known of a walk. -/
def modifyWalk (walk : Nat) (change : Walk → Walk) : Eval Unit :=
  modify fun machine => { machine with walks := machine.walks.modify walk change }

/-- The next item of a walk. It stays where it is when `keep` is set. -/
def nextItem (walk : Nat) (keep : Bool) : Eval (Option Value) := do
  match (← get).walks[walk]? with
  | none => pure none
  | some found => do
    let (item, rest) ← match found.ahead with
      | some item => pure (item, found.rest)
      | none => pull found.rest
    modifyWalk walk fun found =>
      { found with rest := rest, ahead := if keep then some item else none }
    pure item

/-- What the turns of a loop give, at most `fuel`, after those before them, last one first. -/
def eachTurn (body : Value → Eval α) (walk depth : Nat) (length : Option Nat) :
    (fuel index : Nat) → (previous : Value) → (before : List α) → Eval (List α)
  | 0, _, _, before => pure before.reverse
  | fuel + 1, index, previous, before => do
    match ← nextItem walk false with
    | none => pure before.reverse
    | some item =>
      modifyWalk walk fun found =>
        { found with turn := .loop walk depth index length previous }
      let result ← body item
      eachTurn body walk depth length fuel (index + 1) item (result :: before)

/-- How many turns a loop over a value has, as far as the start of its walk tells. -/
def turnCount? (value : Value) (cursor : Cursor) : Option Nat :=
  match value with
  | .text _ => none
  | _ => cursor.count?

/-- Runs the turns of a loop over a value, in a frame of their own, and gives what each of them
gives. -/
def walk (named : Bool) (again : Option Again) (value : Value) (body : Value → Eval α) :
    Eval (List α) := do
  present value
  let cursor ← opened value
  let most ← remaining cursor
  let (number, depth) ← beginWalk named again cursor
  let results ← inFrame (some number)
    (eachTurn body number depth (turnCount? value cursor) most 0 .missing [])
  endWalk number
  pure results

end Eval

end DsdlHeaders.Template

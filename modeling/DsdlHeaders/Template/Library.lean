import DsdlHeaders.Template.Compare
import DsdlHeaders.Text.Case
import DsdlHeaders.Text.Numeral

/-!
# Functions, filters and tests

What templates can call by name. Arguments are taken from the left. A parameter that is *required*
refuses to be missing; an *optional* one is absent also when an undefined value or `none` is given
for it. A required text refuses undefined values that are not silent. What is left over after the
last parameter is too much.

* **Functions**: `range`, `indent`, `enum_last_value`, `enumerate`, `len`.
* **Filters**: `reverse`, `selectattr`, `rejectattr`, `join`, `upper`, `lower`, `length`, `default`.
* **Tests**: `defined`, `undefined`, `none`.
-/

namespace DsdlHeaders.Template

open Eval

/-! ## Arguments -/

/-- The first argument, and the others. -/
def required : List Value → Eval (Value × List Value)
  | [] => fail .missingArgument
  | value :: rest => pure (value, rest)

/-- A value as a text: everything prints except keyword arguments and undefined values that are not
silent. -/
def asText (value : Value) : Eval String :=
  match value with
  | .entries true _ => fail .invalidOperation
  | _ => printed value

/-- A value as a signed integer of 64 bits. -/
def asInteger (value : Value) : Eval Int :=
  orInvalid value.signed?

/-- The next argument, if it is given, and the others. -/
def optional (read : Value → Eval α) : List Value → Eval (Option α × List Value)
  | [] => pure (none, [])
  | value :: rest =>
    if value.isVoid then pure (none, rest)
    else do
      let found ← read value
      pure (some found, rest)

/-- Refuses arguments that are left over. -/
def noMore : List Value → Eval Unit
  | [] => pure ()
  | _ :: _ => fail .tooManyArguments

/-! ## Functions -/

/-- The most items a range may have. -/
def maxRange : Nat := 100000

/-- How many numbers there are from `first` on, in steps, before `last` is reached. -/
def rangeCount (first last step : Int) : Nat :=
  let distance := if 0 < step then last - first else first - last
  (distance.toNat + step.natAbs - 1) / step.natAbs

/-- The numbers from `first` on, in steps, before `last` is reached. -/
def rangeItems (first last step : Int) : List Value :=
  (List.range (rangeCount first last step)).map fun (i : Nat) => .integer (first + i * step)

/-- Numbers from zero or a given one on, up to another one that is left out. -/
def callRange (arguments : List Value) : Eval Value := do
  let (lower, rest) ← required arguments
  let lower ← asInteger lower
  let (upper, rest) ← optional asInteger rest
  let (step, rest) ← optional asInteger rest
  noMore rest
  let (first, last) := match upper with
    | some upper => (lower, upper)
    | none => (0, lower)
  let step := step.getD 1
  if step = 0 || maxRange < rangeCount first last step then fail .invalidOperation
  else pure (.derived 0 (rangeItems first last step))

/-- What indents text unless something else is given. -/
def defaultIndent : String := "    "

/-- Puts a unit before a text and after every line break. -/
def indented (unit text : String) : String :=
  String.ofList (unit.toList ++ Text.replaceChar '\n' ('\n' :: unit.toList) text.toList)

/-- A text, indented. -/
def callIndent (arguments : List Value) : Eval Value := do
  let (text, rest) ← required arguments
  let text ← asText text
  let (unit, rest) ← optional asText rest
  noMore rest
  pure (.text (indented (unit.getD defaultIndent) text))

/-- A value to walk and the index of its first item. -/
def numbering (arguments : List Value) : Eval (Value × Int) := do
  let (items, rest) ← required arguments
  let (start, rest) ← optional asInteger rest
  noMore rest
  pure (items, start.getD 0)

/-- A stream of items with their index and whether they are the last one. -/
def callEnumLastValue (arguments : List Value) : Eval Value := do
  let (value, start) ← numbering arguments
  let source ← opened value
  newStream ⟨source, none, start⟩

/-- Items with their index. -/
def indexedItems (index : Int) : List Value → List Value
  | [] => []
  | item :: rest => .list [.integer index, item] :: indexedItems (index + 1) rest

/-- A list of items with their index. -/
def callEnumerate (arguments : List Value) : Eval Value := do
  let (value, start) ← numbering arguments
  let items ← allItems value
  pure (.list (indexedItems start items))

/-- The number of parts of a value. -/
def callLen (arguments : List Value) : Eval Value := do
  let (value, rest) ← required arguments
  noMore rest
  let count ← measured value
  match count with
  | some n => pure (.word n)
  | none => fail (.noLength value.kind)

/-- Calls a function that every template knows. -/
def Builtin.call (function : Builtin) (arguments : List Value) : Eval Value :=
  match function with
  | .range => callRange arguments
  | .indent => callIndent arguments
  | .enumLastValue => callEnumLastValue arguments
  | .enumerate => callEnumerate arguments
  | .len => callLen arguments

/-! ## Tests -/

/-- A test on a value alone. -/
def test? (name : String) : Option (Value → Bool) :=
  match name with
  | "defined" => some fun value => !value.isUndefined
  | "undefined" => some Value.isUndefined
  | "none" => some fun value => match value with
    | .nothing => true
    | _ => false
  | _ => none

/-- Applies a test. -/
def applyTest (name : String) (arguments : List Value) : Eval Bool :=
  match test? name with
  | none => fail .unknownTest
  | some test => do
    let (value, rest) ← required arguments
    noMore rest
    pure (test value)

/-! ## Filters -/

/-- A value the other way round. The keys of a map keep their order. -/
def reversed (value : Value) : Eval Value :=
  match value with
  | .undefined _ => pure value
  | .nothing => pure value
  | .text s => pure (.text (String.ofList s.toList.reverse))
  | .entries _ found => pure (.derived 0 (found.map (·.1)))
  | _ => do
    let items ← allItems value
    pure (.derived 0 items.reverse)

/-- The value at the end of a dotted path. Digits are an index. -/
def atPath (value : Value) : List (List Char) → Eval Value
  | [] => pure value
  | part :: rest => do
    let found ← match Text.unsigned? (Text.wordSize 64) part with
      | some index => itemOf value (.word index)
      | none => memberOf value (String.ofList part)
    atPath found rest

/-- Does a member of an item pass a test? Without a test it has to count as true. -/
def passes (path : List (List Char)) (test : Option String) (arguments : List Value)
    (item : Value) : Eval Bool := do
  let value ← atPath item path
  match test with
  | none => isTrue value
  | some test => applyTest test (value :: arguments)

/-- The items of a value for which a condition has the given outcome. -/
def itemsWhere (outcome : Bool) (condition : Value → Eval Bool) (value : Value) :
    Eval (List Value) := do
  present value
  let kept ← visitAll (fun item => do
    let passed ← condition item
    pure (if passed == outcome then some item else none)) value
  pure (kept.filterMap id)

/-- The items that have, or lack, a member that passes a test. -/
def filterByMember (outcome : Bool) (arguments : List Value) : Eval Value := do
  let (value, rest) ← required arguments
  let (path, rest) ← required rest
  let path ← asText path
  let (test, rest) ← optional asText rest
  match test.map test? with
  | some none => fail .unknownTest
  | _ =>
    let kept ← itemsWhere outcome (passes (Text.splitOn '.' path.toList) test rest) value
    pure (.list kept)

/-- The items of a value as one text. -/
def filterJoin (arguments : List Value) : Eval Value := do
  let (value, rest) ← required arguments
  let (between, rest) ← optional asText rest
  noMore rest
  if value.isVoid then pure (.text "")
  else
    let texts ← visitAll textOf value
    pure (.text (String.intercalate (between.getD "") texts))

/-- A conversion of a text. -/
def filterText (convert : List Char → List Char) (arguments : List Value) : Eval Value := do
  let (value, rest) ← required arguments
  let text ← asText value
  noMore rest
  pure (.text (String.ofList (convert text.toList)))

/-- The number of parts of a value. -/
def filterLength (arguments : List Value) : Eval Value := do
  let (value, rest) ← required arguments
  noMore rest
  let count ← measured value
  match count with
  | some n => pure (.word n)
  | none => fail .invalidOperation

/-- A value, or another one when it is undefined; on demand also when it counts as false. -/
def filterDefault (arguments : List Value) : Eval Value := do
  let (value, rest) ← required arguments
  noMore (rest.drop 2)
  let lax ← truth (rest[1]?.getD (.boolean false))
  if value.isUndefined then pure (rest.head?.getD (.text ""))
  else if lax then do
    let holds ← isTrue value
    pure (if holds then value else rest.head?.getD (.text ""))
  else pure value

/-- Applies a filter. -/
def applyFilter (name : String) (arguments : List Value) : Eval Value :=
  match name with
  | "reverse" => do
    let (value, rest) ← required arguments
    noMore rest
    reversed value
  | "selectattr" => filterByMember true arguments
  | "rejectattr" => filterByMember false arguments
  | "join" => filterJoin arguments
  | "upper" => filterText Text.upper arguments
  | "lower" => filterText Text.lower arguments
  | "length" => filterLength arguments
  | "default" => filterDefault arguments
  | _ => fail .unknownFilter

end DsdlHeaders.Template

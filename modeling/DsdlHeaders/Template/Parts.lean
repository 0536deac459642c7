import DsdlHeaders.Template.Machine

/-!
# Parts of values during an expansion

What a value consists of, where the state of the expansion has to be asked: for the items of a
stream, for the present turn of a loop and for the item after it.

* **Lengths.** Something that comes from a stream has a length only if the start of a walk over it
  tells how many items there are. It counts as true unless its length is zero.
* **Texts.** `shown` brings a value into the form in which it is printed: loops at their present
  turn, and items in place of what has a length.
* **Slices** of something that comes from a stream are walked later.
-/

namespace DsdlHeaders.Template

open Eval

/-! ## Lengths and truth -/

/-- How many parts a value has. -/
def measured (value : Value) : Eval (Option Nat) :=
  if value.isLazy then do
    let cursor ← opened value
    pure cursor.count?
  else pure value.length?

/-- Does a value count as true? -/
def isTrue (value : Value) : Eval Bool :=
  if value.isLazy then do
    let count ← measured value
    pure (count ≠ some 0)
  else pure value.isTrue

/-- Does a value count as true? An undefined value is refused unless it is silent. -/
def truth (value : Value) : Eval Bool := do
  present value
  isTrue value

/-! ## Texts -/

/-- Something that comes from a stream, in the form in which it is printed. -/
def shownLazy (value : Value) : Eval Value := do
  let count ← measured value
  match count with
  | none => pure value
  | some _ => do
    let items ← allItems value
    pure (.derived 0 items)

mutual

/-- A value in the form in which it is printed. -/
def shown : Value → Eval Value
  | .list items => do
    let items ← shownAll items
    pure (.list items)
  | .derived sums items => do
    let items ← shownAll items
    pure (.derived sums items)
  | .entries keywords found => do
    let found ← shownEntries found
    pure (.entries keywords found)
  | .stream index => pure (.stream index)
  | .joined mark first second => shownLazy (.joined mark first second)
  | .window mark source start count step => shownLazy (.window mark source start count step)
  | .backward mark source start stop step => shownLazy (.backward mark source start stop step)
  | value => do
    let machine ← get
    pure (machine.present value)
termination_by structural v => v

/-- Values in the form in which they are printed. -/
def shownAll : List Value → Eval (List Value)
  | [] => pure []
  | x :: xs => do
    let value ← shown x
    let later ← shownAll xs
    pure (value :: later)

/-- Entries in the form in which they are printed. -/
def shownEntries : List (Value × Value) → Eval (List (Value × Value))
  | [] => pure []
  | x :: xs => do
    let entry ← shownEntry x
    let later ← shownEntries xs
    pure (entry :: later)

/-- An entry in the form in which it is printed. -/
def shownEntry : Value × Value → Eval (Value × Value)
  | (k, v) => do
    let key ← shown k
    let value ← shown v
    pure (key, value)

end

/-- The text of a value. -/
def textOf (value : Value) : Eval String := do
  let value ← shown value
  pure value.print

/-- The value to print; an undefined one is refused unless it is silent. -/
def printed (value : Value) : Eval String := do
  present value
  textOf value

/-! ## Members and items -/

/-- A part of a value that is undefined when it is missing. An undefined value has no parts. -/
def partOf (object : Value) (found : Option Value) : Eval Value := do
  let machine ← get
  match found with
  | some value => pure (machine.present value)
  | none => if object.isUndefined then fail .undefinedValue else pure .missing

/-- A member of a value. A loop has to ask its walk for the next item. -/
def memberOf (object : Value) (name : String) : Eval Value :=
  match object, name with
  | .loop walk _ _ _ _, "nextitem" => do
    let item ← nextItem walk true
    pure (item.getD .missing)
  | _, _ => partOf object (object.member? name)

/-- The item at a position of something that comes from a stream, which is walked up to it. -/
def pulledItem (object : Value) (place : Nat) : Eval Value := do
  let cursor ← opened object
  let most ← remaining cursor
  let items ← visitNext pure (min most (place + 1)) cursor
  partOf object items[place]?

/-- The item of a value at a key. -/
def itemOf (object key : Value) : Eval Value :=
  if object.isLazy then
    match key.signed? with
    | none => pure .missing
    | some place =>
      if 0 ≤ place then pulledItem object place.toNat
      else do
        let count ← measured object
        match count with
        | none => pure .missing
        | some count =>
          if place.natAbs ≤ count then pulledItem object (count - place.natAbs)
          else pure .missing
  else
    match object, key with
    | .loop .., .text name => memberOf object name
    | _, _ => partOf object (object.item? key)

/-- Members of a value, with their names. -/
def namedMembers (object : Value) : List String → Eval (List (Value × Value))
  | [] => pure []
  | name :: names => do
    let value ← memberOf object name
    let later ← namedMembers object names
    pure ((.text name, value) :: later)

/-- The entries of a map, or the members of a routine or a loop with their names. -/
def entriesOf (value : Value) : Eval (List (Value × Value)) := do
  let machine ← get
  let value := machine.present value
  match value with
  | .entries _ found => pure found
  | .routine _ _ => namedMembers value Value.routineMembers
  | .loop .. => namedMembers value Value.loopMembers
  | _ => fail .invalidOperation

/-! ## Slices -/

/-- A slice of something that comes from a stream. What has no length counts as empty where the
slice needs one. -/
def lazySlice (object : Value) (slice : Value.Slice) : Eval Value := do
  let mark ← freshMark
  if 0 < slice.step then
    let needsLength := (slice.start.any (· < 0)) || (slice.stop.getD (-1)) < 0
    let count ← if needsLength then measured object else pure none
    let (start, count) := Value.forwardRange (count.getD 0) slice.start slice.stop
    pure (.window mark object start count slice.step.toNat)
  else pure (.backward mark object slice.start slice.stop slice.step.natAbs)

/-- A slice of a value. -/
def sliceOf (object start stop step : Value) : Eval Value :=
  if object.isUndefined then fail .undefinedValue
  else do
    let slice ← orInvalid (Value.slice? start stop step)
    if object.isLazy then lazySlice object slice else orInvalid (object.sliced slice)

end DsdlHeaders.Template

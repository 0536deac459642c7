import DsdlHeaders.Template.Access

/-!
# Cursors and streams

A **cursor** is what is left of a walk over a value. Pulling gives the next item and the cursor
after it. Items are pulled one by one, so a walk that stops early leaves the rest where it is.

A **stream** hands out each item once, whoever asks. It takes its items from a cursor of its own,
one ahead, and hands them out with their index and whether they are the last. Values only name
streams; a list holds them all, in the order in which they were made.

A stream takes its items from streams made before it. So the depth of all cursors together bounds
how deep one pull can lead, and serves as fuel.
-/

namespace DsdlHeaders.Template

/-! ## Cursors -/

/-- What is left of a walk. -/
inductive Cursor where
  | items (rest : List Value)
  | stream (index : Nat)
  | chain (first second : Cursor)
  /-- The next `skip` items do not count. Of the `left` ones after them, `gap` are passed over
  before the next one, and `step - 1` before every later one. -/
  | window (source : Cursor) (skip left gap step : Nat)

/-- How deep a cursor nests. -/
def Cursor.depth : Cursor → Nat
  | .items _ => 1
  | .stream _ => 1
  | .chain first second => first.depth + second.depth + 1
  | .window source _ _ _ _ => source.depth + 1

/-- The least number of items that a cursor at the start of a walk meets, and the greatest if there
is one. All that is known of a stream is that it may hand out any number of them. -/
def Cursor.bounds : Cursor → Nat × Option Nat
  | .items rest => (rest.length, some rest.length)
  | .stream _ => (0, none)
  | .chain first second =>
    let one := first.bounds
    let other := second.bounds
    (one.1 + other.1, do some ((← one.2) + (← other.2)))
  | .window source skip left _ step =>
    let whole := source.bounds
    let limited := fun (n : Nat) => min (n - skip) left
    let spaced := fun (n : Nat) => (n + step - 1) / step
    (spaced (limited whole.1), some (spaced ((whole.2.map limited).getD left)))

/-- How many items a cursor at the start of a walk meets, as far as that is certain. -/
def Cursor.count? (cursor : Cursor) : Option Nat :=
  let (least, most) := cursor.bounds
  if most = some least then some least else none

/-! ## Streams -/

/-- A stream that was not walked to its end. -/
structure Stream where
  /-- Where items come from. -/
  source : Cursor
  /-- The item taken ahead of the next one, or that there is no more, once that was found out. -/
  ahead : Option (Option Value)
  /-- The index of the next item. -/
  index : Int

/-- An item with its index and whether it is the last one. -/
def numberedItem (index : Int) (isLast : Bool) (item : Value) : Value :=
  .list [.integer index, .boolean isLast, item]

/-- The next item, if there is one, the cursor after it, and the streams after it was taken. -/
structure Pulled where
  item : Option Value
  rest : Cursor
  streams : List Stream

/-- Passes over items and pulls the next one, until there are none left. -/
def pullNth (pull : Cursor → List Stream → Pulled) :
    (passed : Nat) → Cursor → List Stream → Pulled
  | 0, cursor, streams => pull cursor streams
  | passed + 1, cursor, streams =>
    let found := pull cursor streams
    match found.item with
    | none => found
    | some _ => pullNth pull passed found.rest found.streams

/-- The next item of a stream, and the streams after it was taken. -/
def pullStream (pull : Cursor → List Stream → Pulled) (index : Nat) (streams : List Stream) :
    Option Value × List Stream :=
  match streams[index]? with
  | none => (none, streams)
  | some stream =>
    let found : Pulled := match stream.ahead with
      | some item => ⟨item, stream.source, streams⟩
      | none => pull stream.source streams
    match found.item with
    | none => (none, found.streams.set index ⟨found.rest, none, stream.index⟩)
    | some item =>
      let next := pull found.rest found.streams
      (some (numberedItem stream.index next.item.isNone item),
        next.streams.set index ⟨next.rest, some next.item, stream.index + 1⟩)

/-- Pulls the next item, at most `fuel` cursors deep. -/
def pullFor : (fuel : Nat) → Cursor → List Stream → Pulled
  | 0, cursor, streams => ⟨none, cursor, streams⟩
  | _ + 1, .items [], streams => ⟨none, .items [], streams⟩
  | _ + 1, .items (item :: rest), streams => ⟨some item, .items rest, streams⟩
  | fuel + 1, .stream index, streams =>
    let (item, streams) := pullStream (pullFor fuel) index streams
    ⟨item, .stream index, streams⟩
  | fuel + 1, .chain first second, streams =>
    let found := pullFor fuel first streams
    match found.item with
    | some item => ⟨some item, .chain found.rest second, found.streams⟩
    | none => pullFor fuel second found.streams
  | fuel + 1, .window source skip left gap step, streams =>
    if left = 0 then ⟨none, .window source skip left gap step, streams⟩
    else if gap < left then
      let found := pullNth (pullFor fuel) (skip + gap) source streams
      ⟨found.item, .window found.rest 0 (left - gap - 1) (step - 1) step, found.streams⟩
    else
      let found := pullNth (pullFor fuel) (skip + left - 1) source streams
      ⟨none, .window found.rest 0 0 gap step, found.streams⟩

/-- How deep one pull can lead. -/
def reach (cursor : Cursor) (streams : List Stream) : Nat :=
  streams.foldl (fun total stream => total + stream.source.depth + 1) (cursor.depth + 1)

/-- Pulls the next item. -/
def Cursor.pull (cursor : Cursor) (streams : List Stream) : Pulled :=
  pullFor (reach cursor streams) cursor streams

/-- How many items can still be pulled at most, looking at most `fuel` cursors deep. -/
def remainingFor (streams : List Stream) : (fuel : Nat) → Cursor → Nat
  | 0, _ => 0
  | _ + 1, .items rest => rest.length
  | fuel + 1, .stream index =>
    match streams[index]? with
    | none => 0
    | some stream => remainingFor streams fuel stream.source + 1
  | fuel + 1, .chain first second =>
    remainingFor streams fuel first + remainingFor streams fuel second
  | fuel + 1, .window source _ _ _ _ => remainingFor streams fuel source

/-- How many items can still be pulled at most. -/
def Cursor.remaining (cursor : Cursor) (streams : List Stream) : Nat :=
  remainingFor streams (reach cursor streams) cursor

end DsdlHeaders.Template

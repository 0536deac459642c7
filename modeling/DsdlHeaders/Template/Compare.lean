import DsdlHeaders.Template.Parts
import DsdlHeaders.Text.Search

/-!
# Comparing values

Whether values are equal, which of them comes first, and whether one is part of another. Comparing
walks over sequences item by item and stops at the first difference, so a stream keeps what was not
needed.

* **Equality.** The same thing is equal to itself without being walked. Sequences are equal when
  their items are, maps when they have the same keys with equal values; routines and loops count as
  maps of their members. Numbers are equal by value, and booleans count as numbers.
* **Order.** Values of different kinds stand in a fixed order. Sequences and maps are compared from
  the front.
* **Membership.** A text is searched for the text of a value, a map for a key, a sequence for an
  equal item.

Values nest, so both equality and order are defined with a bound on how deep they look, which is
deeper than any value can nest.
-/

namespace DsdlHeaders.Template

open Eval

/-- How deep values may nest. Nothing deeper fits into memory. -/
def maxValueDepth : Nat := Text.wordSize 40

/-- Are two values the very same thing? -/
def Value.isSame : Value → Value → Bool
  | .stream m, .stream n => m == n
  | .joined m _ _, .joined n _ _ => m == n
  | .window m _ _ _ _, .window n _ _ _ _ => m == n
  | .backward m _ _ _ _, .backward n _ _ _ _ => m == n
  | .function f, .function g => f == g
  | .loop walk _ _ _ _, .loop other _ _ _ _ => walk == other
  | _, _ => false

/-- Starts walks over two values, with enough fuel to reach their ends. -/
def sideBySide (action : Nat → Cursor → Cursor → Eval α) (a b : Value) : Eval α := do
  let first ← opened a
  let second ← opened b
  let one ← remaining first
  let other ← remaining second
  action (one + other + 1) first second

/-! ## Equality -/

/-- Are two lists equal item by item? -/
def equalItems (equal : Value → Value → Eval Bool) : List Value → List Value → Eval Bool
  | [], [] => pure true
  | x :: xs, y :: ys => do
    let same ← equal x y
    if same then equalItems equal xs ys else pure false
  | _, _ => pure false

/-- Do two walks meet equal items? -/
def equalWalks (equal : Value → Value → Eval Bool) : (fuel : Nat) → Cursor → Cursor → Eval Bool
  | 0, _, _ => pure true
  | fuel + 1, first, second => do
    let (a, first) ← pull first
    let (b, second) ← pull second
    match a, b with
    | none, none => pure true
    | some a, some b => do
      let same ← equal a b
      if same then equalWalks equal fuel first second else pure false
    | _, _ => pure false

/-- Are two sequences equal? -/
def equalSequences (equal : Value → Value → Eval Bool) (a b : Value) : Eval Bool :=
  match a.sequenceItems?, b.sequenceItems? with
  | some xs, some ys => equalItems equal xs ys
  | _, _ => sideBySide (equalWalks equal) a b

/-- Does every entry have an equal one among others? -/
def equalEntries (equal : Value → Value → Eval Bool) (others : List (Value × Value)) :
    List (Value × Value) → Eval Bool
  | [] => pure true
  | (key, value) :: rest =>
    match Value.lookup? key others with
    | none => pure false
    | some other => do
      let same ← equal value other
      if same then equalEntries equal others rest else pure false

/-- Are two maps, or what counts as maps, equal? -/
def equalMappings (equal : Value → Value → Eval Bool) (a b : Value) : Eval Bool :=
  if a.length? = b.length? then do
    let xs ← entriesOf a
    let ys ← entriesOf b
    equalEntries equal ys xs
  else pure false

/-- Are two values equal, as far as a given depth tells? -/
def equalFor : (depth : Nat) → Value → Value → Eval Bool
  | 0, _, _ => pure true
  | depth + 1, a, b =>
    match a, b with
    | .undefined _, .undefined _ => pure true
    | .nothing, .nothing => pure true
    | .text s, .text t => pure (s == t)
    | _, _ =>
      if a.isSame b then pure true
      else if a.isSequence && b.isSequence then equalSequences (equalFor depth) a b
      else if a.isMapping && b.isMapping then equalMappings (equalFor depth) a b
      else pure (Value.equalNumbers a b)

/-- Are two values equal? -/
def equalValues (a b : Value) : Eval Bool :=
  equalFor maxValueDepth a b

/-! ## Order -/

/-- Compares two walks from the front, at most `fuel` items. -/
def compareWalks (compare : Value → Value → Eval Ordering) :
    (fuel : Nat) → Cursor → Cursor → Eval Ordering
  | 0, _, _ => pure .eq
  | fuel + 1, first, second => do
    let (a, first) ← pull first
    let (b, second) ← pull second
    match a, b with
    | none, none => pure .eq
    | none, some _ => pure .lt
    | some _, none => pure .gt
    | some a, some b => do
      match ← compare a b with
      | .eq => compareWalks compare fuel first second
      | decided => pure decided

/-- Compares entries from the front: first their keys, then their values. -/
def compareEntries (compare : Value → Value → Eval Ordering) :
    List (Value × Value) → List (Value × Value) → Eval Ordering
  | [], [] => pure .eq
  | [], _ :: _ => pure .lt
  | _ :: _, [] => pure .gt
  | (k, v) :: xs, (l, w) :: ys => do
    match ← compare k l with
    | .eq =>
      match ← compare v w with
      | .eq => compareEntries compare xs ys
      | decided => pure decided
    | decided => pure decided

/-- Compares two maps, or what counts as maps. -/
def compareMappings (compare : Value → Value → Eval Ordering) (a b : Value) :
    Eval Ordering := do
  let xs ← entriesOf a
  let ys ← entriesOf b
  compareEntries compare xs ys

/-- Compares two values, as far as a given depth tells. -/
def compareFor : (depth : Nat) → Value → Value → Eval Ordering
  | 0, _, _ => pure .eq
  | depth + 1, a, b =>
    if a.rank ≠ b.rank then pure (Ord.compare a.rank b.rank)
    else if a.isSame b then pure .eq
    else if a.isSequence then sideBySide (compareWalks (compareFor depth)) a b
    else if a.isMapping then compareMappings (compareFor depth) a b
    else pure (a.compare b)

/-- Compares two values. -/
def compareValues (a b : Value) : Eval Ordering :=
  compareFor maxValueDepth a b

/-! ## Membership -/

/-- Does one of the items of a walk equal a value? The walk stops there. -/
def meets (value : Value) : (fuel : Nat) → Cursor → Eval Bool
  | 0, _ => pure false
  | fuel + 1, cursor => do
    let (item, rest) ← pull cursor
    match item with
    | none => pure false
    | some item => do
      let same ← equalValues item value
      if same then pure true else meets value fuel rest

/-- Is a value in a container? -/
def isIn (value container : Value) : Eval Bool :=
  match container with
  | .undefined _ => pure false
  | .text s => do
    let text ← textOf value
    pure (Text.occurs text.toList s.toList)
  | .entries _ found => pure (Value.lookup? value found).isSome
  | .routine _ _ => pure (container.item? value).isSome
  | .loop .. => pure (container.item? value).isSome
  | .function _ => pure false
  | _ =>
    if container.isSequence then do
      let cursor ← opened container
      let most ← remaining cursor
      meets value most cursor
    else fail .invalidOperation

/-! ## Comparisons -/

/-- Does a comparison hold? Undefined values are refused unless they are silent. -/
def compared (comparison : Comparison) (a b : Value) : Eval Bool := do
  present a
  present b
  match comparison with
  | .equal => equalValues a b
  | .notEqual => return !(← equalValues a b)
  | .less => return (← compareValues a b).isLT
  | .lessEqual => return (← compareValues a b).isLE
  | .greater => return (← compareValues a b).isGT
  | .greaterEqual => return (← compareValues a b).isGE
  | .isIn => isIn a b
  | .notIn => return !(← isIn a b)

end DsdlHeaders.Template

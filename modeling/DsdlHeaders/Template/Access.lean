import DsdlHeaders.Template.Order

/-!
# Parts of values

What a value consists of: its members by name, its items by key, and the items that a walk over it
meets. A text consists of its characters, a map of its keys. Routines and the turns of loops have
fixed members, and a walk over them meets the names of these.

Whatever comes from a stream has no parts here, and a turn does not know the item after it: only the
state of an expansion knows them.
-/

namespace DsdlHeaders.Template.Value

/-- A number that counts something. -/
def counted (n : Nat) : Value := .word n

/-! ## Members -/

/-- The names of a routine's members. -/
def routineMembers : List String := ["name", "arguments", "caller"]

/-- A member of a routine. -/
def routineMember? (routine : Routine) (name : String) : Option Value :=
  match name with
  | "name" => some (.text routine.name)
  | "arguments" => some (.list (routine.parameters.map .text))
  | "caller" => some (.boolean routine.asksCaller)
  | _ => none

/-- The names of the members of a loop's turn. -/
def loopMembers : List String :=
  ["index0", "index", "length", "revindex", "revindex0", "first", "last", "depth", "depth0",
    "previtem", "nextitem"]

/-- A member of a loop's turn. Only when the number of turns is known, one of them is the last. The
item after the turn is not known here. -/
def loopMember? (depth index : Nat) (length : Option Nat) (previous : Value) (name : String) :
    Option Value :=
  match name with
  | "index0" => some (counted index)
  | "index" => some (counted (index + 1))
  | "length" => some ((length.map counted).getD missing)
  | "revindex" => some ((length.map fun n => counted (n - index)).getD missing)
  | "revindex0" => some ((length.map fun n => counted (n - index - 1)).getD missing)
  | "first" => some (.boolean (index == 0))
  | "last" => some (.boolean (length.any fun n => index + 1 == n))
  | "depth" => some (counted (depth + 1))
  | "depth0" => some (counted depth)
  | "previtem" => some previous
  | "nextitem" => some missing
  | _ => none

/-- A member of a value. -/
def member? (value : Value) (name : String) : Option Value :=
  match value with
  | .entries _ found => lookup? (.text name) found
  | .routine r _ => routineMember? r name
  | .loop _ depth index length previous => loopMember? depth index length previous name
  | _ => none

/-! ## Items -/

/-- The position that an index stands for among `count` items; a negative one counts from the
end. -/
def position? (count : Nat) (key : Value) : Option Nat :=
  key.signed?.bind fun i =>
    if 0 ≤ i then some i.toNat
    else if i.natAbs ≤ count then some (count - i.natAbs)
    else none

/-- The item at a position. -/
def itemAt? (items : List Value) (key : Value) : Option Value :=
  (position? items.length key).bind fun i => items[i]?

/-- The item of a value at a key. -/
def item? (value key : Value) : Option Value :=
  match value with
  | .list items => itemAt? items key
  | .derived _ items => itemAt? items key
  | .text s =>
    (position? s.length key).bind fun i => s.toList[i]?.map fun c => .text (String.singleton c)
  | .entries _ found => lookup? key found
  | _ =>
    match key with
    | .text name => value.member? name
    | _ => none

/-- The items of a value that can be walked more than once. Without a value there are none. -/
def items? : Value → Option (List Value)
  | .undefined _ => some []
  | .nothing => some []
  | .text s => some (s.toList.map fun c => .text (String.singleton c))
  | .list items => some items
  | .derived _ items => some items
  | .entries _ found => some (found.map (·.1))
  | .routine _ _ => some (routineMembers.map .text)
  | .loop .. => some (loopMembers.map .text)
  | _ => none

/-- How many parts a value has. -/
def length? : Value → Option Nat
  | .undefined _ => none
  | .nothing => none
  | value => value.items?.map List.length

end DsdlHeaders.Template.Value

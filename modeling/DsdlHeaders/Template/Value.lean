import DsdlHeaders.Template.Tree
import DsdlHeaders.Text.Quoted
import DsdlHeaders.Text.Shortest

/-!
# Values of expressions

Templates are untyped, so one type holds all values.

* **No value.** **Nothing** is written `none` and is a value like any other; an **undefined** value
  is what a name or member without a value gives, and nearly every use of it is an error. A *silent*
  undefined value comes from a condition without alternative and prints as nothing.
* **Whole numbers** are words when they are written or count something, and integers when they were
  computed. Both print alike; they differ only at the ends of their ranges.
* **Sequences.** A list is written or given. Items that were computed from other items make a
  sequence of another kind, which behaves alike and takes another place in the order of values.
* **Streams** can be walked only once, so a value only names its stream. What is built from a stream
  is walked anew each time and takes what the stream still has; a mark tells it from what is built
  alike.
* **Maps** keep their entries in ascending order of their keys.
* **Printing.** `print` writes a value as output, `inside` as part of a list or map.
-/

namespace DsdlHeaders.Template

/-! ## Values -/

/-- The functions that every template can call. -/
inductive Builtin where
  | range
  | indent
  | enumLastValue
  | enumerate
  | len
deriving DecidableEq, Repr

/-- The path under which a function is registered. It is what the function prints as. -/
def Builtin.path : Builtin → String
  | .range => "minijinja::functions::builtins::range"
  | .indent => "dsdlc_codegen::template::engine::indent"
  | .enumLastValue => "dsdlc_codegen::template::engine::enum_last_value"
  | .enumerate => "dsdlc_codegen::template::engine::enumerate"
  | .len => "dsdlc_codegen::template::engine::len"

/-- A value. -/
inductive Value where
  | undefined (silent : Bool)
  | nothing
  | boolean (value : Bool)
  /-- A whole number that is written in a template or counts something. It has 64 bits if they
  suffice, else 128. -/
  | word (value : Nat)
  /-- A whole number that was computed. It has 64 bits with a sign if they suffice, else 128. -/
  | integer (value : Int)
  | float (value : Float)
  | text (value : String)
  | list (items : List Value)
  /-- Items that were computed from other items, by so many sums on top of each other. -/
  | derived (sums : Nat) (items : List Value)
  /-- Entries in ascending order of their keys, and whether they are keyword arguments. -/
  | entries (keywords : Bool) (entries : List (Value × Value))
  | stream (index : Nat)
  /-- The items of one value and then those of another; one of them comes from a stream. -/
  | joined (mark : Nat) (first second : Value)
  /-- Of the items of a value that come from a stream, `count` ones after the first `start`, from
  which every `step`-th is taken. -/
  | window (mark : Nat) (source : Value) (start count step : Nat)
  /-- The items of a value that come from a stream, from `start` backwards to just after `stop`, of
  which every `step`-th is taken. -/
  | backward (mark : Nat) (source : Value) (start stop : Option Int) (step : Nat)
  | function (function : Builtin)
  /-- A routine and the index of the closure that holds the names it captured, if there is one. -/
  | routine (routine : Routine) (closure : Option Nat)
  /-- A turn of a loop: the number of its walk, how often the loop runs inside another one that may
  be run again, the index of the turn, how many turns there are if that is known, and the item
  before. The walk knows the item after. -/
  | loop (walk depth index : Nat) (length : Option Nat) (previous : Value)

namespace Value

/-- The value of a name or member that has none. -/
def missing : Value := .undefined false

/-- Is there no value? -/
def isUndefined : Value → Bool
  | .undefined _ => true
  | _ => false

/-- Is there no value, or the value `none`? -/
def isVoid : Value → Bool
  | .undefined _ => true
  | .nothing => true
  | _ => false

/-- Is there no value where one was expected? -/
def isMissing : Value → Bool
  | .undefined silent => !silent
  | _ => false

/-- Does a value hand out items that come from a stream? -/
def isLazy : Value → Bool
  | .stream _ => true
  | .joined .. => true
  | .window .. => true
  | .backward .. => true
  | _ => false

/-- Is a value a list or another sequence? -/
def isSequence : Value → Bool
  | .list _ => true
  | .derived _ _ => true
  | value => value.isLazy

/-- Does a value consist of members or entries? -/
def isMapping : Value → Bool
  | .entries _ _ => true
  | .routine _ _ => true
  | .loop .. => true
  | _ => false

/-- The word for the kind of a value. -/
def kind : Value → String
  | .undefined _ => "undefined"
  | .nothing => "none"
  | .boolean _ => "bool"
  | .word _ => "number"
  | .integer _ => "number"
  | .float _ => "number"
  | .text _ => "string"
  | .list _ => "sequence"
  | .derived _ _ => "iterator"
  | .entries _ _ => "map"
  | .stream _ => "iterator"
  | .joined .. => "iterator"
  | .window .. => "iterator"
  | .backward .. => "iterator"
  | .function _ => "plain object"
  | .routine _ _ => "map"
  | .loop .. => "map"

/-- Does a value count as true? -/
def isTrue : Value → Bool
  | .undefined _ => false
  | .nothing => false
  | .boolean b => b
  | .word n => n ≠ 0
  | .integer n => n ≠ 0
  | .float x => !(x == 0.0)
  | .text s => s ≠ ""
  | .list items => !items.isEmpty
  | .derived _ items => !items.isEmpty
  | .entries _ found => !found.isEmpty
  | _ => true

/-! ## Whole numbers -/

/-- Integers that arithmetic is exact for. -/
def fitsInteger (n : Int) : Bool :=
  -(Text.wordSize 127 : Int) ≤ n && n < Text.wordSize 127

/-- The greatest word with as many bits as the given one. -/
def wordLimit (n : Nat) : Nat :=
  if n < Text.wordSize 64 then Text.wordSize 64 - 1 else Text.wordSize 128 - 1

/-- The greatest integer with as many bits as the given one. -/
def integerLimit (n : Int) : Int :=
  let half : Int := Text.wordSize 63
  if -half ≤ n && n < half then half - 1 else (Text.wordSize 127 : Int) - 1

/-- The whole number below a float, when there is one. -/
def floorOf? (x : Float) : Option Int :=
  match Text.Shortest.decode x with
  | .finite binary =>
    let up := Nat.pow 2 binary.exponent.toNat
    let down := Nat.pow 2 (-binary.exponent).toNat
    let size : Int := binary.significand * up
    some ((if binary.negative then -size else size) / (down : Int))
  | _ => none

/-- The integer of a float that has no fraction and fits 64 bits. The first one beyond counts as the
greatest of them. -/
def integerOfFloat? (x : Float) : Option Int :=
  if x == 9223372036854775808.0 then some ((Text.wordSize 63 : Int) - 1)
  else if x == x.floor && -9223372036854775808.0 ≤ x && x < 9223372036854775808.0 then
    some x.toInt64.toInt
  else none

/-- A value as an integer: booleans are zero and one, and a float may have no fraction. -/
def integer? : Value → Option Int
  | .boolean b => some (if b then 1 else 0)
  | .word n => some n
  | .integer n => some n
  | .float x => integerOfFloat? x
  | _ => none

/-- A value as an integer below `2^bits` that is not negative. -/
def natural? (bits : Nat) (value : Value) : Option Nat :=
  value.integer?.bind fun n => if 0 ≤ n && n < Text.wordSize bits then some n.toNat else none

/-- A value as a signed integer of 64 bits. -/
def signed? (value : Value) : Option Int :=
  value.integer?.bind fun n =>
    if -(Text.wordSize 63 : Int) ≤ n && n < Text.wordSize 63 then some n else none

/-! ## Floats -/

/-- A float that is nearest to `digits · 10^exponent`. -/
def decimalFloat (digits : Nat) (exponent : Int) : Float :=
  let width := (Nat.toDigits 10 digits).length
  if digits = 0 then 0.0
  else if 400 < exponent then 1.0 / 0.0
  else if exponent + width < -400 then 0.0
  else Float.ofScientific digits (decide (exponent < 0)) exponent.natAbs

/-- A value as the nearest float. -/
def float? : Value → Option Float
  | .boolean b => some (if b then 1.0 else 0.0)
  | .word n => some (Float.ofNat n)
  | .integer n => some (Float.ofInt n)
  | .float x => some x
  | _ => none

/-- Does a whole number survive the way to the nearest float and back? What lies beyond its limit
comes back as the limit. -/
def survives (n limit : Int) (x : Float) : Bool :=
  match floorOf? x with
  | some m => (if limit < m then limit else m) = n
  | none => false

/-- A value as a float, if nothing is lost. -/
def exactFloat? : Value → Option Float
  | .word n =>
    let x := Float.ofNat n
    if survives n (wordLimit n) x then some x else none
  | .integer n =>
    let x := Float.ofInt n
    if survives n (integerLimit n) x then some x else none
  | value => value.float?

/-- Two values as numbers of one type. -/
inductive Pair where
  | integers (a b : Int)
  | floats (a b : Float)

/-- A word of 128 bits, read with a sign. -/
def withSign (n : Nat) : Int :=
  if n < Text.wordSize 127 then n else (n : Int) - Text.wordSize 128

/-- Brings two whole numbers to one type. Two words of 128 bits are read with a sign; otherwise both
have to fit. -/
def integers? (a b : Value) : Option Pair := do
  let m ← a.integer?
  let n ← b.integer?
  match a, b with
  | .word v, .word w =>
    if Text.wordSize 64 ≤ v && Text.wordSize 64 ≤ w then
      some (.integers (withSign v) (withSign w))
    else if fitsInteger m && fitsInteger n then some (.integers m n) else none
  | _, _ => if fitsInteger m && fitsInteger n then some (.integers m n) else none

/-- Brings two numbers to one type: floats when one of them is a float, else integers. `toFloat`
says how the other one becomes a float. -/
def pair? (toFloat : Value → Option Float) (a b : Value) : Option Pair :=
  match a, b with
  | .float x, _ => (toFloat b).map fun y => .floats x y
  | _, .float y => (toFloat a).map fun x => .floats x y
  | _, _ => integers? a b

/-! ## Printing -/

/-- The text of a loop's turn. -/
def loopText (index : Nat) (length : Option Nat) : String :=
  "<loop " ++ toString index ++ "/" ++ (length.map fun n => toString n).getD "?" ++ ">"

mutual

/-- A value as part of a list or map. -/
def inside : Value → String
  | .undefined _ => "undefined"
  | .nothing => "none"
  | .boolean b => if b then "true" else "false"
  | .word n => toString n
  | .integer n => toString n
  | .float x => Text.Shortest.general x
  | .text s => Text.quoted s
  | .list items => "[" ++ String.intercalate ", " (insideAll items) ++ "]"
  | .derived _ items => "[" ++ String.intercalate ", " (insideAll items) ++ "]"
  | .entries _ found => "\x7b" ++ String.intercalate ", " (insideEntries found) ++ "\x7d"
  | .stream _ => "<iterator>"
  | .joined .. => "<iterator>"
  | .window .. => "<iterator>"
  | .backward .. => "<iterator>"
  | .function f => f.path
  | .routine r _ => "<macro " ++ r.name ++ ">"
  | .loop _ _ index length _ => loopText index length

/-- Values as parts of a list or map. -/
def insideAll : List Value → List String
  | [] => []
  | x :: xs => inside x :: insideAll xs

/-- Entries as parts of a map. -/
def insideEntries : List (Value × Value) → List String
  | [] => []
  | x :: xs => insideEntry x :: insideEntries xs

/-- An entry with a colon after its key. -/
def insideEntry : Value × Value → String
  | (k, v) => inside k ++ ": " ++ inside v

end

/-- A value as output. -/
def print : Value → String
  | .undefined _ => ""
  | .float x => Text.Shortest.plain x
  | .text s => s
  | value => value.inside

end Value

end DsdlHeaders.Template

import DsdlHeaders.Template.Access

/-!
# Operators

What operators do to values. An operator that has no meaning for its operands gives nothing.

* **Integers** are exact; a result outside 128 bits is none. Booleans count as integers.
* **Floats** follow the usual rounded arithmetic. One float makes the other operand a float.
* **Division** with `/` always gives a float. `//` and `%` leave a remainder that is not negative,
  and need a divisor other than zero for integers.
* **Texts and sequences** can be added to their like and repeated. Nothing that comes from a stream
  can be repeated.
* **Slices** count negative bounds from the end. A bound beyond an end stands for that end.
-/

namespace DsdlHeaders.Template

namespace Value

/-! ## Floats -/

/-- The remainder of a division of floats, with the sign of the dividend. It is computed exactly. -/
def floatRemainder (x y : Float) : Float :=
  match Text.Shortest.decode x, Text.Shortest.decode y with
  | .finite a, .finite b =>
    if b.significand = 0 then 0.0 / 0.0
    else
      let least := if a.exponent ≤ b.exponent then a.exponent else b.exponent
      let dividend := a.significand * Nat.pow 2 (a.exponent - least).toNat
      let divisor := b.significand * Nat.pow 2 (b.exponent - least).toNat
      let size := (Float.ofNat (dividend % divisor)).scaleB least
      if a.negative then -size else size
  | .finite _, .infinite _ => x
  | _, _ => 0.0 / 0.0

/-- Removes the fraction of a float. -/
def truncated (x : Float) : Float :=
  if x < 0.0 then x.ceil else x.floor

/-- The quotient of floats that leaves a remainder that is not negative. -/
def floatQuotient (x y : Float) : Float :=
  let quotient := truncated (x / y)
  if floatRemainder x y < 0.0 then
    if 0.0 < y then quotient - 1.0 else quotient + 1.0
  else quotient

/-! ## Arithmetic -/

/-- An integer result, if it fits. -/
def checked (n : Int) : Option Value :=
  if fitsInteger n then some (.integer n) else none

/-- An operation on two numbers. -/
def arithmetic (onIntegers : Int → Int → Option Int) (onFloats : Float → Float → Float)
    (a b : Value) : Option Value :=
  match pair? float? a b with
  | some (.integers m n) => (onIntegers m n).bind checked
  | some (.floats x y) => some (.float (onFloats x y))
  | none => none

/-- The items of a list or another sequence that does not come from a stream. -/
def sequenceItems? : Value → Option (List Value)
  | .list items => some items
  | .derived _ items => some items
  | _ => none

/-- How many sums a sequence was computed by, on top of each other. -/
def sums : Value → Nat
  | .derived n _ => n
  | _ => 0

/-- How many sums may stand on top of each other. One more puts all items into a list. -/
def maxSums : Nat := 32

/-- Items that were computed by a sum of two sequences. -/
def summed (a b : Value) (items : List Value) : Value :=
  let levels := max a.sums b.sums + 1
  if maxSums < levels then .list items else .derived levels items

/-- The sum of numbers, or two texts or sequences one after the other. -/
def add (a b : Value) : Option Value :=
  match a, b with
  | .text s, .text t => some (.text (s ++ t))
  | _, _ =>
    if a.isSequence && b.isSequence then
      match a.sequenceItems?, b.sequenceItems? with
      | some xs, some ys => some (summed a b (xs ++ ys))
      | _, _ => some (.joined 0 a b)
    else arithmetic (fun m n => some (m + n)) (· + ·) a b

/-- A list several times over. -/
def repeated (count : Nat) (items : List α) : List α :=
  if items.isEmpty then [] else (List.replicate count items).flatten

/-- A text several times over. -/
def repeatedText (s : String) (count : Value) : Option Value :=
  (count.natural? 64).map fun n => .text (String.ofList (repeated n s.toList))

/-- A sequence several times over. -/
def repeatedItems (items count : Value) : Option Value := do
  let n ← count.natural? 64
  let found ← items.sequenceItems?
  some (.derived 0 (repeated n found))

/-- The product of numbers, or a text or sequence several times over. -/
def multiply (a b : Value) : Option Value :=
  match a, b with
  | .text s, n => repeatedText s n
  | n, .text s => repeatedText s n
  | _, _ =>
    if a.isSequence then repeatedItems a b
    else if b.isSequence then repeatedItems b a
    else arithmetic (fun m n => some (m * n)) (· * ·) a b

/-- The quotient as a float. -/
def divide (a b : Value) : Option Value := do
  let x ← a.float?
  let y ← b.float?
  some (.float (x / y))

/-- The power of an integer, when it fits. A base of at least two in size never fits with an
exponent above 127. -/
def integerPower (base exponent : Int) : Option Int :=
  if exponent < 0 || Text.wordSize 32 ≤ exponent then none
  else if base.natAbs ≤ 1 then
    some (if exponent = 0 then 1 else if exponent % 2 = 0 then base * base else base)
  else if 127 < exponent then none
  else some (Int.pow base exponent.toNat)

/-- The remainder of a division of integers, when there is one and the quotient fits. -/
def integerRemainder (m n : Int) : Option Int :=
  if n = 0 || !fitsInteger (m / n) then none else some (m % n)

/-- A number with the other sign. The word that only fits with a minus sign stays as it is. -/
def negate : Value → Option Value
  | .word n =>
    if n = Text.wordSize 127 then some (.word n)
    else if n < Text.wordSize 127 then checked (-n)
    else none
  | .integer n => checked (-n)
  | .float x => some (.float (-x))
  | _ => none

/-! ## Slices -/

/-- A bound of a slice: nothing where `none` stands. -/
def bound? : Value → Option (Option Int)
  | .nothing => some none
  | value => value.signed?.map some

/-- The position of a bound among `count` items. -/
def boundPosition (count : Nat) (bound : Int) : Nat :=
  if 0 ≤ bound then bound.toNat else count - bound.natAbs

/-- How many items a slice that walks forwards passes over, and among how many it then chooses. -/
def forwardRange (count : Nat) (start stop : Option Int) : Nat × Nat :=
  let first := boundPosition count (start.getD 0)
  let last := (stop.map (boundPosition count)).getD count
  (first, last - first)

/-- Every `step`-th item, from the first one on; `skip` items are passed over before it. -/
def everyNth (step : Nat) : (skip : Nat) → List α → List α
  | _, [] => []
  | 0, x :: xs => x :: everyNth step (step - 1) xs
  | skip + 1, _ :: xs => everyNth step skip xs

/-- A slice that walks forwards. -/
def sliceForward (start stop : Option Int) (step : Nat) (items : List α) : List α :=
  let range := forwardRange items.length start stop
  everyNth step 0 ((items.drop range.1).take range.2)

/-- A slice that walks backwards, from `start` down to just after `stop`. The first item of all is
left out only by a bound beyond it. -/
def sliceBackward (start stop : Option Int) (step : Nat) (items : List α) : List α :=
  let first := (start.map (boundPosition items.length)).getD items.length
  let last := (stop.map (boundPosition items.length)).getD 0
  let kept := (items.take (first + 1)).drop (if last = 0 then 0 else last + 1)
  everyNth step 0 kept.reverse

/-- The bounds and the step of a slice, which is not zero. -/
structure Slice where
  start : Option Int
  stop : Option Int
  step : Int

/-- The bounds and the step that values stand for. -/
def slice? (start stop step : Value) : Option Slice := do
  let first ← bound? start
  let last ← bound? stop
  let pace ← bound? step
  let pace := pace.getD 1
  if pace = 0 then none else some ⟨first, last, pace⟩

/-- The items that a slice takes. -/
def Slice.apply (slice : Slice) (items : List α) : List α :=
  if 0 < slice.step then sliceForward slice.start slice.stop slice.step.toNat items
  else sliceBackward slice.start slice.stop slice.step.natAbs items

/-- A slice of a value that does not come from a stream. -/
def sliced (value : Value) (slice : Slice) : Option Value :=
  match value with
  | .nothing => some (.list [])
  | .text s => some (.text (String.ofList (slice.apply s.toList)))
  | _ => value.sequenceItems?.map fun items => .derived 0 (slice.apply items)

end Value

/-- The result of a binary operator. -/
def BinaryOp.apply (op : BinaryOp) (a b : Value) : Option Value :=
  match op with
  | .add => a.add b
  | .subtract => Value.arithmetic (fun m n => some (m - n)) (· - ·) a b
  | .multiply => a.multiply b
  | .divide => a.divide b
  | .floorDivide =>
    Value.arithmetic (fun m n => if n = 0 then none else some (m / n)) Value.floatQuotient a b
  | .modulo =>
    Value.arithmetic Value.integerRemainder Value.floatRemainder a b
  | .power => Value.arithmetic Value.integerPower Float.pow a b
  | .concat => some (.text (a.print ++ b.print))

end DsdlHeaders.Template

import DsdlHeaders.Template.Compare

/-!
# Constants

An expression that is built from literals by operators is a constant: its value is known before an
expansion starts. A list or map is a constant only when it consists of literals.

Only the conjunction tells constants from other values: between constants it gives `false` where it
would otherwise give the operand that counts as false.
-/

namespace DsdlHeaders.Template

open Eval

/-- The value of a literal. -/
def Expr.literal? : Expr → Option Value
  | .text s => some (.text s)
  | .integer n => some (.word n)
  | .decimal digits exponent => some (.float (Value.decimalFloat digits exponent))
  | .boolean b => some (.boolean b)
  | .nothing => some .nothing
  | _ => none

/-- The state of an expansion in which nothing has happened. -/
def Machine.blank : Machine where
  context := []
  frames := []
  closures := []
  streams := []
  walks := []
  mark := 0
  output := ""
  outer := 0

/-- The result of a computation that needs no state, if it does not fail. -/
def Eval.stateless? (action : Eval α) : Option α :=
  match action.run Machine.blank with
  | .ok (value, _) => some value
  | .error _ => none

/-- Do all links of a chain of comparisons hold? The first one that fails decides. -/
def chainHolds : (left : Value) → List Comparison → List Value → Eval Bool
  | left, link :: links, right :: rest => do
    let holds ← compared link left right
    if holds then chainHolds right links rest else pure false
  | _, _, _ => pure true

/-- The conjunction of two constants: the second one when both count as true, else `false`. -/
def Value.conjunction (a b : Value) : Value :=
  if a.isTrue && b.isTrue then b else .boolean false

/-- Values that follow each other, two by two. -/
def inPairs : List Value → List (Value × Value)
  | key :: value :: rest => (key, value) :: inPairs rest
  | _ => []

mutual

/-- The value of an expression that is a constant and has a value. -/
def Expr.constant? : Expr → Option Value
  | .list items => (items.mapM Expr.literal?).map .list
  | .map parts => (parts.mapM Expr.literal?).map fun values => .map (inPairs values)
  | .negate operand => operand.constant?.bind Value.negate
  | .not operand => operand.constant?.map fun value => .boolean !value.isTrue
  | .and left right => do some (Value.conjunction (← left.constant?) (← right.constant?))
  | .or left right => do
    let a ← left.constant?
    let b ← right.constant?
    some (if a.isTrue then a else b)
  | .binary op left right => do op.apply (← left.constant?) (← right.constant?)
  | .compare first links operands => do
    let left ← first.constant?
    let values ← Expr.constants? operands
    ((chainHolds left links values).stateless?).map .boolean
  | e => e.literal?
termination_by structural e => e

/-- The values of expressions that all are constants. -/
def Expr.constants? : List Expr → Option (List Value)
  | [] => some []
  | e :: rest => do some ((← e.constant?) :: (← Expr.constants? rest))

end

end DsdlHeaders.Template

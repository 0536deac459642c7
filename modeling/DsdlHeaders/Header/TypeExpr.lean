import DsdlHeaders.Model.Basic

/-!
# Header type expressions

Every data type has a C++ type expression: integers, booleans and padding become an `IntegerSpec`,
floating point numbers a `FloatSpec`, arrays an `Array` around the expression of their element, and
compound types their qualified name. Arrays nested `maxArrayDepth` deep or deeper have none.
-/

namespace DsdlHeaders

/-- Type nodes may be nested this deep, counted in arrays. -/
def maxArrayDepth : Nat := 32

/-- The token of a cast mode. -/
def CastMode.token : CastMode → String
  | .saturated => "::uavcan::CastModeSaturate"
  | .truncated => "::uavcan::CastModeTruncate"

/-- An integer specification of a width, a signedness and a cast mode. -/
def integerSpec (bits : Nat) (signedness cast : String) : String :=
  "::uavcan::IntegerSpec< " ++ toString bits ++ ", " ++ signedness ++ ", " ++ cast ++ " >"

/-- The type expression of a primitive. -/
def Primitive.typeExpr (scalar : Primitive) : String :=
  match scalar.kind with
  | .floating =>
    "::uavcan::FloatSpec< " ++ toString scalar.bits ++ ", " ++ scalar.cast.token ++ " >"
  | .boolean => integerSpec scalar.bits "::uavcan::SignednessUnsigned" scalar.cast.token
  | .unsigned => integerSpec scalar.bits "::uavcan::SignednessUnsigned" scalar.cast.token
  | .signed => integerSpec scalar.bits "::uavcan::SignednessSigned" scalar.cast.token

/-- A dotted name as a qualified C++ name from the global namespace. -/
def qualifiedName (fullName : String) : String :=
  String.ofList ([':', ':'] ++ Text.replaceChar '.' [':', ':'] fullName.toList)

/-- The array mode and the size of a sizing. -/
def Sizing.arguments : Sizing → String
  | .static size => "::uavcan::ArrayModeStatic, " ++ toString size
  | .dynamic limit => "::uavcan::ArrayModeDynamic, " ++ toString limit

/-- The type expression of a data type that may still nest `levels` deep. -/
def DataType.typeExprWithin : (levels : Nat) → DataType → Option String
  | 0, _ => none
  | _ + 1, .primitive scalar => some scalar.typeExpr
  | _ + 1, .void bits =>
    some (integerSpec bits "::uavcan::SignednessUnsigned" CastMode.saturated.token)
  | _ + 1, .compound definition => some (qualifiedName definition.fullName)
  | levels + 1, .array element sizing =>
    (element.typeExprWithin levels).map fun inner =>
      "::uavcan::Array< " ++ inner ++ ", " ++ sizing.arguments ++ " >"

/-- The type expression of a data type; none if it nests too deep. -/
def DataType.typeExpr? (type : DataType) : Option String :=
  type.typeExprWithin maxArrayDepth

end DsdlHeaders

import DsdlHeaders.Text.Search
import DsdlHeaders.Text.Case

/-!
# The type model

A **definition** is a named message or service. A message has one body, a service has two, the
request and the response. A body lists **fields** and **constants** in declaration order and may be
a union, whose fields are mutually exclusive alternatives.

The type of a field is a `DataType`: a primitive, void padding, an array of another type, or a
compound type. A compound type carries the whole definition that it stands for; a type that is
defined elsewhere is stood for by `Definition.reference`, a message without fields.

The model itself imposes no limits on widths, array sizes, names or nesting. The limits that
generated headers rely on are stated in `Model.Validity`.
-/

namespace DsdlHeaders

/-! ## Primitive types -/

/-- The scalar kinds. -/
inductive ScalarKind where
  | boolean
  | unsigned
  | signed
  | floating
deriving DecidableEq, Repr

/-- What happens to a value that does not fit the width of its type. -/
inductive CastMode where
  /-- The value is clamped to the representable range. -/
  | saturated
  /-- The excess high bits are discarded. -/
  | truncated
deriving DecidableEq, Repr

/-- A scalar type: a kind, a width in bits, and what happens on overflow. -/
structure Primitive where
  kind : ScalarKind
  bits : Nat
  cast : CastMode := .saturated
deriving DecidableEq, Repr

namespace ScalarKind

/-- How a kind is spelled in a definition, without the width. -/
def keyword : ScalarKind → String
  | .boolean => "bool"
  | .unsigned => "uint"
  | .signed => "int"
  | .floating => "float"

/-- Are literals of this kind floating point literals? -/
def isFloating (kind : ScalarKind) : Bool :=
  kind == .floating

/-- Is this the unsigned integer kind? Booleans are not integers. -/
def isUnsigned (kind : ScalarKind) : Bool :=
  kind == .unsigned

end ScalarKind

/-- Reads a cast mode keyword, in any case. -/
def CastMode.parse? (text : String) : Option CastMode :=
  let word := String.ofList (Text.lower text.toList)
  if word = "saturated" || word = "saturate" then some .saturated
  else if word = "truncated" || word = "truncate" then some .truncated
  else none

/-! ## Arrays -/

/-- The number of elements of an array. -/
inductive Sizing where
  /-- Exactly this many elements. -/
  | static (size : Nat)
  /-- Up to this many elements. -/
  | dynamic (limit : Nat)
deriving DecidableEq, Repr

/-- The size of a static array, or the limit of a dynamic one. -/
def Sizing.capacity : Sizing → Nat
  | .static size => size
  | .dynamic limit => limit

/-! ## Types, bodies and definitions -/

/-- A constant: its value is kept as the text it was written with. -/
structure Constant where
  name : String
  type : Primitive
  literal : String
deriving DecidableEq, Repr

mutual

/-- The type of a field or of an array element. -/
inductive DataType where
  | primitive (scalar : Primitive)
  | void (bits : Nat)
  | array (element : DataType) (sizing : Sizing)
  | compound (definition : Definition)

/-- A field. Only void padding has no name. -/
inductive Field where
  | mk (name : Option String) (type : DataType)

/-- The fields and constants of a message, or of one half of a service. -/
inductive Body where
  | mk (fields : List Field) (constants : List Constant) (isUnion : Bool)

/-- A named message or service. -/
inductive Definition where
  | message (fullName : String) (portId : Option Nat) (body : Body)
  | service (fullName : String) (portId : Option Nat) (request response : Body)

end

namespace Field

/-- The declared name. -/
def name : Field → Option String
  | .mk name _ => name

/-- The declared type. -/
def type : Field → DataType
  | .mk _ type => type

end Field

namespace Body

/-- The fields in declaration order. -/
def fields : Body → List Field
  | .mk fields _ _ => fields

/-- The constants in declaration order. -/
def constants : Body → List Constant
  | .mk _ constants _ => constants

/-- Are the fields mutually exclusive alternatives? -/
def isUnion : Body → Bool
  | .mk _ _ isUnion => isUnion

/-- A body with no fields and no constants. -/
def empty (isUnion : Bool) : Body :=
  .mk [] [] isUnion

end Body

namespace Definition

/-- The dotted full name. -/
def fullName : Definition → String
  | .message fullName _ _ => fullName
  | .service fullName _ _ _ => fullName

/-- The fixed port identifier, if the type has one. -/
def portId : Definition → Option Nat
  | .message _ portId _ => portId
  | .service _ portId _ _ => portId

/-- Is this a service? -/
def isService : Definition → Bool
  | .message .. => false
  | .service .. => true

/-- The bodies: one for a message, request and response for a service. -/
def bodies : Definition → List Body
  | .message _ _ body => [body]
  | .service _ _ request response => [request, response]

/-- What stands for a type that is defined elsewhere. -/
def reference (fullName : String) : Definition :=
  .message fullName none (.empty false)

end Definition

/-! ## Views of a data type -/

namespace DataType

/-- The type inside all enclosing arrays. -/
def innermost : DataType → DataType
  | .array element _ => element.innermost
  | type => type

/-- How many arrays are nested around the innermost type. -/
def arrayDepth : DataType → Nat
  | .array element _ => element.arrayDepth + 1
  | _ => 0

/-- The sizings of the nested arrays, outermost first. -/
def sizings : DataType → List Sizing
  | .array element sizing => sizing :: element.sizings
  | _ => []

/-- Is this void padding? -/
def isVoid : DataType → Bool
  | .void _ => true
  | _ => false

/-- A short name for messages to the user. -/
def describe : DataType → String
  | .primitive scalar => scalar.kind.keyword ++ toString scalar.bits
  | .void bits => "void" ++ toString bits
  | .array element (.static size) => element.describe ++ "[" ++ toString size ++ "]"
  | .array element (.dynamic limit) => element.describe ++ "[<=" ++ toString limit ++ "]"
  | .compound definition => definition.fullName

end DataType

/-! ## Names -/

/-- The parts of a dotted name. -/
def nameComponents (fullName : String) : List String :=
  (Text.splitOn '.' fullName.toList).map String.ofList

namespace Definition

/-- The parts of the full name. -/
def components (definition : Definition) : List String :=
  nameComponents definition.fullName

/-- The last part of the full name. -/
def shortName (definition : Definition) : String :=
  match Text.cutLast? '.' definition.fullName.toList with
  | some (_, short) => String.ofList short
  | none => definition.fullName

/-- All parts of the full name but the last. -/
def spaces (definition : Definition) : List String :=
  match Text.cutLast? '.' definition.fullName.toList with
  | some (outer, _) => (Text.splitOn '.' outer).map String.ofList
  | none => []

end Definition

end DsdlHeaders

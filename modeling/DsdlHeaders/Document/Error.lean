import DsdlHeaders.Markup.Event
import DsdlHeaders.Store.Fault

/-!
# Document errors

The reasons for which a type-model document is turned down, and their wording.
-/

namespace DsdlHeaders

/-- How a document departs from its expected shape. -/
inductive ShapeFault where
  /-- There is no root element. -/
  | noRoot
  /-- The document ends inside an element. -/
  | endsInside (element : String)
  /-- The document ends inside a service. -/
  | endsInsideService (fullName : String)
  /-- The document ends inside an element whose content is passed over. -/
  | endsEarly
  /-- An element holds no type. -/
  | noType (element : String)
  /-- An empty field or constant, which can hold no type. -/
  | emptyMember (element parent : String)
  /-- An element holds more than one type. -/
  | manyTypes (element : String)
  /-- An empty array element, which can hold no element type. -/
  | noElementType
  /-- An array with two sizes. -/
  | twoSizes
  /-- Arrays nested beyond this many levels. -/
  | nestedTooDeep (levels : Nat)
deriving DecidableEq, Repr

/-- The wording of a shape fault. -/
def ShapeFault.message : ShapeFault → String
  | .noRoot => "No dsdl element found"
  | .endsInside element => "unexpected end of document inside <" ++ element ++ ">"
  | .endsInsideService fullName =>
    "unexpected end of document inside service '" ++ fullName ++ "'"
  | .endsEarly => "unexpected end of document"
  | .noType element => "<" ++ element ++ "> has no type"
  | .emptyMember element parent => "<" ++ element ++ "> in <" ++ parent ++ "> has no type"
  | .manyTypes element => "<" ++ element ++ "> must contain exactly one type"
  | .noElementType => "<array> has no element type"
  | .twoSizes => "<array> takes either 'size' or 'maxSize', not both"
  | .nestedTooDeep levels => "arrays nested deeper than " ++ toString levels ++ " levels"

/-- Why a document is turned down. -/
inductive DocumentError where
  | markup (fault : Markup.Fault)
  | missingAttribute (element key : String)
  | invalidAttribute (element key value : String)
  | unknownElement (element parent : String)
  | shape (fault : ShapeFault)
  | unreadable (fault : FileFault)
deriving DecidableEq, Repr

/-- The wording of a document error. -/
def DocumentError.message : DocumentError → String
  | .markup fault => "malformed type-model XML: " ++ fault.message
  | .missingAttribute element key => "<" ++ element ++ "> requires a '" ++ key ++ "' attribute"
  | .invalidAttribute element key value =>
    "<" ++ element ++ "> has unusable " ++ key ++ "=\"" ++ value ++ "\""
  | .unknownElement element parent =>
    "<" ++ element ++ "> is not allowed inside <" ++ parent ++ ">"
  | .shape fault => "malformed type-model document: " ++ fault.message
  | .unreadable fault => "cannot read type-model document: " ++ fault.message

end DsdlHeaders

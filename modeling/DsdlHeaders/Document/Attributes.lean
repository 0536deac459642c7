import DsdlHeaders.Document.Error
import DsdlHeaders.Model.Basic
import DsdlHeaders.Text.Numeral

/-!
# Attributes of document elements

What the attributes of each element say. Attributes are looked at in the order in which they are
written and the first bad value is reported; only when all values are good is an attribute missed.
Attributes with other keys are allowed and say nothing.
-/

namespace DsdlHeaders.Document

open Markup

/-! ## Values -/

/-- A width in bits, from 1 to 64. -/
def width? (value : String) : Option Nat :=
  (Text.unsigned? 256 value.toList).bind fun bits =>
    if 1 ≤ bits && bits ≤ 64 then some bits else none

/-- A fixed port identifier, below `2^32`. -/
def portId? (value : String) : Option Nat :=
  Text.unsigned? (Text.wordSize 32) value.toList

/-- The number of elements of an array, below `2^64`. -/
def count? (value : String) : Option Nat :=
  Text.unsigned? (Text.wordSize 64) value.toList

/-- A truth value. -/
def truth? (value : String) : Option Bool :=
  if value = "true" || value = "1" then some true
  else if value = "false" || value = "0" then some false
  else none

/-- The value of an attribute if it can be read, else the complaint about it. -/
def readAs {α : Type} (read? : String → Option α) (element : String) (item : Attribute) :
    Except DocumentError α :=
  match read? item.value with
  | some value => .ok value
  | none => .error (.invalidAttribute element item.key item.value)

/-! ## Definitions and sections -/

/-- What the attributes of a message or service say. -/
structure Heading where
  fullName : Option String
  portId : Option Nat
  isUnion : Bool

/-- Takes one more attribute of a message or service into account. -/
def Heading.add (element : String) (heading : Heading) (item : Attribute) :
    Except DocumentError Heading :=
  if item.key = "name" then .ok { heading with fullName := some item.value }
  else if item.key = "fixedPortId" then
    (readAs portId? element item).map fun portId => { heading with portId := some portId }
  else if item.key = "union" then
    (readAs truth? element item).map fun isUnion => { heading with isUnion }
  else .ok heading

/-- Full name, port identifier and union flag of a message or service. -/
def heading (element : String) (tag : Tag) : Except DocumentError (String × Option Nat × Bool) := do
  let found ← tag.attributes.foldlM (Heading.add element) ⟨none, none, false⟩
  match found.fullName with
  | none => .error (.missingAttribute element "name")
  | some fullName => .ok (fullName, found.portId, found.isUnion)

/-- The union flag of a request or response. -/
def sectionUnion (tag : Tag) : Except DocumentError Bool :=
  match tag.attributes.find? (·.key = "union") with
  | none => .ok false
  | some item => readAs truth? tag.name item

/-- An attribute that an element cannot do without. -/
def required (tag : Tag) (element key : String) : Except DocumentError String :=
  match tag.get? key with
  | some value => .ok value
  | none => .error (.missingAttribute element key)

/-! ## Types -/

/-- What the attributes of a primitive type say. -/
structure ScalarShape where
  bits : Option Nat
  cast : CastMode

/-- Takes one more attribute of a primitive type into account. -/
def ScalarShape.add (element : String) (shape : ScalarShape) (item : Attribute) :
    Except DocumentError ScalarShape :=
  if item.key = "bits" then
    (readAs width? element item).map fun bits => { shape with bits := some bits }
  else if item.key = "cast" then
    (readAs CastMode.parse? element item).map fun cast => { shape with cast }
  else .ok shape

/-- A primitive type. Only a boolean may leave out its width, which is then one bit. -/
def scalar (kind : ScalarKind) (tag : Tag) : Except DocumentError Primitive := do
  let shape ← tag.attributes.foldlM (ScalarShape.add tag.name) ⟨none, .saturated⟩
  match shape.bits, kind with
  | some bits, _ => .ok ⟨kind, bits, shape.cast⟩
  | none, .boolean => .ok ⟨kind, 1, shape.cast⟩
  | none, _ => .error (.missingAttribute tag.name "bits")

/-- The width of void padding. -/
def voidWidth (tag : Tag) : Except DocumentError Nat := do
  let value ← required tag "void" "bits"
  readAs width? "void" ⟨"bits", value⟩

/-- Takes one more attribute of an array into account. -/
def addSizing (sizing : Option Sizing) (item : Attribute) :
    Except DocumentError (Option Sizing) :=
  let make : Option (Nat → Sizing) :=
    if item.key = "size" then some .static
    else if item.key = "maxSize" then some .dynamic
    else none
  match make, sizing with
  | none, _ => .ok sizing
  | some _, some _ => .error (.shape .twoSizes)
  | some make, none => (readAs count? "array" item).map fun count => some (make count)

/-- The sizing of an array. -/
def arraySizing (tag : Tag) : Except DocumentError Sizing := do
  match ← tag.attributes.foldlM addSizing none with
  | some sizing => .ok sizing
  | none => .error (.missingAttribute "array" "size")

end DsdlHeaders.Document

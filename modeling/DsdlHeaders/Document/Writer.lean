import DsdlHeaders.Markup.Tag
import DsdlHeaders.Model.Basic

/-!
# Writing type-model documents

The counterpart of the reader: a document that says exactly what a list of definitions says. Each
definition, section, field, constant and type is one element. Attribute values stand between double
quotes as they are, so no text of the model may hold a double quote.

An element without content can be written as an empty element or with an end tag. The **style** of a
document says which, for types other than arrays and for bodies without fields and constants.
-/

namespace DsdlHeaders.Document

open Markup

/-! ## Elements -/

/-- How elements without content are written. -/
structure Style where
  /-- Types other than arrays are empty elements. -/
  emptyTypes : Bool
  /-- Bodies without fields and constants are empty elements. -/
  emptyBodies : Bool
deriving DecidableEq, Repr

/-- An attribute with a space before it. -/
def writeAttribute (item : Attribute) : List Char :=
  ' ' :: item.key.toList ++ ['=', '"'] ++ item.value.toList ++ ['"']

/-- The name and the attributes of an element. -/
def writeHead (name : String) (attributes : List Attribute) : List Char :=
  name.toList ++ attributes.flatMap writeAttribute

/-- An element with content and an end tag. -/
def writeElement (name : String) (attributes : List Attribute) (content : List Char) :
    List Char :=
  '<' :: writeHead name attributes ++ '>' :: content ++ ['<', '/'] ++ name.toList ++ ['>']

/-- An empty element. -/
def writeEmpty (name : String) (attributes : List Attribute) : List Char :=
  '<' :: writeHead name attributes ++ ['/', '>']

/-- An element without content. -/
def writeLeaf (isEmpty : Bool) (name : String) (attributes : List Attribute) : List Char :=
  if isEmpty then writeEmpty name attributes else writeElement name attributes []

/-! ## Types -/

/-- The spelling of a cast mode. -/
def castText : CastMode → String
  | .saturated => "saturated"
  | .truncated => "truncated"

/-- The spelling of a truth value. -/
def truthText (value : Bool) : String :=
  if value then "true" else "false"

/-- A primitive type. -/
def writePrimitive (style : Style) (type : Primitive) : List Char :=
  writeLeaf style.emptyTypes type.kind.keyword
    [⟨"bits", toString type.bits⟩, ⟨"cast", castText type.cast⟩]

/-- The attribute for the size of an array. -/
def sizingAttribute : Sizing → Attribute
  | .static count => ⟨"size", toString count⟩
  | .dynamic count => ⟨"maxSize", toString count⟩

/-- A type. A compound type is written by its name alone. -/
def writeType (style : Style) : DataType → List Char
  | .primitive type => writePrimitive style type
  | .void bits => writeLeaf style.emptyTypes "void" [⟨"bits", toString bits⟩]
  | .compound target => writeLeaf style.emptyTypes "compound" [⟨"name", target.fullName⟩]
  | .array element sizing =>
    writeElement "array" [sizingAttribute sizing] (writeType style element)

/-! ## Bodies -/

/-- A field; padding has no name. -/
def writeField (style : Style) (field : Field) : List Char :=
  let name : List Attribute := match field.name with
    | some name => [⟨"name", name⟩]
    | none => []
  writeElement "field" name (writeType style field.type)

/-- A constant. -/
def writeConstant (style : Style) (constant : Constant) : List Char :=
  writeElement "constant" [⟨"name", constant.name⟩, ⟨"value", constant.literal⟩]
    (writePrimitive style constant.type)

/-- The fields and constants of a body. -/
def writeMembers (style : Style) (body : Body) : List Char :=
  body.fields.flatMap (writeField style) ++ body.constants.flatMap (writeConstant style)

/-- An element that holds a body, with its own attributes before the union flag. -/
def writeBody (style : Style) (name : String) (attributes : List Attribute) (body : Body) :
    List Char :=
  let all := attributes ++ [⟨"union", truthText body.isUnion⟩]
  if style.emptyBodies && body.fields.isEmpty && body.constants.isEmpty then writeEmpty name all
  else writeElement name all (writeMembers style body)

/-! ## Documents -/

/-- The name and the port identifier of a definition. -/
def headingAttributes (fullName : String) (portId : Option Nat) : List Attribute :=
  ⟨"name", fullName⟩ :: match portId with
    | some portId => [⟨"fixedPortId", toString portId⟩]
    | none => []

/-- A definition. -/
def writeDefinition (style : Style) : Definition → List Char
  | .message fullName portId body =>
    writeBody style "message" (headingAttributes fullName portId) body
  | .service fullName portId request response =>
    writeElement "service" (headingAttributes fullName portId)
      (writeBody style "request" [] request ++ writeBody style "response" [] response)

/-- A document with the given definitions. -/
def write (style : Style) (definitions : List Definition) : String :=
  String.ofList (writeElement "dsdl" [] (definitions.flatMap (writeDefinition style)))

end DsdlHeaders.Document

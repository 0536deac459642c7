import DsdlHeaders.Header.Context
import DsdlHeaders.Template.Library

/-!
# The text of a header

The header of a definition as a function of its context, written down without any template: every
text that is fixed, and in between the names, types and literals of the context.

* **Structures.** `declaration` declares a structure and `definitions` defines its members. A
  message is one structure; a service holds two of them, declared inside its own braces.
* **Codec functions.** `codecBody` is what the functions for encoding and for decoding consist of.
  It is made from the `Member`s of a structure, its fields with the names that they have there.
* **Order.** Everything that is written for each field, constant or name space is written in the
  order of the context; only the name spaces are closed the other way round.
-/

namespace DsdlHeaders

/-! ## Members -/

/-- A field as the members of a structure see it. -/
structure Member where
  name : String
  isPadding : Bool
deriving DecidableEq, Repr

/-- The member for a field. -/
def FieldContext.member (field : FieldContext) : Member where
  name := field.name
  isPadding := field.isVoid

/-- The members of a body. -/
def BodyContext.members (body : BodyContext) : List Member :=
  body.fields.map FieldContext.member

/-- The bodies of a context, in the order of the header. -/
def ContextBodies.list : ContextBodies → List BodyContext
  | .message body => [body]
  | .service request response => [request, response]

/-- A body that a header can be written for: a union has fewer fields than integers can count. -/
def BodyContext.Countable (body : BodyContext) : Prop :=
  body.isUnion = true → body.fields.length < Text.wordSize 127

/-- Items with their index, counted from the given one, and whether they are the last one. -/
def numbered {α : Type} (index : Nat) : List α → List (Nat × Bool × α)
  | [] => []
  | item :: rest => (index, rest.isEmpty, item) :: numbered (index + 1) rest

namespace Layout

/-! ## Fixed texts

Texts of several lines. -/

/-- The comment that a header starts with. -/
def leadingComment : String :=
  "/*\n * UAVCAN data structure definition for libuavcan.\n *\n * Autogenerated, do not edit.\n *\n * Full name: "

/-- The includes of every header. -/
def standardIncludes : String :=
  "\n\n#include <uavcan/build_config.hpp>\n#include <uavcan/node/global_data_type_registry.hpp>\n#include <uavcan/marshal/types.hpp>\n\n"

/-- The type of a tag and the field that holds it. -/
def tagType : String :=
  " >::Result,\n                                   ::uavcan::SignednessUnsigned, ::uavcan::CastModeTruncate > TagType;\n\n    typename ::uavcan::StorageType< TagType >::Type _tag_;\n"

/-- The constructor's body and the functions of every structure. -/
def prototypes : String :=
  "    \x7b\n    \x7d\n\n    bool operator==(ParameterType rhs) const;\n    bool operator!=(ParameterType rhs) const \x7b return !operator==(rhs); \x7d\n\n    static int encode(ParameterType self, ::uavcan::ScalarCodec& codec,\n                      ::uavcan::TailArrayOptimizationMode tao_mode = ::uavcan::TailArrayOptEnabled);\n\n    static int decode(ReferenceType self, ::uavcan::ScalarCodec& codec,\n                      ::uavcan::TailArrayOptimizationMode tao_mode = ::uavcan::TailArrayOptEnabled);\n"

/-- What follows the full name of a message. -/
def messageSignature : String :=
  "\";\n    \x7d\n\n    static ::uavcan::DataTypeSignature getDataTypeSignature()\n    \x7b\n        return ::uavcan::DataTypeSignature();\n    \x7d\n"

/-- What follows the full name of a service. -/
def serviceSignature : String :=
  "\";\n    \x7d\n\n    static ::uavcan::DataTypeSignature getDataTypeSignature()\n    \x7b\n        return ::uavcan::DataTypeSignature();\n    \x7d\n\x7d;\n\n"

/-- What follows the structures of a service. -/
def serviceTypes : String :=
  "\n\n    typedef Request_<0> Request;\n    typedef Response_<0> Response;\n\n    static const ::uavcan::DataTypeKind DataTypeKind = "

/-- The parameters of a codec function after its structure. -/
def codecParameters : String :=
  " self, ::uavcan::ScalarCodec& codec,\n    ::uavcan::TailArrayOptimizationMode tao_mode)\n\x7b\n"

/-- What keeps the parameters of a codec function from being unused. -/
def parameterUses : String :=
  "    (void)self;\n    (void)codec;\n    (void)tao_mode;\n"

/-- What follows the codec call for a tag. -/
def switchOpening : String :=
  "(self._tag_, codec, ::uavcan::TailArrayOptDisabled);\n    if (res <= 0)\n    \x7b\n        return res;\n    \x7d\n    switch (self._tag_)\n    \x7b\n"

/-! ## Declarations -/

/-- A type under a name. -/
def typeAlias (typeExpr name : String) : String :=
  String.join ["        typedef ", typeExpr, " ", name, ";\n"]

/-- An enumerator: the tag of a field and its number. All but the last one are followed by a
comma. -/
def enumerator (index : Nat) (last : Bool) (member : Member) : String :=
  String.join ["        Tag_", member.name, " = ", toString index, if last then "" else ",", "\n"]

/-- The tags of a union, numbered from zero. -/
def enumerators (members : List Member) : String :=
  String.join ((numbered 0 members).map fun entry => enumerator entry.1 entry.2.1 entry.2.2)

/-- The tag of a union: its values, its type and the field that holds it. -/
def tagDeclaration (members : List Member) : String :=
  String.join ["\n    enum Tag\n    \x7b\n", enumerators members,
    "    \x7d;\n\n    typedef ::uavcan::IntegerSpec< ::uavcan::IntegerBitLen< ",
    toString ((members.length : Int) - 1),
    tagType]

/-- The declaration of a constant. -/
def constantDeclaration (constant : ConstantContext) : String :=
  String.join ["    static const typename ::uavcan::StorageType< typename ConstantTypes::",
    constant.name, " >::Type ", constant.name, "; // ", constant.literal, "\n"]

/-- The declaration of a field; padding is not stored. -/
def memberDeclaration (member : Member) : String :=
  if !member.isPadding then
    String.join ["    typename ::uavcan::StorageType< typename FieldTypes::", member.name,
      " >::Type ", member.name, ";\n"]
  else ""

/-- The initialisation of a field; the first one follows a colon. -/
def initializer (index : Nat) (member : Member) : String :=
  String.join ["        ", if index == 0 then ":" else ",", " ", member.name, "()\n"]

/-- The initialisations of the fields that are stored. -/
def initializers (members : List Member) : String :=
  String.join ((numbered 0 (members.filter fun member => !member.isPadding)).map fun entry =>
    initializer entry.1 entry.2.2)

/-- The fixed port identifier, if there is one. -/
def portDeclaration (portId : Option Nat) : String :=
  match portId with
  | some portId => String.join ["    enum \x7b DefaultDataTypeID = ", toString portId, " \x7d;\n"]
  | none => ""

/-- What a message declares about itself. -/
def messageInfo (names : NameContext) : String :=
  String.join ["\n    static const ::uavcan::DataTypeKind DataTypeKind = ", names.kindToken, ";\n",
    portDeclaration names.portId,
    "\n    static const char* getDataTypeFullName()\n    \x7b\n        return \"", names.fullName,
    messageSignature]

/-- The declaration of a structure. -/
def declaration (typeName : String) (body : BodyContext) (info : Option NameContext) : String :=
  String.join ["template <int _tmpl>\nstruct UAVCAN_EXPORT ", typeName,
    "\n\x7b\n    typedef const ", typeName,
    "<_tmpl>& ParameterType;\n    typedef ", typeName,
    "<_tmpl>& ReferenceType;\n\n    struct ConstantTypes\n    \x7b\n",
    String.join (body.constants.map fun constant => typeAlias constant.typeExpr constant.name),
    "    \x7d;\n\n    struct FieldTypes\n    \x7b\n",
    String.join (body.fields.map fun field => typeAlias field.typeExpr field.name),
    "    \x7d;\n",
    if body.isUnion then tagDeclaration body.members else "",
    "\n    // Constants\n",
    String.join (body.constants.map constantDeclaration),
    "\n    // Fields\n",
    String.join (body.members.map memberDeclaration),
    "\n    ", typeName, "()\n",
    initializers body.members,
    prototypes,
    (info.map messageInfo).getD "",
    "\x7d;\n"]

/-! ## Definitions -/

/-- The comparison of a field; padding is not compared. -/
def memberComparison (member : Member) : String :=
  if !member.isPadding then
    String.join ["    if (!(", member.name, " == rhs.", member.name,
      "))\n    \x7b\n        return false;\n    \x7d\n"]
  else ""

/-- What returns from a codec function when a step failed. -/
def failureCheck : String :=
  "    if (res <= 0)\n    \x7b\n        return res;\n    \x7d\n"

/-- The codec call for a field of a union, under its tag. -/
def switchCase (op : String) (member : Member) : String :=
  String.join ["    case Tag_", member.name, ":\n        return FieldTypes::", member.name, "::",
    op, "(self.", member.name, ", codec, tao_mode);\n"]

/-- The codec call for a field that may be the last one. Padding goes through a variable of its own,
and only a last field that is no padding is told how its tail is encoded. -/
def codecCall (op : String) (last : Bool) (member : Member) : String :=
  if member.isPadding then
    String.join ["    \x7b\n        typename ::uavcan::StorageType< typename FieldTypes::",
      member.name, " >::Type padding = 0;\n        res = FieldTypes::", member.name, "::", op,
      "(padding, codec, ::uavcan::TailArrayOptDisabled);\n    \x7d\n"]
  else
    String.join ["    res = FieldTypes::", member.name, "::", op, "(self.", member.name,
      ", codec,  ", if last then "tao_mode" else "::uavcan::TailArrayOptDisabled", ");\n"]

/-- The statements of a codec function for a union: the tag, then the field that it selects. -/
def switchStatements (op : String) (members : List Member) : String :=
  String.join ["    const int res = TagType::", op,
    switchOpening,
    String.join (members.map (switchCase op)),
    "    default:\n        return -1;\n    \x7d\n"]

/-- The statements of a codec function for fields that follow each other. -/
def callStatements (op : String) (members : List Member) : String :=
  String.join ["    int res = 1;\n",
    String.join ((numbered 0 members).map fun entry =>
      String.join [codecCall op entry.2.1 entry.2.2, failureCheck]),
    "    return res;\n"]

/-- What a codec function consists of, between its braces. -/
def codecBody (op : String) (isUnion : Bool) (members : List Member) : String :=
  parameterUses ++ if isUnion then switchStatements op members else callStatements op members

/-- The definition of a codec function. -/
def codecDefinition (op selfType scope typeName : String) (isUnion : Bool)
    (members : List Member) : String :=
  String.join ["\ntemplate <int _tmpl>\nint ", scope, typeName, "<_tmpl>::", op, "(", selfType,
    codecParameters, codecBody op isUnion members, "\x7d\n"]

/-- The codec functions and the types of the structures that they get. -/
def codecFunctions : List (String × String) :=
  [("encode", "ParameterType"), ("decode", "ReferenceType")]

/-- The definitions of all codec functions. -/
def codecDefinitions (scope typeName : String) (isUnion : Bool) (members : List Member) : String :=
  String.join (codecFunctions.map fun function =>
    codecDefinition function.1 function.2 scope typeName isUnion members)

/-- The definition of a constant. -/
def constantDefinition (scope typeName : String) (constant : ConstantContext) : String :=
  String.join ["\ntemplate <int _tmpl>\nconst typename ::uavcan::StorageType< typename ", scope,
    typeName, "<_tmpl>::ConstantTypes::", constant.name, " >::Type\n    ", scope, typeName,
    "<_tmpl>::", constant.name, " = ", constant.spelling, "; // ", constant.literal, "\n"]

/-- The definitions of the members of a structure. -/
def definitions (scope typeName : String) (body : BodyContext) : String :=
  String.join ["template <int _tmpl>\nbool ", scope, typeName,
    "<_tmpl>::operator==(ParameterType rhs) const\n\x7b\n    (void)rhs;\n",
    if body.isUnion then
      "    if (_tag_ != rhs._tag_)\n    \x7b\n        return false;\n    \x7d\n"
    else "",
    String.join (body.members.map memberComparison),
    "    return true;\n\x7d\n",
    codecDefinitions scope typeName body.isUnion body.members,
    String.join (body.constants.map (constantDefinition scope typeName))]

/-! ## Headers -/

/-- What comes before the structures: the leading comment, the guard, the includes and the opened
name spaces. -/
def opening (names : NameContext) : String :=
  String.join [leadingComment,
    names.fullName, "\n */\n\n#ifndef ", names.guard, "\n#define ", names.guard,
    standardIncludes,
    String.join (names.includes.map fun path => String.join ["#include <", path, ">\n"]),
    "\n",
    String.join (names.spaces.map fun space => String.join ["namespace ", space, "\n\x7b\n"]),
    "\n"]

/-- The structure of a message. -/
def messageContent (names : NameContext) (body : BodyContext) : String :=
  String.join [declaration names.typeName body (some names), "\n\n",
    definitions "" names.typeName body, "\n\ntypedef ", names.typeName, "<0> ", names.shortName,
    ";\n"]

/-- The structures of a service. -/
def serviceContent (names : NameContext) (request response : BodyContext) : String :=
  String.join ["struct UAVCAN_EXPORT ", names.typeName, "\n\x7b\n",
    Template.indented Template.defaultIndent (declaration "Request_" request none), "\n\n",
    Template.indented Template.defaultIndent (declaration "Response_" response none),
    serviceTypes, names.kindToken, ";\n",
    portDeclaration names.portId,
    "\n    static const char* getDataTypeFullName()\n    \x7b\n        return \"", names.fullName,
    serviceSignature,
    definitions (names.typeName ++ "::") "Request_" request, "\n\n",
    definitions (names.typeName ++ "::") "Response_" response,
    "\n\ntypedef ", names.typeName, " ", names.shortName, ";\n"]

/-- The registration of a type with a fixed port identifier. -/
def registration (names : NameContext) : String :=
  if names.portId.isSome then
    String.join ["\nnamespace\n\x7b\n\nconst ::uavcan::DefaultDataTypeRegistrator< ",
      names.qualifiedName, " > _uavcan_gdtr_registrator_", names.shortName, ";\n\n\x7d\n"]
  else ""

/-- What comes after the structures: the registration, the closed name spaces and the end of the
guard. -/
def closing (names : NameContext) : String :=
  String.join [registration names, "\n",
    String.join (names.spaces.reverse.map fun space =>
      String.join ["\x7d // Namespace ", space, "\n"]),
    "\n#endif // ", names.guard, "\n"]

/-- The structures of a header. -/
def content (names : NameContext) : ContextBodies → String
  | .message body => messageContent names body
  | .service request response => serviceContent names request response

/-- The header of a context. -/
def header (context : Context) : String :=
  opening context.names ++ content context.names context.bodies ++ closing context.names

end Layout

end DsdlHeaders

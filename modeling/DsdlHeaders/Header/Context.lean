import DsdlHeaders.Header.TypeExpr
import DsdlHeaders.Model.Validity
import DsdlHeaders.Store.Path
import DsdlHeaders.Text.Numeral

/-!
# Rendering contexts

A template sees a definition through its **context**: names in the spellings that headers need,
the headers to include, and the fields and constants of each body with their type expressions and
literals. Building a context resolves every field type and checks every constant literal, so it
reports the first field whose type nests too deep or that lacks a name, and after the fields of a
body its first constant whose literal does not fit its kind.

* **`includes`** are the headers of the compound types found inside the fields' arrays, ascending
  in byte order and without repetition.
* **`outputPath`** is where the header of a definition goes below the output directory, and
  **`includePath`** is how other headers refer to it.
-/

namespace DsdlHeaders

/-! ## Where headers are -/

/-- The extension of headers unless another one is asked for. -/
def defaultExtension : String := "hpp"

/-- The path of a definition's header below the output directory. -/
def Definition.outputPath (definition : Definition) (extension : String) : String :=
  Path.withExtension (Path.ofPieces definition.components) extension

/-- How an include line spells the header of a definition. -/
def Definition.includePath (definition : Definition) (extension : String) : String :=
  String.intercalate "/" definition.components ++ "." ++ extension

/-- Puts a text into an ascending list unless it is there. -/
def insertAscending (text : String) : List String → List String
  | [] => [text]
  | head :: tail =>
    if text < head then text :: head :: tail
    else if text = head then head :: tail
    else head :: insertAscending text tail

/-- The compound types found inside the arrays of a definition's fields. -/
def Definition.referenced (definition : Definition) : List Definition :=
  definition.bodies.flatMap fun body => body.fields.filterMap fun field =>
    match field.type.innermost with
    | .compound target => some target
    | _ => none

/-- The headers that the header of a definition includes. -/
def Definition.includes (definition : Definition) (extension : String) : List String :=
  (definition.referenced.map (·.includePath extension)).foldr insertAscending []

/-! ## Literals -/

/-- The kinds of literal a constant may call for. -/
inductive LiteralKind where
  | floating
  | integer
deriving DecidableEq, Repr

/-- The word for a kind of literal. -/
def LiteralKind.word : LiteralKind → String
  | .floating => "float"
  | .integer => "integer"

/-- A floating point literal is taken as it is; an integer literal must fit 128 bits and gets a
suffix when its constant is unsigned. Otherwise the kind that was expected is returned. -/
def Constant.spelling (constant : Constant) : Except LiteralKind String :=
  if constant.type.kind.isFloating then
    if Text.isFloating constant.literal.toList then .ok constant.literal else .error .floating
  else
    match Text.signed? (Text.wordSize 127) constant.literal.toList with
    | none => .error .integer
    | some _ =>
      .ok (if constant.type.kind.isUnsigned then constant.literal ++ "U" else constant.literal)

/-! ## Contexts -/

/-- Why a context cannot be built. -/
inductive ContextError where
  | model (error : ModelError)
  | nestedTooDeep
  | invalidLiteral (constant literal : String) (expected : LiteralKind)
deriving DecidableEq, Repr

/-- The wording of a context error. -/
def ContextError.message : ContextError → String
  | .model error => "type model error: " ++ error.message
  | .nestedTooDeep => "type nesting exceeds " ++ toString maxArrayDepth ++ " levels"
  | .invalidLiteral constant literal expected =>
    "invalid " ++ expected.word ++ " literal '" ++ literal ++ "' for constant '" ++ constant ++ "'"

/-- A field as a template sees it. -/
structure FieldContext where
  name : String
  typeExpr : String
  isVoid : Bool
deriving DecidableEq, Repr

/-- A constant as a template sees it. -/
structure ConstantContext where
  name : String
  typeExpr : String
  spelling : String
  literal : String
deriving DecidableEq, Repr

/-- A body as a template sees it. A union without fields is no union. -/
structure BodyContext where
  fields : List FieldContext
  constants : List ConstantContext
  isUnion : Bool
deriving DecidableEq, Repr

/-- The part of a context that messages and services share. -/
structure NameContext where
  fullName : String
  shortName : String
  typeName : String
  qualifiedName : String
  spaces : List String
  uniqueId : String
  guard : String
  includes : List String
  portId : Option Nat
  isService : Bool
deriving DecidableEq, Repr

/-- The bodies of a context. -/
inductive ContextBodies where
  | message (body : BodyContext)
  | service (request response : BodyContext)
deriving DecidableEq, Repr

/-- A definition as a template sees it. -/
structure Context where
  names : NameContext
  bodies : ContextBodies
deriving DecidableEq, Repr

/-- The word for the kind of a definition. -/
def Context.kind (context : Context) : String :=
  match context.bodies with
  | .message _ => "Message"
  | .service .. => "Service"

/-- The token for the kind of a definition. -/
def NameContext.kindToken (names : NameContext) : String :=
  if names.isService then "::uavcan::DataTypeKindService" else "::uavcan::DataTypeKindMessage"

/-- The full name in upper case, with underscores for dots. -/
def Definition.uniqueId (definition : Definition) : String :=
  String.ofList (Text.upper (Text.replaceChar '.' ['_'] definition.fullName.toList))

/-- The names of a definition in the spellings that headers need. -/
def Definition.nameContext (definition : Definition) (extension : String) : NameContext where
  fullName := definition.fullName
  shortName := definition.shortName
  typeName := definition.shortName ++ "_"
  qualifiedName := qualifiedName definition.fullName
  spaces := definition.spaces
  uniqueId := definition.uniqueId
  guard := definition.uniqueId ++ "_HPP_INCLUDED"
  includes := definition.includes extension
  portId := definition.portId
  isService := definition.isService

/-- The contexts of the fields from `index` on, where `paddings` void fields came before. Padding is
named by its position among the padding fields. -/
def fieldContexts (type : String) : (index paddings : Nat) → List Field →
    Except ContextError (List FieldContext)
  | _, _, [] => .ok []
  | index, paddings, field :: fields =>
    match field.type.typeExpr? with
    | none => .error .nestedTooDeep
    | some typeExpr =>
      if field.type.isVoid then do
        let rest ← fieldContexts type (index + 1) (paddings + 1) fields
        .ok (⟨paddingStem ++ toString paddings, typeExpr, true⟩ :: rest)
      else
        match field.name with
        | none => .error (.model (.invalidField type index .missingName))
        | some name => do
          let rest ← fieldContexts type (index + 1) paddings fields
          .ok (⟨name, typeExpr, false⟩ :: rest)

/-- The context of a constant. -/
def Constant.context (constant : Constant) : Except ContextError ConstantContext :=
  match constant.spelling with
  | .error expected => .error (.invalidLiteral constant.name constant.literal expected)
  | .ok spelling => .ok ⟨constant.name, constant.type.typeExpr, spelling, constant.literal⟩

/-- The context of a body of the named definition. -/
def Body.context (type : String) (body : Body) : Except ContextError BodyContext := do
  let fields ← fieldContexts type 0 0 body.fields
  let constants ← body.constants.mapM Constant.context
  .ok ⟨fields, constants, body.isUnion && !fields.isEmpty⟩

/-- The context of a definition, with includes spelled with the given extension. -/
def Definition.context (definition : Definition) (extension : String) :
    Except ContextError Context :=
  match definition with
  | .message fullName _ body => do
    let body ← body.context fullName
    .ok ⟨definition.nameContext extension, .message body⟩
  | .service fullName _ request response => do
    let request ← request.context fullName
    let response ← response.context fullName
    .ok ⟨definition.nameContext extension, .service request response⟩

end DsdlHeaders

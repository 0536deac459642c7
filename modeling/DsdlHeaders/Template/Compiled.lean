import DsdlHeaders.Header.Context
import DsdlHeaders.Template.Expansion
import DsdlHeaders.Template.Primitive
import DsdlHeaders.Template.StmtReader

/-!
# Compiled templates

A template is compiled once and then expanded for any number of definitions. Compiling brings the
extended notation into the primitive one, lowers that into statement notation and reads the
statements. Expanding runs the statements with the name `t` bound to the context of a definition.

A context becomes a map. Its keys are listed in ascending order, as maps keep them.
-/

namespace DsdlHeaders.Template

/-! ## Contexts as values -/

/-- A map whose entries are given in ascending order of their keys. -/
def Value.ascending (fields : List (String × Value)) : Value :=
  .entries false (fields.map fun field => (.text field.1, field.2))

/-- Texts as a list. -/
def Value.texts (values : List String) : Value :=
  .list (values.map .text)

end Template

open Template

/-- A field as a map. -/
def FieldContext.value (field : FieldContext) : Value :=
  .ascending [("cpp_type", .text field.typeExpr), ("name", .text field.name),
    ("void", .boolean field.isVoid)]

/-- A constant as a map. -/
def ConstantContext.value (constant : ConstantContext) : Value :=
  .ascending [("cpp_type", .text constant.typeExpr), ("cpp_value", .text constant.spelling),
    ("name", .text constant.name), ("value", .text constant.literal)]

/-- Fields as a list of maps. -/
def fieldValues (fields : List FieldContext) : Value :=
  .list (fields.map FieldContext.value)

/-- Constants as a list of maps. -/
def constantValues (constants : List ConstantContext) : Value :=
  .list (constants.map ConstantContext.value)

/-- The fixed port identifier, if there is one, as an entry of a map. -/
def NameContext.portEntry (names : NameContext) : List (String × Value) :=
  match names.portId with
  | some portId => [("fixed_port_id", .word portId)]
  | none => []

/-- The entries of a message's context. -/
def NameContext.messageEntries (names : NameContext) (body : BodyContext) :
    List (String × Value) :=
  [("constants", constantValues body.constants), ("cpp_full_type_name", .text names.qualifiedName),
    ("cpp_kind", .text names.kindToken), ("cpp_type_name", .text names.typeName),
    ("fields", fieldValues body.fields)] ++ names.portEntry ++
  [("full_name", .text names.fullName), ("has_fixed_port_id", .boolean names.portId.isSome),
    ("include_guard", .text names.guard), ("includes", .texts names.includes),
    ("is_service", .boolean names.isService), ("kind", .text "Message"),
    ("namespace_components", .texts names.spaces), ("short_name", .text names.shortName),
    ("union", .boolean body.isUnion), ("unique_id", .text names.uniqueId)]

/-- The entries of a service's context. -/
def NameContext.serviceEntries (names : NameContext) (request response : BodyContext) :
    List (String × Value) :=
  [("cpp_full_type_name", .text names.qualifiedName), ("cpp_kind", .text names.kindToken),
    ("cpp_type_name", .text names.typeName)] ++ names.portEntry ++
  [("full_name", .text names.fullName), ("has_fixed_port_id", .boolean names.portId.isSome),
    ("include_guard", .text names.guard), ("includes", .texts names.includes),
    ("is_service", .boolean names.isService), ("kind", .text "Service"),
    ("namespace_components", .texts names.spaces),
    ("request_constants", constantValues request.constants),
    ("request_fields", fieldValues request.fields), ("request_union", .boolean request.isUnion),
    ("response_constants", constantValues response.constants),
    ("response_fields", fieldValues response.fields),
    ("response_union", .boolean response.isUnion), ("short_name", .text names.shortName),
    ("unique_id", .text names.uniqueId)]

/-- A context as a map. -/
def Context.value (context : Context) : Value :=
  match context.bodies with
  | .message body => .ascending (context.names.messageEntries body)
  | .service request response => .ascending (context.names.serviceEntries request response)

namespace Template

/-! ## Compiling and expanding -/

/-- Why a template cannot be compiled. -/
inductive CompileError where
  /-- A marker is wrong. -/
  | marker (error : Primitive.Error)
  /-- The statements cannot be read. -/
  | statements
deriving DecidableEq, Repr

/-- A template that is ready to be expanded. -/
structure Compiled where
  /-- Where the template came from. -/
  path : String
  body : List Stmt
deriving Repr

/-- Compiles a template in extended notation. -/
def compile (path : String) (source : List Char) : Except CompileError Compiled :=
  match Primitive.lowered (Extended.toPrimitive source) with
  | .error error => .error (.marker error)
  | .ok text =>
    match statements text with
    | none => .error .statements
    | some body => .ok ⟨path, body⟩

/-- The names that a template starts with: `t` is the context. -/
def contextNames (context : Context) : Bindings :=
  [("t", context.value)]

/-- The text of a template for a context. -/
def Compiled.expand (template : Compiled) (context : Context) : Except EvalError String :=
  expandAll template.body (contextNames context)

end DsdlHeaders.Template

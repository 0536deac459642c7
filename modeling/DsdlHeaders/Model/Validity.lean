import DsdlHeaders.Model.Basic
import DsdlHeaders.Text.Blank

/-!
# Valid models

The invariants that generated headers rely on, and the check that reports the first offence.

* **The predicate** `Valid` says what a list of definitions must satisfy, without any order.
* **The check** `validate` goes through the definitions in order. A definition's own offence is
  reported before its repetition of an earlier name. Within a definition the full name comes first,
  then the bodies in order; within a body the fields in order, and after them the constants.
-/

namespace DsdlHeaders

/-! ## Names -/

/-- Names that start like this are kept for the padding fields of generated headers. -/
def paddingStem : String := "_void_"

/-- An ASCII identifier. -/
def isIdentifier (name : String) : Bool :=
  Text.isIdentifier name.toList

/-- A dotted name all of whose parts are identifiers. -/
def isFullName (name : String) : Bool :=
  (Text.splitOn '.' name.toList).all Text.isIdentifier

/-- A name that a field may have: an identifier outside the names kept for padding. -/
def isFieldName (name : String) : Bool :=
  isIdentifier name && !Text.startsWith paddingStem.toList name.toList

/-! ## The predicate -/

/-- A field is unnamed exactly when it is padding, its name is a field name, and every array around
it has room for at least one element. -/
structure Field.Valid (field : Field) : Prop where
  named : field.name = none ↔ field.type.isVoid = true
  spelled : ∀ name, field.name = some name → isFieldName name = true
  roomy : ∀ sizing ∈ field.type.sizings, 0 < sizing.capacity

/-- A valid body has valid fields, and neither its fields nor its constants share names. -/
structure Body.Valid (body : Body) : Prop where
  fields : ∀ field ∈ body.fields, field.Valid
  distinctFields : (body.fields.filterMap Field.name).Nodup
  distinctConstants : (body.constants.map Constant.name).Nodup

/-- A valid definition has a proper full name and valid bodies. -/
structure Definition.Valid (definition : Definition) : Prop where
  name : isFullName definition.fullName = true
  bodies : ∀ body ∈ definition.bodies, body.Valid

/-- A valid model has valid definitions with distinct full names. -/
structure Valid (definitions : List Definition) : Prop where
  each : ∀ definition ∈ definitions, definition.Valid
  distinct : (definitions.map Definition.fullName).Nodup

/-! ## The check -/

/-- What is wrong with a field. -/
inductive FieldFault where
  | namedPadding
  | missingName
  | badName (name : String)
deriving DecidableEq, Repr

/-- The first offence of a model. -/
inductive ModelError where
  | invalidName (name : String)
  | duplicateType (name : String)
  | duplicateAttribute (type member : String)
  | invalidField (type : String) (index : Nat) (fault : FieldFault)
  | emptyArray (type : String)
deriving DecidableEq, Repr

/-- The wording of a field fault. -/
def FieldFault.message : FieldFault → String
  | .namedPadding => "void padding cannot be named"
  | .missingName => "missing name"
  | .badName name => "invalid name '" ++ name ++ "'"

/-- The wording of an offence. -/
def ModelError.message : ModelError → String
  | .invalidName name => "invalid full name '" ++ name ++ "'"
  | .duplicateType name => "duplicate type definition: '" ++ name ++ "'"
  | .duplicateAttribute type member =>
    "duplicate attribute '" ++ member ++ "' in '" ++ type ++ "'"
  | .invalidField type index fault =>
    "field #" ++ toString index ++ " of '" ++ type ++ "': " ++ fault.message
  | .emptyArray type => "array in '" ++ type ++ "' must have a positive size"

/-- Checks that a full name consists of identifiers. -/
def checkFullName (name : String) : Except ModelError Unit :=
  if isFullName name then .ok () else .error (.invalidName name)

/-- Checks that every array around the innermost type has room. -/
def checkSizes (type : String) (fieldType : DataType) : Except ModelError Unit :=
  if fieldType.sizings.all fun sizing => 0 < sizing.capacity then .ok ()
  else .error (.emptyArray type)

/-- Checks the name of the field at `index`, where `seen` are the names of the fields before it.
The names seen from now on are returned. -/
def checkFieldName (type : String) (seen : List String) (index : Nat) (field : Field) :
    Except ModelError (List String) :=
  match field.name, field.type.isVoid with
  | some _, true => .error (.invalidField type index .namedPadding)
  | none, false => .error (.invalidField type index .missingName)
  | none, true => .ok seen
  | some name, false =>
    if !isFieldName name then .error (.invalidField type index (.badName name))
    else if name ∈ seen then .error (.duplicateAttribute type name)
    else .ok (name :: seen)

/-- Checks the fields from `index` on. -/
def checkFields (type : String) : (seen : List String) → (index : Nat) → List Field →
    Except ModelError Unit
  | _, _, [] => .ok ()
  | seen, index, field :: fields => do
    let seen ← checkFieldName type seen index field
    checkSizes type field.type
    checkFields type seen (index + 1) fields

/-- Checks that constants have distinct names. -/
def checkConstants (type : String) : (seen : List String) → List Constant → Except ModelError Unit
  | _, [] => .ok ()
  | seen, constant :: constants =>
    if constant.name ∈ seen then .error (.duplicateAttribute type constant.name)
    else checkConstants type (constant.name :: seen) constants

/-- Checks one body of the named definition. -/
def checkBody (type : String) (body : Body) : Except ModelError Unit := do
  checkFields type [] 0 body.fields
  checkConstants type [] body.constants

/-- Checks the bodies of the named definition in order. -/
def checkBodies (type : String) : List Body → Except ModelError Unit
  | [] => .ok ()
  | body :: bodies => do
    checkBody type body
    checkBodies type bodies

/-- Checks one definition on its own. -/
def Definition.validate (definition : Definition) : Except ModelError Unit := do
  checkFullName definition.fullName
  checkBodies definition.fullName definition.bodies

/-- Checks definitions in order, where `seen` are the full names before them. -/
def validateFrom : (seen : List String) → List Definition → Except ModelError Unit
  | _, [] => .ok ()
  | seen, definition :: definitions => do
    definition.validate
    if definition.fullName ∈ seen then .error (.duplicateType definition.fullName)
    else validateFrom (definition.fullName :: seen) definitions

/-- Checks a whole model and reports the first offence. -/
def validate (definitions : List Definition) : Except ModelError Unit :=
  validateFrom [] definitions

end DsdlHeaders

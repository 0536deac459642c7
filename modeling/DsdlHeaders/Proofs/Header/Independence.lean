import Mathlib.Data.List.Forall2
import DsdlHeaders.Header.Context

/-!
# What a context depends on

A compound type in a field carries the whole definition that it stands for. A context takes nothing
from that definition but its full name: the type expression is the qualified name, the include is
the path that the name spells, and arrays are counted around a compound type and never inside it.

* **`Alike`** relates two types, fields, bodies or definitions that are the same but for what their
  compound types carry besides full names. A reference to a type that is defined elsewhere is alike
  to the definition that it refers to.
* **Types** that are alike have the same type expression (`DataType.Alike.typeExpr?_eq`).
* **Definitions** that are alike have the same context for every extension, or fail in the same way
  (`Definition.Alike.context_eq`).
-/

namespace DsdlHeaders

/-! ## Alike but for references -/

/-- Types that are the same but for what their compound types carry besides full names. -/
inductive DataType.Alike : DataType → DataType → Prop
  | primitive (scalar : Primitive) : Alike (.primitive scalar) (.primitive scalar)
  | void (bits : Nat) : Alike (.void bits) (.void bits)
  | array {element other : DataType} (sizing : Sizing) (inner : Alike element other) :
      Alike (.array element sizing) (.array other sizing)
  | compound {target other : Definition} (named : target.fullName = other.fullName) :
      Alike (.compound target) (.compound other)

/-- Fields with the same name and types that are alike. -/
structure Field.Alike (field other : Field) : Prop where
  name : field.name = other.name
  type : field.type.Alike other.type

/-- Bodies that are the same but for what the compound types of their fields carry. -/
structure Body.Alike (body other : Body) : Prop where
  fields : List.Forall₂ Field.Alike body.fields other.fields
  constants : body.constants = other.constants
  isUnion : body.isUnion = other.isUnion

/-- Definitions that are the same but for what the compound types of their fields carry. -/
inductive Definition.Alike : Definition → Definition → Prop
  | message (fullName : String) (portId : Option Nat) {body other : Body}
      (bodies : body.Alike other) :
      Alike (.message fullName portId body) (.message fullName portId other)
  | service (fullName : String) (portId : Option Nat)
      {request response otherRequest otherResponse : Body}
      (requests : request.Alike otherRequest) (responses : response.Alike otherResponse) :
      Alike (.service fullName portId request response)
        (.service fullName portId otherRequest otherResponse)

/-! ## Types -/

namespace DataType.Alike

variable {type other : DataType}

/-- Types that are alike are both padding, or neither is. -/
theorem isVoid_eq (h : type.Alike other) : type.isVoid = other.isVoid := by
  cases h <;> rfl

/-- What is inside all arrays is alike. -/
theorem innermost (h : type.Alike other) : type.innermost.Alike other.innermost := by
  induction h with
  | primitive scalar => exact .primitive scalar
  | void bits => exact .void bits
  | array sizing _ ih => exact ih
  | compound named => exact .compound named

/-- Types that are alike have the same type expression within the same depth. -/
theorem typeExprWithin_eq (h : type.Alike other) (levels : Nat) :
    type.typeExprWithin levels = other.typeExprWithin levels := by
  induction h generalizing levels with
  | primitive scalar => rfl
  | void bits => rfl
  | array sizing _ ih =>
    cases levels with
    | zero => rfl
    | succ levels => rw [typeExprWithin, typeExprWithin, ih]
  | compound named =>
    cases levels with
    | zero => rfl
    | succ levels => rw [typeExprWithin, typeExprWithin, named]

/-- Types that are alike have the same type expression, or both nest too deep. -/
theorem typeExpr?_eq (h : type.Alike other) : type.typeExpr? = other.typeExpr? :=
  h.typeExprWithin_eq maxArrayDepth

end DataType.Alike

/-! ## Fields and bodies -/

/-- The definition that a field refers to, inside all arrays. -/
def Field.target? (field : Field) : Option Definition :=
  match field.type.innermost with
  | .compound target => some target
  | _ => none

/-- The definitions that a definition refers to are those of its fields. -/
theorem Definition.referenced_eq (definition : Definition) :
    definition.referenced = definition.bodies.flatMap (·.fields.filterMap Field.target?) := rfl

/-- What a field refers to is what is inside its arrays. -/
theorem Field.target?_eq_some_iff {field : Field} {target : Definition} :
    field.target? = some target ↔ field.type.innermost = .compound target := by
  unfold target?
  split
  · rename_i found hfound
    rw [hfound, Option.some.injEq, DataType.compound.injEq]
  · rename_i hnone
    exact ⟨nofun, fun h => absurd h (hnone target)⟩

/-- A definition refers to what is inside the arrays of some field. -/
theorem Definition.mem_referenced {definition target : Definition} :
    target ∈ definition.referenced ↔ ∃ body ∈ definition.bodies, ∃ field ∈ body.fields,
      field.type.innermost = .compound target := by
  simp only [referenced_eq, List.mem_flatMap, List.mem_filterMap, Field.target?_eq_some_iff]

/-- Fields that are alike refer to the same names. -/
theorem Field.Alike.target?_eq {field other : Field} (h : field.Alike other) :
    field.target?.map Definition.fullName = other.target?.map Definition.fullName := by
  have hinner := h.type.innermost
  unfold Field.target?
  generalize field.type.innermost = inner, other.type.innermost = inner' at hinner
  cases hinner with
  | primitive scalar => rfl
  | void bits => rfl
  | array sizing inner => rfl
  | compound named => simp [named]

/-- Fields that are alike have the same contexts, or the same field fails. -/
theorem fieldContexts_eq_of_alike {fields others : List Field}
    (h : List.Forall₂ Field.Alike fields others) (type : String) (index paddings : Nat) :
    fieldContexts type index paddings fields = fieldContexts type index paddings others := by
  induction h generalizing index paddings with
  | nil => rfl
  | cons hfield _ ih =>
    simp only [fieldContexts, hfield.name, hfield.type.isVoid_eq, hfield.type.typeExpr?_eq, ih]

/-- Fields that are alike refer to the same names in the same order. -/
theorem targets_eq_of_alike {fields others : List Field}
    (h : List.Forall₂ Field.Alike fields others) :
    (fields.filterMap Field.target?).map Definition.fullName =
      (others.filterMap Field.target?).map Definition.fullName := by
  rw [List.map_filterMap, List.map_filterMap]
  induction h with
  | nil => rfl
  | cons hfield _ ih => rw [List.filterMap_cons, List.filterMap_cons, hfield.target?_eq, ih]

/-- Bodies that are alike have the same context, or fail in the same way. -/
theorem Body.Alike.context_eq {body other : Body} (h : body.Alike other) (type : String) :
    body.context type = other.context type := by
  unfold Body.context
  rw [fieldContexts_eq_of_alike h.fields, h.constants, h.isUnion]

/-! ## Definitions -/

/-- The include path of a definition is spelled by its full name. -/
theorem includePaths_eq_of_names {targets others : List Definition}
    (h : targets.map Definition.fullName = others.map Definition.fullName) (extension : String) :
    targets.map (·.includePath extension) = others.map (·.includePath extension) := by
  have hspelled : (fun target : Definition => target.includePath extension) =
      (fun name => String.intercalate "/" (nameComponents name) ++ "." ++ extension) ∘
        Definition.fullName := rfl
  rw [hspelled, ← List.map_map, h, List.map_map]

namespace Definition.Alike

variable {definition other : Definition}

/-- Definitions that are alike have the same full name. -/
theorem fullName_eq (h : definition.Alike other) : definition.fullName = other.fullName := by
  cases h <;> rfl

/-- Definitions that are alike refer to the same names in the same order. -/
theorem referenced_eq (h : definition.Alike other) :
    definition.referenced.map Definition.fullName = other.referenced.map Definition.fullName := by
  rw [Definition.referenced_eq, Definition.referenced_eq, List.map_flatMap, List.map_flatMap]
  cases h with
  | message fullName portId bodies =>
    simp only [Definition.bodies, List.flatMap_cons, List.flatMap_nil,
      targets_eq_of_alike bodies.fields]
  | service fullName portId requests responses =>
    simp only [Definition.bodies, List.flatMap_cons, List.flatMap_nil,
      targets_eq_of_alike requests.fields, targets_eq_of_alike responses.fields]

/-- Definitions that are alike include the same headers. -/
theorem includes_eq (h : definition.Alike other) (extension : String) :
    definition.includes extension = other.includes extension := by
  unfold includes
  rw [includePaths_eq_of_names h.referenced_eq]

/-- Definitions that are alike have the same names in their contexts. -/
theorem nameContext_eq (h : definition.Alike other) (extension : String) :
    definition.nameContext extension = other.nameContext extension := by
  have hincludes := h.includes_eq extension
  have hfullName := h.fullName_eq
  have hport : definition.portId = other.portId := by cases h <;> rfl
  have hservice : definition.isService = other.isService := by cases h <;> rfl
  simp only [nameContext, hincludes, shortName, spaces, uniqueId, hfullName, hport, hservice]

/-- Definitions that are alike have the same context, or fail in the same way. -/
theorem context_eq (h : definition.Alike other) (extension : String) :
    definition.context extension = other.context extension := by
  have hnames := h.nameContext_eq extension
  cases h with
  | message fullName portId bodies => simp only [context, hnames, bodies.context_eq]
  | service fullName portId requests responses =>
    simp only [context, hnames, requests.context_eq, responses.context_eq]

end Definition.Alike

end DsdlHeaders

import DsdlHeaders.Document.Writer
import DsdlHeaders.Text.Numeral

/-!
# The format of type-model documents

Which texts are documents for a list of definitions, and which definitions have documents.

* **Documents**: `DocumentText definitions document` says that a document lists these definitions,
  one element for each definition, section, field, constant and type. The format leaves some
  freedom: attributes come in any order, white space may stand around elements, elements without
  content may be empty elements, fields and constants of a body may alternate, the two sections of a
  service may change places, and what equals its default (the cast mode, the union flag, a section)
  may be left out. The documents of the writer are among them (`documentText_write`).
* **Definitions**: `Writable definitions` says that the numbers are in range, that the names can
  stand between quotes, that arrays are not nested too deep, and that each compound type carries the
  definition that its name stands for at that place.
-/

namespace DsdlHeaders

/-! ## Writable definitions -/

/-- A text that can stand between double quotes. -/
def IsQuotable (text : String) : Prop :=
  '"' ∉ text.toList

instance (text : String) : Decidable (IsQuotable text) :=
  inferInstanceAs (Decidable ('"' ∉ text.toList))

/-- The definition that a name stands for after others: the latest of that name, or a reference if
there is none. -/
inductive StandsFor : (earlier : List Definition) → Definition → Prop where
  | latest {before after : List Definition} {target : Definition}
      (h : ∀ other ∈ after, other.fullName ≠ target.fullName) :
      StandsFor (before ++ target :: after) target
  | external {earlier : List Definition} {fullName : String}
      (h : ∀ other ∈ earlier, other.fullName ≠ fullName) :
      StandsFor earlier (.reference fullName)

/-- A primitive type that can be written. -/
def Primitive.Writable (type : Primitive) : Prop :=
  1 ≤ type.bits ∧ type.bits ≤ 64

/-- A type that can be written after the given definitions. -/
def DataType.Writable (earlier : List Definition) : DataType → Prop
  | .primitive type => type.Writable
  | .void bits => 1 ≤ bits ∧ bits ≤ 64
  | .array element sizing => element.Writable earlier ∧ sizing.capacity < Text.wordSize 64
  | .compound target => IsQuotable target.fullName ∧ StandsFor earlier target

/-- A field that can be written after the given definitions. -/
structure Field.Writable (earlier : List Definition) (field : Field) : Prop where
  name : ∀ name ∈ field.name, IsQuotable name
  type : field.type.Writable earlier
  depth : field.type.arrayDepth ≤ 31

/-- A constant that can be written. -/
structure Constant.Writable (constant : Constant) : Prop where
  name : IsQuotable constant.name
  type : constant.type.Writable
  literal : IsQuotable constant.literal

/-- A body that can be written after the given definitions. -/
structure Body.Writable (earlier : List Definition) (body : Body) : Prop where
  fields : ∀ field ∈ body.fields, field.Writable earlier
  constants : ∀ constant ∈ body.constants, constant.Writable

/-- A definition that can be written after the given definitions. -/
structure Definition.Writable (earlier : List Definition) (definition : Definition) : Prop where
  fullName : IsQuotable definition.fullName
  portId : ∀ portId ∈ definition.portId, portId < Text.wordSize 32
  bodies : ∀ body ∈ definition.bodies, body.Writable earlier

/-- Definitions that can be written after others. Each may refer to those before it. -/
def WritableAfter (earlier : List Definition) : List Definition → Prop
  | [] => True
  | definition :: later =>
    definition.Writable earlier ∧ WritableAfter (earlier ++ [definition]) later

/-- Definitions that can be written as a document. -/
def Writable (definitions : List Definition) : Prop :=
  WritableAfter [] definitions

namespace Document

open Markup

/-! ## Elements -/

/-- White space around elements. -/
def IsLayout (text : List Char) : Prop :=
  ∀ c ∈ text, Text.isGap c = true

/-- The texts of an element with these attributes around a content. -/
inductive ElementText (name : String) (attributes : List Attribute) :
    (content text : List Char) → Prop where
  | closed {before content after : List Char} {written : List Attribute} (hbefore : IsLayout before)
      (hafter : IsLayout after) (hwritten : written.Perm attributes) :
      ElementText name attributes content (before ++ writeElement name written (content ++ after))
  | empty {before : List Char} {written : List Attribute} (hbefore : IsLayout before)
      (hwritten : written.Perm attributes) :
      ElementText name attributes [] (before ++ writeEmpty name written)

/-- The attribute for a value, which may be left out if it is the default. -/
inductive OptionalAttribute (item : Attribute) (isDefault : Prop) : List Attribute → Prop where
  | given : OptionalAttribute item isDefault [item]
  | omitted (h : isDefault) : OptionalAttribute item isDefault []

/-! ## Types and members -/

/-- The texts of a primitive type. -/
inductive PrimitiveText (type : Primitive) (text : List Char) : Prop where
  | mk {cast : List Attribute}
      (hcast : OptionalAttribute ⟨"cast", castText type.cast⟩ (type.cast = .saturated) cast)
      (htext : ElementText type.kind.keyword (⟨"bits", toString type.bits⟩ :: cast) [] text)

/-- The texts of a type. -/
inductive TypeText : DataType → (text : List Char) → Prop where
  | primitive {type : Primitive} {text : List Char} (htext : PrimitiveText type text) :
      TypeText (.primitive type) text
  | void {bits : Nat} {text : List Char}
      (htext : ElementText "void" [⟨"bits", toString bits⟩] [] text) : TypeText (.void bits) text
  | compound {target : Definition} {text : List Char}
      (htext : ElementText "compound" [⟨"name", target.fullName⟩] [] text) :
      TypeText (.compound target) text
  | array {element : DataType} {sizing : Sizing} {content text : List Char}
      (helement : TypeText element content)
      (htext : ElementText "array" [sizingAttribute sizing] content text) :
      TypeText (.array element sizing) text

/-- The attributes of a field; padding has none. -/
def nameAttributes : Option String → List Attribute
  | some name => [⟨"name", name⟩]
  | none => []

/-- The texts of fields and constants, which may alternate. -/
inductive MembersText : List Field → List Constant → (text : List Char) → Prop where
  | nil : MembersText [] [] []
  | field {field : Field} {fields : List Field} {constants : List Constant}
      {content text rest : List Char} (htype : TypeText field.type content)
      (htext : ElementText "field" (nameAttributes field.name) content text)
      (hrest : MembersText fields constants rest) :
      MembersText (field :: fields) constants (text ++ rest)
  | constant {constant : Constant} {fields : List Field} {constants : List Constant}
      {content text rest : List Char} (htype : PrimitiveText constant.type content)
      (htext : ElementText "constant" [⟨"name", constant.name⟩, ⟨"value", constant.literal⟩]
        content text)
      (hrest : MembersText fields constants rest) :
      MembersText fields (constant :: constants) (text ++ rest)

/-! ## Bodies and definitions -/

/-- The texts of an element that holds a body, with its own attributes and the union flag. -/
inductive BodyText (name : String) (attributes : List Attribute) (body : Body)
    (text : List Char) : Prop where
  | mk {union : List Attribute} {content : List Char}
      (hunion : OptionalAttribute ⟨"union", truthText body.isUnion⟩ (body.isUnion = false) union)
      (hcontent : MembersText body.fields body.constants content)
      (htext : ElementText name (attributes ++ union) content text)

/-- The texts of a section of a service. -/
inductive SectionText (name : String) (body : Body) : (text : List Char) → Prop where
  | written {text : List Char} (htext : BodyText name [] body text) : SectionText name body text
  | omitted (h : body = .empty false) : SectionText name body []

/-- The texts of a definition. -/
inductive DefinitionText : Definition → (text : List Char) → Prop where
  | message {fullName : String} {portId : Option Nat} {body : Body} {text : List Char}
      (htext : BodyText "message" (headingAttributes fullName portId) body text) :
      DefinitionText (.message fullName portId body) text
  | service {fullName : String} {portId : Option Nat} {request response : Body}
      {first second content text : List Char} (hrequest : SectionText "request" request first)
      (hresponse : SectionText "response" response second)
      (hcontent : content = first ++ second ∨ content = second ++ first)
      (htext : ElementText "service" (headingAttributes fullName portId) content text) :
      DefinitionText (.service fullName portId request response) text

/-- The texts of definitions one after the other. -/
inductive DefinitionsText : List Definition → (text : List Char) → Prop where
  | nil : DefinitionsText [] []
  | cons {definition : Definition} {definitions : List Definition} {text rest : List Char}
      (htext : DefinitionText definition text) (hrest : DefinitionsText definitions rest) :
      DefinitionsText (definition :: definitions) (text ++ rest)

/-- The documents that list these definitions. -/
inductive DocumentText (definitions : List Definition) (document : String) : Prop where
  | mk {content text after : List Char} (hcontent : DefinitionsText definitions content)
      (htext : ElementText "dsdl" [] content text) (hafter : IsLayout after)
      (hdocument : document.toList = text ++ after)

/-! ## The documents of the writer -/

/-- No white space at all. -/
theorem isLayout_nil : IsLayout [] := by
  intro c hc
  exact absurd hc List.not_mem_nil

/-- An element with an end tag, as the writer writes it. -/
theorem elementText_writeElement (name : String) (attributes : List Attribute)
    (content : List Char) :
    ElementText name attributes content (writeElement name attributes content) := by
  have h : ElementText name attributes content
      ([] ++ writeElement name attributes (content ++ [])) :=
    .closed isLayout_nil isLayout_nil (.refl attributes)
  rwa [List.nil_append, List.append_nil] at h

/-- An empty element, as the writer writes it. -/
theorem elementText_writeEmpty (name : String) (attributes : List Attribute) :
    ElementText name attributes [] (writeEmpty name attributes) :=
  .empty isLayout_nil (.refl attributes)

/-- An element without content, as the writer writes it. -/
theorem elementText_writeLeaf (isEmpty : Bool) (name : String) (attributes : List Attribute) :
    ElementText name attributes [] (writeLeaf isEmpty name attributes) := by
  cases isEmpty with
  | false => exact elementText_writeElement name attributes []
  | true => exact elementText_writeEmpty name attributes

variable (style : Style)

/-- A primitive type, as the writer writes it. -/
theorem primitiveText_write (type : Primitive) : PrimitiveText type (writePrimitive style type) :=
  .mk .given (elementText_writeLeaf style.emptyTypes type.kind.keyword _)

/-- A type, as the writer writes it. -/
theorem typeText_write (type : DataType) : TypeText type (writeType style type) := by
  match type with
  | .primitive type => exact .primitive (primitiveText_write style type)
  | .void bits => exact .void (elementText_writeLeaf style.emptyTypes "void" _)
  | .compound target => exact .compound (elementText_writeLeaf style.emptyTypes "compound" _)
  | .array element sizing =>
    exact .array (typeText_write element) (elementText_writeElement "array" _ _)

/-- The fields and constants of a body, as the writer writes them. -/
theorem membersText_write (fields : List Field) (constants : List Constant) :
    MembersText fields constants
      (fields.flatMap (writeField style) ++ constants.flatMap (writeConstant style)) := by
  induction fields with
  | nil =>
    rw [List.flatMap_nil, List.nil_append]
    induction constants with
    | nil => exact .nil
    | cons constant constants ih =>
      exact .constant (primitiveText_write style constant.type)
        (elementText_writeElement "constant" _ _) ih
  | cons field fields ih =>
    have hfield : ElementText "field" (nameAttributes field.name) (writeType style field.type)
        (writeField style field) := elementText_writeElement "field" _ _
    rw [List.flatMap_cons, List.append_assoc]
    exact .field (typeText_write style field.type) hfield ih

/-- An element that holds a body, as the writer writes it. -/
theorem bodyText_write (name : String) (attributes : List Attribute) (body : Body) :
    BodyText name attributes body (writeBody style name attributes body) := by
  have hmembers := membersText_write style body.fields body.constants
  unfold writeBody
  dsimp only
  by_cases h : (style.emptyBodies && body.fields.isEmpty && body.constants.isEmpty) = true
  · rw [if_pos h]
    simp only [Bool.and_eq_true, List.isEmpty_iff] at h
    refine .mk .given ?_ (elementText_writeEmpty name _)
    rw [h.1.2, h.2]
    exact .nil
  · rw [if_neg h]
    exact .mk .given hmembers (elementText_writeElement name _ _)

/-- A definition, as the writer writes it. -/
theorem definitionText_write (definition : Definition) :
    DefinitionText definition (writeDefinition style definition) := by
  cases definition with
  | message fullName portId body => exact .message (bodyText_write style "message" _ body)
  | service fullName portId request response =>
    exact .service (.written (bodyText_write style "request" [] request))
      (.written (bodyText_write style "response" [] response)) (.inl rfl)
      (elementText_writeElement "service" _ _)

/-- The writer keeps to the format. -/
theorem documentText_write (definitions : List Definition) :
    DocumentText definitions (write style definitions) := by
  have hcontent : DefinitionsText definitions
      (definitions.flatMap (writeDefinition style)) := by
    induction definitions with
    | nil => exact .nil
    | cons definition definitions ih => exact .cons (definitionText_write style definition) ih
  refine .mk hcontent (elementText_writeElement "dsdl" [] _) isLayout_nil ?_
  rw [write, String.toList_ofList, List.append_nil]

end Document

end DsdlHeaders

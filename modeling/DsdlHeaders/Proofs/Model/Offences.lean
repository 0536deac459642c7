import Mathlib.Data.List.Perm.Basic
import DsdlHeaders.Proofs.Model.Validation
import DsdlHeaders.Proofs.Text.Marks

/-!
# The first offence of a model

The check of a model says which models are fit for headers and, of the others, what is wrong first
(`validate_outcome`).

* **Acceptance** is spelled out: which characters a name has, which fields have one, what is
  distinct from what. Nothing in it depends on the order of the definitions.
* **Rejection** names an offence. The relations `Field.Offends`, `Body.FirstOffence`,
  `Definition.FirstOffence` and `FirstOffence` say of an offence that everything before it is in
  order: earlier definitions, the full name, earlier bodies, earlier fields, earlier constants. A
  definition that repeats a name is in order itself.

All checks are loops that stop at the first item that fails and remember something about the items
before it. `loop_eq_error_iff` says once for all of them what their errors are.
-/

namespace DsdlHeaders

/-! ## Loops that stop -/

/-- The error of two steps is that of the first one, or that of the second one after the first one
has succeeded. -/
theorem bind_eq_error_iff {α β ε : Type} {x : Except ε α} {f : α → Except ε β} {error : ε} :
    (x >>= f) = .error error ↔ x = .error error ∨ ∃ a, x = .ok a ∧ f a = .error error := by
  cases x with
  | error e => simp [bind, Except.bind]
  | ok a => simp [bind, Except.bind]

/-- The error of two checks is that of the first one, or that of the second one after the first one
has succeeded. -/
theorem check_bind_eq_error_iff {β ε : Type} {x : Except ε Unit} {f : Unit → Except ε β}
    {error : ε} :
    (x >>= f) = .error error ↔ x = .error error ∨ x = .ok () ∧ f () = .error error := by
  rw [bind_eq_error_iff]
  refine or_congr_right ⟨?_, fun h => ⟨(), h⟩⟩
  rintro ⟨⟨⟩, h⟩
  exact h

section Loops

variable {α σ ε : Type} {error : ε}
variable (loop : σ → List α → Except ε Unit) (step : σ → α → Except ε σ) (view : List α → σ)

/-- The errors of a loop that has come past the items `earlier`. -/
theorem loop_eq_error_iff_of_view (hnil : ∀ state, loop state [] = .ok ())
    (hcons : ∀ state item items, loop state (item :: items) =
      step state item >>= fun next => loop next items)
    (hview : ∀ earlier item next, step (view earlier) item = .ok next →
      next = view (earlier ++ [item])) (earlier items : List α) :
    loop (view earlier) items = .error error ↔ ∃ before item after,
      items = before ++ item :: after ∧ loop (view earlier) before = .ok () ∧
        step (view (earlier ++ before)) item = .error error := by
  induction items generalizing earlier with
  | nil => simp [hnil]
  | cons first items ih =>
    rw [hcons, bind_eq_error_iff]
    constructor
    · rintro (hfirst | ⟨next, hnext, hlater⟩)
      · exact ⟨[], first, items, rfl, hnil _, by rwa [List.append_nil]⟩
      · obtain rfl := hview earlier first next hnext
        obtain ⟨before, item, after, rfl, hbefore, hitem⟩ := (ih (earlier ++ [first])).mp hlater
        refine ⟨first :: before, item, after, rfl, ?_, ?_⟩
        · rw [hcons, bind_eq_ok_iff]
          exact ⟨_, hnext, hbefore⟩
        · rwa [List.append_assoc, List.singleton_append] at hitem
    · rintro ⟨before, item, after, hitems, hbefore, hitem⟩
      cases before with
      | nil =>
        obtain ⟨rfl, rfl⟩ := List.cons.inj hitems
        exact .inl (by rwa [List.append_nil] at hitem)
      | cons other before =>
        obtain ⟨rfl, rfl⟩ := List.cons.inj hitems
        rw [hcons, bind_eq_ok_iff] at hbefore
        obtain ⟨next, hnext, hbefore⟩ := hbefore
        obtain rfl := hview earlier first next hnext
        refine .inr ⟨_, hnext, (ih _).mpr ⟨before, item, after, rfl, hbefore, ?_⟩⟩
        rwa [List.append_assoc, List.singleton_append]

/-- A loop fails with the error of an item when all items before it pass. What the loop remembers
at an item is a view of the items before it. -/
theorem loop_eq_error_iff (hnil : ∀ state, loop state [] = .ok ())
    (hcons : ∀ state item items, loop state (item :: items) =
      step state item >>= fun next => loop next items)
    (hview : ∀ earlier item next, step (view earlier) item = .ok next →
      next = view (earlier ++ [item])) (items : List α) :
    loop (view []) items = .error error ↔ ∃ before item after,
      items = before ++ item :: after ∧ loop (view []) before = .ok () ∧
        step (view before) item = .error error := by
  simpa using loop_eq_error_iff_of_view loop step view hnil hcons hview [] items

end Loops

/-! ## Fields -/

/-- What is wrong with a field of a definition, after the fields `earlier`. The name is looked at
before the sizes of arrays. -/
inductive Field.Offends (type : String) (earlier : List Field) (field : Field) : ModelError → Prop
  | namedPadding {name : String} (named : field.name = some name)
      (padding : field.type.isVoid = true) :
      field.Offends type earlier (.invalidField type earlier.length .namedPadding)
  | missingName (unnamed : field.name = none) (used : field.type.isVoid = false) :
      field.Offends type earlier (.invalidField type earlier.length .missingName)
  | badName {name : String} (named : field.name = some name) (used : field.type.isVoid = false)
      (misspelled : isFieldName name = false) :
      field.Offends type earlier (.invalidField type earlier.length (.badName name))
  | repeated {name : String} (named : field.name = some name) (used : field.type.isVoid = false)
      (spelled : isFieldName name = true) (seen : name ∈ fieldNames earlier) :
      field.Offends type earlier (.duplicateAttribute type name)
  | emptyArray {sizing : Sizing} (named : field.name = none ↔ field.type.isVoid = true)
      (spelled : ∀ name, field.name = some name →
        isFieldName name = true ∧ name ∉ fieldNames earlier)
      (level : sizing ∈ field.type.sizings) (empty : sizing.capacity = 0) :
      field.Offends type earlier (.emptyArray type)

/-- The check of one field, and what is remembered after it. -/
def fieldStep (type : String) (state : List String × Nat) (field : Field) :
    Except ModelError (List String × Nat) := do
  let seen ← checkFieldName type state.1 state.2 field
  checkSizes type field.type
  return (seen, state.2 + 1)

/-- What is remembered of fields: their names, latest first, and their number. -/
def fieldView (earlier : List Field) : List String × Nat :=
  ((fieldNames earlier).reverse, earlier.length)

/-- The errors of the check of a field's name. -/
theorem checkFieldName_eq_error_iff {type : String} {seen : List String} {index : Nat}
    {field : Field} {error : ModelError} : checkFieldName type seen index field = .error error ↔
      (field.name ≠ none ∧ field.type.isVoid = true ∧
        error = .invalidField type index .namedPadding) ∨
      (field.name = none ∧ field.type.isVoid = false ∧
        error = .invalidField type index .missingName) ∨
      ∃ name, field.name = some name ∧ field.type.isVoid = false ∧
        (isFieldName name = false ∧ error = .invalidField type index (.badName name) ∨
          isFieldName name = true ∧ name ∈ seen ∧ error = .duplicateAttribute type name) := by
  unfold checkFieldName
  rcases hname : field.name with _ | name <;> rcases hvoid : field.type.isVoid with _ | _
  · simp [@eq_comm _ _ error]
  · simp
  · by_cases hfield : isFieldName name = true
    · by_cases hseen : name ∈ seen <;> simp [hfield, hseen, @eq_comm _ _ error]
    · simp [hfield, @eq_comm _ _ error]
  · simp [@eq_comm _ _ error]

/-- The error of the check of array sizes. -/
theorem checkSizes_eq_error_iff {type : String} {fieldType : DataType} {error : ModelError} :
    checkSizes type fieldType = .error error ↔
      (∃ sizing ∈ fieldType.sizings, sizing.capacity = 0) ∧ error = .emptyArray type := by
  unfold checkSizes
  split_ifs with h
  · have hroomy : ∀ sizing ∈ fieldType.sizings, sizing.capacity ≠ 0 := by
      simpa [Nat.pos_iff_ne_zero] using h
    simpa using fun sizing hsizing hempty => absurd hempty (hroomy sizing hsizing)
  · have hempty : ∃ sizing ∈ fieldType.sizings, sizing.capacity = 0 := by
      simpa using h
    simp [hempty, @eq_comm _ _ error]

/-- The check of one field fails with what is wrong with it. -/
theorem fieldStep_eq_error_iff {type : String} {earlier : List Field} {field : Field}
    {error : ModelError} :
    fieldStep type (fieldView earlier) field = .error error ↔ field.Offends type earlier error := by
  simp only [fieldStep, fieldView, bind_eq_error_iff (α := List String), check_bind_eq_error_iff,
    checkFieldName_eq_error_iff, checkFieldName_eq_ok_iff, checkSizes_eq_error_iff,
    List.mem_reverse]
  constructor
  · rintro ((⟨hname, hvoid, rfl⟩ | ⟨hname, hvoid, rfl⟩ |
      ⟨name, hname, hvoid, ⟨hspelled, rfl⟩ | ⟨hspelled, hseen, rfl⟩⟩) |
      ⟨seen, ⟨hnamed, hspelled, -⟩, ⟨⟨sizing, hsizing, hempty⟩, rfl⟩ | ⟨-, hpure⟩⟩)
    · obtain ⟨name, hname⟩ := Option.ne_none_iff_exists'.mp hname
      exact .namedPadding hname hvoid
    · exact .missingName hname hvoid
    · exact .badName hname hvoid hspelled
    · exact .repeated hname hvoid hspelled hseen
    · exact .emptyArray hnamed hspelled hsizing hempty
    · exact absurd hpure (by simp [pure, Except.pure])
  · intro h
    cases h with
    | namedPadding hname hvoid => exact .inl (.inl ⟨by simp [hname], hvoid, rfl⟩)
    | missingName hname hvoid => exact .inl (.inr (.inl ⟨hname, hvoid, rfl⟩))
    | badName hname hvoid hspelled =>
      exact .inl (.inr (.inr ⟨_, hname, hvoid, .inl ⟨hspelled, rfl⟩⟩))
    | repeated hname hvoid hspelled hseen =>
      exact .inl (.inr (.inr ⟨_, hname, hvoid, .inr ⟨hspelled, hseen, rfl⟩⟩))
    | emptyArray hnamed hspelled hsizing hempty =>
      exact .inr ⟨_, ⟨hnamed, hspelled, rfl⟩, .inl ⟨⟨_, hsizing, hempty⟩, rfl⟩⟩

/-- A field that passes is remembered. -/
theorem fieldStep_eq_ok {type : String} {earlier : List Field} {field : Field}
    {next : List String × Nat} (h : fieldStep type (fieldView earlier) field = .ok next) :
    next = fieldView (earlier ++ [field]) := by
  simp only [fieldStep, bind_eq_ok_iff, checkFieldName_eq_ok_iff] at h
  obtain ⟨seen, ⟨-, -, rfl⟩, -, -, hnext⟩ := h
  obtain rfl := Except.ok.inj hnext
  rcases hname : field.name with _ | name <;> simp [fieldView, fieldNames, hname]

/-- Fields that are in order among themselves. -/
def FieldsValid (fields : List Field) : Prop :=
  (∀ field ∈ fields, field.Valid) ∧ (fieldNames fields).Nodup

/-- The check of fields fails with what is wrong with the first field that is not in order. -/
theorem checkFields_eq_error_iff {type : String} {fields : List Field} {error : ModelError} :
    checkFields type [] 0 fields = .error error ↔ ∃ before field after,
      fields = before ++ field :: after ∧ FieldsValid before ∧
        field.Offends type before error := by
  have hcons : ∀ (state : List String × Nat) field fields,
      checkFields type state.1 state.2 (field :: fields) =
        fieldStep type state field >>= fun next => checkFields type next.1 next.2 fields := by
    intro state field fields
    simp only [checkFields, fieldStep]
    cases checkFieldName type state.1 state.2 field with
    | error error => rfl
    | ok seen => cases checkSizes type field.type <;> rfl
  have hloop := @loop_eq_error_iff _ _ _ error
    (fun state => checkFields type state.1 state.2) (fieldStep type) fieldView
    (fun state => by rw [checkFields]) hcons (fun _ _ _ h => fieldStep_eq_ok h) fields
  simp only [fieldStep_eq_error_iff] at hloop
  have hvalid : ∀ before, checkFields type [] 0 before = .ok () ↔ FieldsValid before := by
    intro before
    simp [checkFields_eq_ok_iff, FieldsValid]
  simpa only [fieldView, fieldNames, List.filterMap_nil, List.reverse_nil, List.length_nil,
    hvalid] using hloop

/-! ## Bodies -/

/-- The check of constants fails with the first name that is repeated. -/
theorem checkConstants_eq_error_iff {type : String} {constants : List Constant}
    {error : ModelError} :
    checkConstants type [] constants = .error error ↔ ∃ before constant after,
      constants = before ++ constant :: after ∧ (before.map Constant.name).Nodup ∧
        constant.name ∈ before.map Constant.name ∧
        error = .duplicateAttribute type constant.name := by
  have hloop := @loop_eq_error_iff _ _ _ error (checkConstants type)
    (fun seen constant =>
      if constant.name ∈ seen then .error (.duplicateAttribute type constant.name)
      else .ok (constant.name :: seen))
    (fun earlier => (earlier.map Constant.name).reverse) (fun _ => rfl) ?_ ?_ constants
  · simp only [List.map_nil, List.reverse_nil, checkConstants_eq_ok_iff, List.not_mem_nil,
      not_false_eq_true, implies_true, and_true, List.mem_reverse] at hloop
    rw [hloop]
    refine exists_congr fun before => exists_congr fun constant => exists_congr fun after => ?_
    split_ifs with hseen <;> simp [hseen, eq_comm]
  · intro seen constant constants
    rw [checkConstants]
    split_ifs <;> rfl
  · intro earlier constant next h
    split_ifs at h
    obtain rfl := Except.ok.inj h
    simp

/-- The first offence of a body: of its fields, or, when these are in order, of its constants. -/
inductive Body.FirstOffence (type : String) (body : Body) : ModelError → Prop
  | field {before after : List Field} {field : Field} {error : ModelError}
      (fields : body.fields = before ++ field :: after) (earlier : FieldsValid before)
      (offends : field.Offends type before error) : body.FirstOffence type error
  | constant {before after : List Constant} {constant : Constant}
      (fields : FieldsValid body.fields)
      (constants : body.constants = before ++ constant :: after)
      (earlier : (before.map Constant.name).Nodup)
      (repeated : constant.name ∈ before.map Constant.name) :
      body.FirstOffence type (.duplicateAttribute type constant.name)

/-- The check of a body fails with its first offence. -/
theorem checkBody_eq_error_iff {type : String} {body : Body} {error : ModelError} :
    checkBody type body = .error error ↔ body.FirstOffence type error := by
  rw [checkBody, check_bind_eq_error_iff, checkFields_eq_error_iff, checkConstants_eq_error_iff,
    checkFields_eq_ok_iff]
  constructor
  · rintro (⟨before, field, after, hfields, hbefore, hoffends⟩ |
      ⟨⟨hvalid, hnodup, -⟩, before, constant, after, hconstants, hbefore, hrepeated, rfl⟩)
    · exact .field hfields hbefore hoffends
    · exact .constant ⟨hvalid, hnodup⟩ hconstants hbefore hrepeated
  · intro h
    cases h with
    | field hfields hbefore hoffends => exact .inl ⟨_, _, _, hfields, hbefore, hoffends⟩
    | constant hvalid hconstants hbefore hrepeated =>
      exact .inr ⟨⟨hvalid.1, hvalid.2, by simp⟩, _, _, _, hconstants, hbefore, hrepeated, rfl⟩

/-- The check of several bodies fails with the first offence of the first one that has any. -/
theorem checkBodies_eq_error_iff {type : String} {bodies : List Body} {error : ModelError} :
    checkBodies type bodies = .error error ↔ ∃ before body after,
      bodies = before ++ body :: after ∧ (∀ earlier ∈ before, earlier.Valid) ∧
        body.FirstOffence type error := by
  have hloop := @loop_eq_error_iff _ _ _ error (fun _ : Unit => checkBodies type)
    (fun _ body => checkBody type body) (fun _ => ()) (fun _ => rfl) (fun _ _ _ => rfl)
    (fun _ _ _ _ => rfl) bodies
  simpa only [checkBodies_eq_ok_iff, checkBody_eq_error_iff] using hloop

/-! ## Definitions and models -/

/-- The first offence of a definition on its own: its full name, or, when that is proper, the first
offence of the first body that has any. -/
inductive Definition.FirstOffence (definition : Definition) : ModelError → Prop
  | name (improper : isFullName definition.fullName = false) :
      definition.FirstOffence (.invalidName definition.fullName)
  | body {before after : List Body} {body : Body} {error : ModelError}
      (proper : isFullName definition.fullName = true)
      (bodies : definition.bodies = before ++ body :: after)
      (earlier : ∀ other ∈ before, other.Valid)
      (first : body.FirstOffence definition.fullName error) : definition.FirstOffence error

/-- The check of a definition fails with its first offence. -/
theorem Definition.validate_eq_error_iff {definition : Definition} {error : ModelError} :
    definition.validate = .error error ↔ definition.FirstOffence error := by
  rw [Definition.validate, check_bind_eq_error_iff, checkBodies_eq_error_iff]
  unfold checkFullName
  constructor
  · rintro (hname | ⟨hname, before, body, after, hbodies, hbefore, hfirst⟩)
    · split_ifs at hname with hproper
      obtain rfl := Except.error.inj hname
      exact .name (by simpa using hproper)
    · split_ifs at hname with hproper
      exact .body hproper hbodies hbefore hfirst
  · intro h
    cases h with
    | name himproper => exact .inl (by simp [himproper])
    | body hproper hbodies hbefore hfirst =>
      exact .inr ⟨by simp [hproper], _, _, _, hbodies, hbefore, hfirst⟩

/-- The first offence of a model: that of the earliest definition that is not in order, or the
repetition of a name by the earliest definition that repeats one and is in order itself. -/
inductive FirstOffence (definitions : List Definition) : ModelError → Prop
  | own {before after : List Definition} {definition : Definition} {error : ModelError}
      (here : definitions = before ++ definition :: after) (earlier : Valid before)
      (first : definition.FirstOffence error) : FirstOffence definitions error
  | repeated {before after : List Definition} {definition : Definition}
      (here : definitions = before ++ definition :: after) (earlier : Valid before)
      (valid : definition.Valid)
      (seen : definition.fullName ∈ before.map Definition.fullName) :
      FirstOffence definitions (.duplicateType definition.fullName)

/-- The check of one definition after others, and the full names seen after it. -/
def definitionStep (seen : List String) (definition : Definition) :
    Except ModelError (List String) := do
  definition.validate
  if definition.fullName ∈ seen then .error (.duplicateType definition.fullName)
  else .ok (definition.fullName :: seen)

/-- The check of a model fails with its first offence. -/
theorem validate_eq_error_iff {definitions : List Definition} {error : ModelError} :
    validate definitions = .error error ↔ FirstOffence definitions error := by
  have hloop := @loop_eq_error_iff _ _ _ error validateFrom definitionStep
    (fun earlier => (earlier.map Definition.fullName).reverse) (fun _ => rfl) ?_ ?_ definitions
  · have hvalid : ∀ before, validateFrom [] before = .ok () ↔ Valid before :=
      fun _ => validate_eq_ok_iff
    simp only [List.map_nil, List.reverse_nil, hvalid, definitionStep, check_bind_eq_error_iff,
      Definition.validate_eq_error_iff, Definition.validate_eq_ok_iff, List.mem_reverse] at hloop
    rw [validate, hloop]
    constructor
    · rintro ⟨before, definition, after, hhere, hbefore, hfirst | ⟨hown, hseen⟩⟩
      · exact .own hhere hbefore hfirst
      · split_ifs at hseen with hmem
        obtain rfl := Except.error.inj hseen
        exact .repeated hhere hbefore hown hmem
    · intro h
      cases h with
      | own hhere hbefore hfirst => exact ⟨_, _, _, hhere, hbefore, .inl hfirst⟩
      | repeated hhere hbefore hown hmem =>
        exact ⟨_, _, _, hhere, hbefore, .inr ⟨hown, by simp only [hmem, if_true]⟩⟩
  · intro seen definition definitions
    rw [validateFrom, definitionStep]
    cases definition.validate with
    | error error => rfl
    | ok _ => by_cases hmem : definition.fullName ∈ seen <;> simp [bind, Except.bind, hmem]
  · intro earlier definition next h
    rw [definitionStep, check_bind_eq_ok_iff] at h
    obtain ⟨-, h⟩ := h
    split_ifs at h
    obtain rfl := Except.ok.inj h
    simp

/-! ## Names, character by character -/

/-- A letter or underscore, then letters, digits and underscores, all of them ASCII. -/
def IsAsciiIdentifier (name : String) : Prop :=
  ∃ first rest, name.toList = first :: rest ∧ (first.isAlpha = true ∨ first = '_') ∧
    ∀ c ∈ rest, c.isAlphanum = true ∨ c = '_'

/-- Letters are what the standard library takes for them. -/
theorem isLetter_eq_isAlpha (c : Char) : Text.isLetter c = c.isAlpha := by
  delta Char.isAlpha Char.isUpper Char.isLower
  rw [Bool.eq_iff_iff]
  simp [Text.isLetter, Char.le_def, or_comm]

/-- Digits are what the standard library takes for them. -/
theorem isDigit_eq_isDigit (c : Char) : Text.isDigit c = c.isDigit := by
  rw [Bool.eq_iff_iff]
  simp [Text.isDigit, Char.isDigit, Char.le_def]

/-- The check of identifiers, character by character. -/
theorem isIdentifier_iff {name : String} : isIdentifier name = true ↔ IsAsciiIdentifier name := by
  unfold isIdentifier IsAsciiIdentifier
  cases name.toList with
  | nil => simp [Text.isIdentifier]
  | cons first rest =>
    simp [Text.isIdentifier, Text.isNameStart, Text.isNamePart, isLetter_eq_isAlpha,
      isDigit_eq_isDigit, Char.isAlphanum]

/-- The check of full names, part by part. -/
theorem isFullName_iff {name : String} :
    isFullName name = true ↔ ∀ part ∈ nameComponents name, IsAsciiIdentifier part := by
  simp [isFullName, nameComponents, ← isIdentifier_iff, isIdentifier]

/-- The check of field names, character by character. -/
theorem isFieldName_iff {name : String} : isFieldName name = true ↔
    IsAsciiIdentifier name ∧ ¬ "_void_".toList <+: name.toList := by
  rw [← isIdentifier_iff, isFieldName, Bool.and_eq_true, Bool.not_eq_true', ← Bool.not_eq_true,
    Text.startsWith_iff]
  rfl

/-! ## The check of models -/

/-- A valid model, with everything that the check looks at spelled out. -/
theorem valid_iff {definitions : List Definition} : Valid definitions ↔
    (∀ definition ∈ definitions, ∀ part ∈ nameComponents definition.fullName,
      IsAsciiIdentifier part) ∧
    (definitions.map Definition.fullName).Nodup ∧
    ∀ definition ∈ definitions, ∀ body ∈ definition.bodies,
      (∀ field ∈ body.fields,
        (field.name = none ↔ field.type.isVoid = true) ∧
        (∀ name, field.name = some name →
          IsAsciiIdentifier name ∧ ¬ "_void_".toList <+: name.toList) ∧
        ∀ sizing ∈ field.type.sizings, 0 < sizing.capacity) ∧
      (body.fields.filterMap Field.name).Nodup ∧ (body.constants.map Constant.name).Nodup := by
  simp only [← isFieldName_iff, ← isFullName_iff, ← Field.valid_iff]
  constructor
  · intro h
    refine ⟨fun definition hmem => (h.each definition hmem).name, h.distinct, ?_⟩
    intro definition hmem body hbody
    have hvalid := (h.each definition hmem).bodies body hbody
    exact ⟨hvalid.fields, hvalid.distinctFields, hvalid.distinctConstants⟩
  · rintro ⟨hnames, hdistinct, hbodies⟩
    refine ⟨fun definition hmem => ⟨hnames definition hmem, fun body hbody => ?_⟩, hdistinct⟩
    obtain ⟨hfields, hfieldNames, hconstants⟩ := hbodies definition hmem body hbody
    exact ⟨hfields, hfieldNames, hconstants⟩

/-- A model is valid in every order. -/
theorem Valid.perm {definitions others : List Definition} (h : Valid definitions)
    (hperm : definitions.Perm others) : Valid others :=
  ⟨fun definition hmem => h.each definition (hperm.mem_iff.mpr hmem),
    (hperm.map Definition.fullName).nodup_iff.mp h.distinct⟩

/-- **The check of a model is exact.** It accepts a model if and only if the parts of all full names
are identifiers, full names are distinct, and in every body padding is what has no name, field names
are identifiers that are not kept for padding, no array is empty, and neither fields nor constants
share names. It rejects a model with an error if and only if that error is the first offence: of
the earliest definition that is not in order or repeats an earlier name, and there of the full name,
then body by body of the fields and then of the constants. Acceptance does not depend on the order
of the definitions. -/
theorem validate_outcome (definitions : List Definition) :
    (validate definitions = .ok () ↔
      (∀ definition ∈ definitions, ∀ part ∈ nameComponents definition.fullName,
        IsAsciiIdentifier part) ∧
      (definitions.map Definition.fullName).Nodup ∧
      ∀ definition ∈ definitions, ∀ body ∈ definition.bodies,
        (∀ field ∈ body.fields,
          (field.name = none ↔ field.type.isVoid = true) ∧
          (∀ name, field.name = some name →
            IsAsciiIdentifier name ∧ ¬ "_void_".toList <+: name.toList) ∧
          ∀ sizing ∈ field.type.sizings, 0 < sizing.capacity) ∧
        (body.fields.filterMap Field.name).Nodup ∧ (body.constants.map Constant.name).Nodup) ∧
    (∀ error, validate definitions = .error error ↔ FirstOffence definitions error) ∧
    ∀ others, definitions.Perm others →
      (validate definitions = .ok () ↔ validate others = .ok ()) := by
  refine ⟨?_, fun error => validate_eq_error_iff, fun others hperm => ?_⟩
  · rw [validate_eq_ok_iff, valid_iff]
  · rw [validate_eq_ok_iff, validate_eq_ok_iff]
    exact ⟨fun h => h.perm hperm, fun h => h.perm hperm.symm⟩

/-- A service whose response has two faulty fields before a repeated constant. -/
def untidyService : Definition :=
  .service "a.Query" none (.empty false)
    (.mk
      [.mk (some "x") (.primitive ⟨.unsigned, 8, .saturated⟩),
        .mk (some "x") (.array (.primitive ⟨.boolean, 1, .saturated⟩) (.static 0)),
        .mk none (.primitive ⟨.boolean, 1, .saturated⟩)]
      [⟨"K", ⟨.unsigned, 8, .saturated⟩, "1"⟩, ⟨"K", ⟨.unsigned, 8, .saturated⟩, "2"⟩] false)

/-- The repeated field name is the first offence of the untidy service: its empty array, the field
without a name, the repeated constant, and the improper name of a later definition come after it. -/
theorem validate_outcome_untidyService :
    FirstOffence [.reference "a.Point", untidyService, .reference "no name"]
        (.duplicateAttribute "a.Query" "x") ∧
      (validate [.reference "a.Point", .reference "a.Query"] = .ok () ↔
        validate [.reference "a.Query", .reference "a.Point"] = .ok ()) := by
  refine ⟨((validate_outcome _).2.1 _).mp (by decide +kernel), ?_⟩
  exact (validate_outcome _).2.2 _ (List.Perm.swap _ _ _)

end DsdlHeaders

import DsdlHeaders.Header.Context
import DsdlHeaders.Proofs.Document.Outline
import DsdlHeaders.Proofs.Model.Validation

/-!
# When a context can be built

Reader, validity check and context builder agree on what a legal model is: of a model that was read
and found valid, only a literal can keep the context of a definition from being built.

* **Depth**: a type has no type expression exactly when it nests `maxArrayDepth` arrays or more
  (`typeExpr?_eq_none_iff`), and the reader returns no such type (`arrayDepth_lt_of_parse`). The
  reader counts levels down along the elements and the type expression counts them down along the
  type, so both stop at the same depth.
* **Fields**: fields that are valid and not too deep always have contexts (`exists_fieldContexts`).
* **Constants**: constants are looked at in order, and the first whose literal does not fit is
  reported (`mapM_context_eq_error_iff`).

Main statement: `context_outcome_of_parse`.
-/

namespace DsdlHeaders

/-! ## Constants in order -/

/-- All constants of a definition in declaration order, those of a request before those of a
response. -/
def Definition.constants (definition : Definition) : List Constant :=
  definition.bodies.flatMap Body.constants

/-- A constant whose literal fits its kind. -/
def Constant.Spelled (constant : Constant) : Prop :=
  ∃ spelling, constant.spelling = .ok spelling

/-- The complaint about the first constant whose literal does not fit its kind. -/
def IsFirstOffence (constants : List Constant) (error : ContextError) : Prop :=
  ∃ before constant after expected, constants = before ++ constant :: after ∧
    (∀ earlier ∈ before, earlier.Spelled) ∧ constant.spelling = .error expected ∧
      error = .invalidLiteral constant.name constant.literal expected

/-- A constant with a fitting literal has a context. -/
theorem Constant.exists_context_iff {constant : Constant} :
    (∃ found, constant.context = .ok found) ↔ constant.Spelled := by
  unfold Constant.context Constant.Spelled
  cases constant.spelling <;> simp

/-- A constant without a context has a literal that does not fit. -/
theorem Constant.context_eq_error_iff {constant : Constant} {error : ContextError} :
    constant.context = .error error ↔ ∃ expected, constant.spelling = .error expected ∧
      error = .invalidLiteral constant.name constant.literal expected := by
  unfold Constant.context
  cases constant.spelling with
  | error expected => simp [eq_comm]
  | ok spelling => simp

/-- Constants with fitting literals have contexts. -/
theorem exists_mapM_context_iff {constants : List Constant} :
    (∃ found, constants.mapM Constant.context = .ok found) ↔
      ∀ constant ∈ constants, constant.Spelled := by
  induction constants with
  | nil => exact ⟨fun _ => by simp, fun _ => ⟨[], rfl⟩⟩
  | cons constant constants ih =>
    rw [List.mapM_cons, List.forall_mem_cons, ← ih, ← Constant.exists_context_iff]
    cases constant.context with
    | error error =>
      constructor
      · rintro ⟨_, h⟩
        exact absurd h (by simp [bind, Except.bind])
      · rintro ⟨⟨_, h⟩, -⟩
        exact absurd h (by simp)
    | ok first =>
      cases constants.mapM Constant.context with
      | error error =>
        constructor
        · rintro ⟨_, h⟩
          exact absurd h (by simp [bind, Except.bind])
        · rintro ⟨-, _, h⟩
          exact absurd h (by simp)
      | ok others => exact ⟨fun _ => ⟨⟨first, rfl⟩, others, rfl⟩, fun _ => ⟨first :: others, rfl⟩⟩

/-- The first constant whose literal does not fit is reported. -/
theorem mapM_context_eq_error_iff {constants : List Constant} {error : ContextError} :
    constants.mapM Constant.context = .error error ↔ IsFirstOffence constants error := by
  induction constants with
  | nil =>
    constructor
    · intro h
      exact absurd h (by simp [pure, Except.pure])
    · rintro ⟨before, constant, after, expected, h, -⟩
      exact absurd h (by simp)
  | cons constant constants ih =>
    rw [List.mapM_cons]
    cases hcontext : constant.context with
    | error first =>
      obtain ⟨expected, hspelling, rfl⟩ := Constant.context_eq_error_iff.mp hcontext
      constructor
      · intro h
        obtain rfl := Except.error.inj h
        exact ⟨[], constant, constants, expected, rfl, by simp, hspelling, rfl⟩
      · rintro ⟨before, other, after, kind, heq, hbefore, hother, rfl⟩
        cases before with
        | nil =>
          obtain ⟨rfl, -⟩ := List.cons.inj heq
          rw [hspelling] at hother
          rw [Except.error.inj hother]
          rfl
        | cons earlier before =>
          obtain ⟨rfl, -⟩ := List.cons.inj heq
          obtain ⟨spelling, hok⟩ := hbefore constant List.mem_cons_self
          exact absurd (hok.symm.trans hspelling) (by simp)
    | ok first =>
      have hspelled : constant.Spelled := Constant.exists_context_iff.mp ⟨first, hcontext⟩
      have hrest : (Except.ok first >>= fun found => constants.mapM Constant.context >>=
          fun others => pure (found :: others)) = .error error ↔
            constants.mapM Constant.context = .error error := by
        cases constants.mapM Constant.context <;> simp [bind, Except.bind, pure, Except.pure]
      rw [hrest, ih]
      constructor
      · rintro ⟨before, other, after, kind, rfl, hbefore, hother, rfl⟩
        exact ⟨constant :: before, other, after, kind, rfl,
          List.forall_mem_cons.mpr ⟨hspelled, hbefore⟩, hother, rfl⟩
      · rintro ⟨before, other, after, kind, heq, hbefore, hother, rfl⟩
        cases before with
        | nil =>
          obtain ⟨rfl, -⟩ := List.cons.inj heq
          obtain ⟨spelling, hok⟩ := hspelled
          exact absurd (hok.symm.trans hother) (by simp)
        | cons earlier before =>
          obtain ⟨rfl, rfl⟩ := List.cons.inj heq
          exact ⟨before, other, after, kind, rfl, (List.forall_mem_cons.mp hbefore).2, hother, rfl⟩

/-! ## Depth -/

/-- A type has no expression exactly when its arrays use up all levels. -/
theorem DataType.typeExprWithin_eq_none_iff {levels : Nat} {type : DataType} :
    type.typeExprWithin levels = none ↔ levels ≤ type.arrayDepth := by
  induction levels generalizing type with
  | zero => simp [typeExprWithin]
  | succ levels ih =>
    cases type with
    | primitive scalar => simp [typeExprWithin, arrayDepth]
    | void bits => simp [typeExprWithin, arrayDepth]
    | compound target => simp [typeExprWithin, arrayDepth]
    | array element sizing =>
      rw [typeExprWithin, Option.map_eq_none_iff, ih, arrayDepth]
      omega

/-- The types without an expression are those with too many arrays. -/
theorem DataType.typeExpr?_eq_none_iff {type : DataType} :
    type.typeExpr? = none ↔ 32 ≤ type.arrayDepth :=
  typeExprWithin_eq_none_iff

namespace Document

open Markup

/-- The reader returns no type that is nested too deep. -/
theorem arrayDepth_lt_of_parse {document : String} {types : List Definition}
    (h : parse document = .ok types) :
    ∀ definition ∈ types, ∀ body ∈ definition.bodies, ∀ field ∈ body.fields,
      field.type.arrayDepth < maxArrayDepth := by
  intro definition hdefinition
  obtain ⟨position, hposition⟩ := List.mem_iff_getElem?.mp hdefinition
  obtain ⟨element, hdenotes⟩ := exists_denotesDefinition_of_parse h hposition
  refine hdenotes.forall_fields fun element field hfield => ?_
  cases hfield with
  | field _ _ hdepth => exact hdepth

end Document

/-! ## Fields -/

/-- Valid fields that are not nested too deep have contexts. -/
theorem exists_fieldContexts {fields : List Field} (hvalid : ∀ field ∈ fields, field.Valid)
    (hdepth : ∀ field ∈ fields, field.type.arrayDepth < maxArrayDepth) (type : String)
    (index paddings : Nat) : ∃ found, fieldContexts type index paddings fields = .ok found := by
  induction fields generalizing index paddings with
  | nil => exact ⟨[], rfl⟩
  | cons field fields ih =>
    obtain ⟨hfirst, hothers⟩ := List.forall_mem_cons.mp hvalid
    obtain ⟨hshallow, hrest⟩ := List.forall_mem_cons.mp hdepth
    have hsome : field.type.typeExpr? ≠ none := by
      rw [Ne, DataType.typeExpr?_eq_none_iff]
      exact Nat.not_le.mpr hshallow
    obtain ⟨typeExpr, htypeExpr⟩ := Option.ne_none_iff_exists'.mp hsome
    unfold fieldContexts
    rw [htypeExpr]
    by_cases hvoid : field.type.isVoid = true
    · obtain ⟨rest, hcontexts⟩ := ih hothers hrest (index + 1) (paddings + 1)
      dsimp only
      rw [if_pos hvoid, hcontexts]
      exact ⟨_, rfl⟩
    · have hnamed : field.name ≠ none := fun hnone => hvoid (hfirst.named.mp hnone)
      obtain ⟨name, hname⟩ := Option.ne_none_iff_exists'.mp hnamed
      obtain ⟨rest, hcontexts⟩ := ih hothers hrest (index + 1) paddings
      dsimp only
      rw [if_neg hvoid, hname, hcontexts]
      exact ⟨_, rfl⟩

/-- The constants alone decide whether a body has a context. -/
theorem Body.exists_context_eq_map {found : Body} (hvalid : found.Valid)
    (hdepth : ∀ field ∈ found.fields, field.type.arrayDepth < maxArrayDepth) (type : String) :
    ∃ build : List ConstantContext → BodyContext,
      found.context type = (found.constants.mapM Constant.context).map build := by
  obtain ⟨fields, hfields⟩ := exists_fieldContexts hvalid.fields hdepth type 0 0
  refine ⟨fun constants => ⟨fields, constants, found.isUnion && !fields.isEmpty⟩, ?_⟩
  rw [Body.context, hfields]
  cases found.constants.mapM Constant.context <;> rfl

/-! ## Definitions -/

/-- The constants alone decide whether a definition has a context, and which error it has if not. -/
theorem Definition.context_outcome {definition : Definition} (hvalid : definition.Valid)
    (hdepth : ∀ body ∈ definition.bodies, ∀ field ∈ body.fields,
      field.type.arrayDepth < maxArrayDepth) (extension : String) :
    (definition.context extension).map (fun _ => ()) =
      (definition.constants.mapM Constant.context).map (fun _ => ()) := by
  cases definition with
  | message fullName portId found =>
    obtain ⟨build, hbuild⟩ := Body.exists_context_eq_map (hvalid.bodies found List.mem_cons_self)
      (hdepth found List.mem_cons_self) fullName
    have hconstants : (Definition.message fullName portId found).constants = found.constants :=
      List.append_nil found.constants
    rw [Definition.context, hbuild, hconstants]
    cases found.constants.mapM Constant.context <;> rfl
  | service fullName portId request response =>
    have hresponse : response ∈ [request, response] := List.mem_cons_of_mem _ List.mem_cons_self
    obtain ⟨buildRequest, hbuildRequest⟩ :=
      Body.exists_context_eq_map (hvalid.bodies request List.mem_cons_self)
        (hdepth request List.mem_cons_self) fullName
    obtain ⟨buildResponse, hbuildResponse⟩ :=
      Body.exists_context_eq_map (hvalid.bodies response hresponse) (hdepth response hresponse)
        fullName
    have hconstants : (Definition.service fullName portId request response).constants =
        request.constants ++ response.constants := by
      simp [Definition.constants, Definition.bodies]
    rw [Definition.context, hbuildRequest, hbuildResponse, hconstants, List.mapM_append]
    cases request.constants.mapM Constant.context with
    | error error => rfl
    | ok first => cases response.constants.mapM Constant.context <;> rfl

/-- Outcomes that agree up to their results fail with the same errors. -/
theorem eq_error_iff_of_map_eq {α β ε : Type} {x : Except ε α} {y : Except ε β}
    (h : x.map (fun _ => ()) = y.map fun _ => ()) (error : ε) :
    x = .error error ↔ y = .error error := by
  cases x <;> cases y <;> simp_all [Except.map]

/-- Outcomes that agree up to their results succeed together. -/
theorem exists_eq_ok_iff_of_map_eq {α β ε : Type} {x : Except ε α} {y : Except ε β}
    (h : x.map (fun _ => ()) = y.map fun _ => ()) : (∃ a, x = .ok a) ↔ ∃ b, y = .ok b := by
  cases x <;> cases y <;> simp_all [Except.map]

/-- Exactly the types with 32 or more nested arrays have no type expression, and the reader returns
none of them. If what was read is valid, the context of each definition can be built exactly when
the literal of each of its constants fits, and otherwise the first that does not is reported. -/
theorem context_outcome_of_parse :
    (∀ type : DataType, type.typeExpr? = none ↔ 32 ≤ type.arrayDepth) ∧
      ∀ document types, Document.parse document = .ok types →
        (∀ definition ∈ types, ∀ body ∈ definition.bodies, ∀ field ∈ body.fields,
          ¬ 32 ≤ field.type.arrayDepth) ∧
        (validate types = .ok () → ∀ definition ∈ types, ∀ extension,
          ((∃ context, definition.context extension = .ok context) ↔
            ∀ constant ∈ definition.constants, constant.Spelled) ∧
          ∀ error, definition.context extension = .error error ↔
            IsFirstOffence definition.constants error) := by
  refine ⟨fun type => DataType.typeExpr?_eq_none_iff, fun document types hparse => ⟨?_, ?_⟩⟩
  · intro definition hdefinition body hbody field hfield
    exact Nat.not_le.mpr
      (Document.arrayDepth_lt_of_parse hparse definition hdefinition body hbody field hfield)
  · intro hvalid definition hdefinition extension
    have houtcome := Definition.context_outcome
      ((validate_eq_ok_iff.mp hvalid).each definition hdefinition)
      (Document.arrayDepth_lt_of_parse hparse definition hdefinition) extension
    refine ⟨?_, fun error => ?_⟩
    · rw [exists_eq_ok_iff_of_map_eq houtcome, exists_mapM_context_iff]
    · rw [eq_error_iff_of_map_eq houtcome, mapM_context_eq_error_iff]

/-- A service with an unusable literal in each section, the response first. -/
def twoOffences : String :=
  "<dsdl><service name=\"a.S\">" ++
    "<response><constant name=\"C\" value=\"?\"><float bits=\"32\"/></constant></response>" ++
    "<request><constant name=\"A\" value=\"1\"><uint bits=\"8\"/></constant>" ++
    "<constant name=\"B\" value=\"1.5\"><int bits=\"8\"/></constant></request></service></dsdl>"

/-- The document is read and valid, and the complaint is about the second constant of the
request. -/
theorem context_outcome_twoOffences :
    ∃ types, Document.parse twoOffences = .ok types ∧ validate types = .ok () ∧
      ∃ definition ∈ types,
        IsFirstOffence definition.constants (.invalidLiteral "B" "1.5" .integer) := by
  have hcheck : ((Document.parse twoOffences).toOption.any fun types =>
      decide (validate types = .ok ()) && types.any fun definition =>
        decide ((definition.context "hpp").map (fun _ => ()) =
          .error (.invalidLiteral "B" "1.5" .integer))) = true := by
    decide +kernel
  cases hparse : Document.parse twoOffences with
  | error error =>
    rw [hparse] at hcheck
    exact absurd hcheck (by simp [Except.toOption])
  | ok types =>
    rw [hparse] at hcheck
    obtain ⟨hvalid, hany⟩ := Bool.and_eq_true_iff.mp hcheck
    have hvalid := of_decide_eq_true hvalid
    obtain ⟨definition, hdefinition, herror⟩ := List.any_eq_true.mp hany
    have herror := of_decide_eq_true herror
    have hoffence := ((context_outcome_of_parse.2 twoOffences types hparse).2 hvalid definition
      hdefinition "hpp").2 (.invalidLiteral "B" "1.5" .integer)
    refine ⟨types, rfl, hvalid, definition, hdefinition, hoffence.mp ?_⟩
    cases hcontext : definition.context "hpp" with
    | error error =>
      rw [hcontext] at herror
      exact congrArg Except.error (Except.error.inj herror)
    | ok context =>
      rw [hcontext] at herror
      exact absurd herror (by simp [Except.map])

end DsdlHeaders

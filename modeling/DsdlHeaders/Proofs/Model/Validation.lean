import Mathlib.Data.List.Nodup
import DsdlHeaders.Proofs.Text.Parts

/-!
# The check accepts exactly the valid models

`validate_eq_ok_iff`: the check of a model succeeds if and only if the model is `Valid`. The proof
goes through the check function by function. A check that carries the names seen so far accepts
when the names that follow are distinct and none of them was seen
(`checkFields_eq_ok_iff`, `checkConstants_eq_ok_iff`, `validateFrom_eq_ok_iff`).
-/

namespace DsdlHeaders

/-- A bind succeeds exactly when both parts do. -/
theorem bind_eq_ok_iff {α β ε : Type} {x : Except ε α} {f : α → Except ε β} {b : β} :
    (x >>= f) = .ok b ↔ ∃ a, x = .ok a ∧ f a = .ok b := by
  cases x with
  | error e => simp [bind, Except.bind]
  | ok a => simp [bind, Except.bind]

/-- Two checks succeed one after the other exactly when both do. -/
theorem check_bind_eq_ok_iff {β ε : Type} {x : Except ε Unit} {f : Unit → Except ε β} {b : β} :
    (x >>= f) = .ok b ↔ x = .ok () ∧ f () = .ok b := by
  rw [bind_eq_ok_iff]
  constructor
  · rintro ⟨⟨⟩, hx, hf⟩
    exact ⟨hx, hf⟩
  · rintro ⟨hx, hf⟩
    exact ⟨(), hx, hf⟩

/-! ## Fields -/

/-- The names that fields have. -/
def fieldNames (fields : List Field) : List String :=
  fields.filterMap Field.name

/-- What the check of a field's name accepts, and the names seen after it. -/
theorem checkFieldName_eq_ok_iff {type : String} {seen after : List String} {index : Nat}
    {field : Field} : checkFieldName type seen index field = .ok after ↔
      (field.name = none ↔ field.type.isVoid = true) ∧
      (∀ name, field.name = some name → isFieldName name = true ∧ name ∉ seen) ∧
      field.name.toList ++ seen = after := by
  unfold checkFieldName
  rcases hname : field.name with _ | name <;> rcases hvoid : field.type.isVoid with _ | _
  · simp
  · simp
  · by_cases hfield : isFieldName name = true
    · by_cases hseen : name ∈ seen
      · simp [hfield, hseen]
      · simp [hfield, hseen]
    · simp [hfield]
  · simp

/-- What the check of array sizes accepts. -/
theorem checkSizes_eq_ok_iff {type : String} {fieldType : DataType} :
    checkSizes type fieldType = .ok () ↔ ∀ sizing ∈ fieldType.sizings, 0 < sizing.capacity := by
  unfold checkSizes
  split_ifs with h
  · simpa using h
  · simpa using h

/-- A field is valid when its name, its spelling and its sizes are. -/
theorem Field.valid_iff {field : Field} : field.Valid ↔
    (field.name = none ↔ field.type.isVoid = true) ∧
    (∀ name, field.name = some name → isFieldName name = true) ∧
    ∀ sizing ∈ field.type.sizings, 0 < sizing.capacity :=
  ⟨fun h => ⟨h.named, h.spelled, h.roomy⟩, fun h => ⟨h.1, h.2.1, h.2.2⟩⟩

/-- The check of fields goes through the first field and then through the others. -/
theorem checkFields_cons_eq_ok_iff {type : String} {seen : List String} {index : Nat}
    {field : Field} {fields : List Field} :
    checkFields type seen index (field :: fields) = .ok () ↔ ∃ after,
      checkFieldName type seen index field = .ok after ∧ checkSizes type field.type = .ok () ∧
        checkFields type after (index + 1) fields = .ok () := by
  rw [checkFields, bind_eq_ok_iff]
  simp only [check_bind_eq_ok_iff]

/-- What the check of fields accepts, after the names `seen`. -/
theorem checkFields_eq_ok_iff {type : String} {seen : List String} {index : Nat}
    {fields : List Field} : checkFields type seen index fields = .ok () ↔
      (∀ field ∈ fields, field.Valid) ∧ (fieldNames fields).Nodup ∧
      ∀ name ∈ fieldNames fields, name ∉ seen := by
  induction fields generalizing seen index with
  | nil => simp [checkFields, fieldNames]
  | cons field fields ih =>
    simp only [checkFields_cons_eq_ok_iff, checkFieldName_eq_ok_iff, checkSizes_eq_ok_iff, ih,
      List.forall_mem_cons, Field.valid_iff]
    rcases hname : field.name with _ | name
    · have hnames : fieldNames (field :: fields) = fieldNames fields := by
        simp [fieldNames, hname]
      rw [hnames]
      constructor
      · rintro ⟨after, ⟨hvoid, -, rfl⟩, hsizes, hrest⟩
        exact ⟨⟨⟨hvoid, by simp, hsizes⟩, hrest.1⟩, hrest.2⟩
      · rintro ⟨⟨⟨hvoid, -, hsizes⟩, hvalid⟩, hnodup, hseen⟩
        exact ⟨seen, ⟨hvoid, by simp, by simp⟩, hsizes, hvalid, hnodup, hseen⟩
    · have hnames : fieldNames (field :: fields) = name :: fieldNames fields := by
        simp [fieldNames, hname]
      rw [hnames, List.nodup_cons, List.forall_mem_cons]
      constructor
      · rintro ⟨after, ⟨hvoid, hspelled, rfl⟩, hsizes, hvalid, hnodup, hseen⟩
        have fresh : ∀ other ∈ fieldNames fields, other ≠ name ∧ other ∉ seen := by
          simpa [not_or] using hseen
        refine ⟨⟨⟨hvoid, fun n hn => (hspelled n hn).1, hsizes⟩, hvalid⟩,
          ⟨fun hmem => (fresh name hmem).1 rfl, hnodup⟩, (hspelled name rfl).2,
          fun other hother => (fresh other hother).2⟩
      · rintro ⟨⟨⟨hvoid, hspelled, hsizes⟩, hvalid⟩, ⟨hname', hnodup⟩, hseen, hrest⟩
        refine ⟨name :: seen, ⟨hvoid, ?_, by simp⟩, hsizes, hvalid, hnodup, ?_⟩
        · rintro n ⟨⟩
          exact ⟨hspelled name rfl, hseen⟩
        · intro other hother hmem
          rcases List.mem_cons.mp hmem with rfl | hmem
          · exact hname' hother
          · exact hrest other hother hmem

/-! ## Bodies -/

/-- What the check of constants accepts, after the names `seen`. -/
theorem checkConstants_eq_ok_iff {type : String} {seen : List String}
    {constants : List Constant} : checkConstants type seen constants = .ok () ↔
      (constants.map Constant.name).Nodup ∧
      ∀ name ∈ constants.map Constant.name, name ∉ seen := by
  induction constants generalizing seen with
  | nil => simp [checkConstants]
  | cons constant constants ih =>
    simp only [checkConstants, List.map_cons, List.nodup_cons, List.forall_mem_cons]
    split_ifs with hseen
    · simp [hseen]
    · rw [ih]
      constructor
      · rintro ⟨hnodup, hrest⟩
        have fresh : ∀ name ∈ constants.map Constant.name,
            name ≠ constant.name ∧ name ∉ seen := by
          intro name hname
          simpa [not_or] using hrest name hname
        exact ⟨⟨fun hmem => (fresh _ hmem).1 rfl, hnodup⟩, hseen,
          fun name hname => (fresh name hname).2⟩
      · rintro ⟨⟨hfresh, hnodup⟩, -, hrest⟩
        refine ⟨hnodup, fun name hname hmem => ?_⟩
        rcases List.mem_cons.mp hmem with rfl | hmem
        · exact hfresh hname
        · exact hrest name hname hmem

/-- What the check of a body accepts. -/
theorem checkBody_eq_ok_iff {type : String} {body : Body} :
    checkBody type body = .ok () ↔ body.Valid := by
  simp only [checkBody, check_bind_eq_ok_iff, checkFields_eq_ok_iff, checkConstants_eq_ok_iff]
  constructor
  · rintro ⟨⟨hfields, hnames, -⟩, hconstants, -⟩
    exact ⟨hfields, hnames, hconstants⟩
  · intro h
    exact ⟨⟨h.fields, h.distinctFields, by simp⟩, h.distinctConstants, by simp⟩

/-- What the check of several bodies accepts. -/
theorem checkBodies_eq_ok_iff {type : String} {bodies : List Body} :
    checkBodies type bodies = .ok () ↔ ∀ body ∈ bodies, body.Valid := by
  induction bodies with
  | nil => simp [checkBodies]
  | cons body bodies ih =>
    simp [checkBodies, check_bind_eq_ok_iff, checkBody_eq_ok_iff, ih]

/-! ## Definitions and models -/

/-- What the check of a definition accepts. -/
theorem Definition.validate_eq_ok_iff {definition : Definition} :
    definition.validate = .ok () ↔ definition.Valid := by
  have hname : checkFullName definition.fullName = .ok () ↔
      isFullName definition.fullName = true := by
    unfold checkFullName
    split_ifs with h <;> simp [h]
  simp only [Definition.validate, check_bind_eq_ok_iff, hname, checkBodies_eq_ok_iff]
  constructor
  · rintro ⟨hname, hbodies⟩
    exact ⟨hname, hbodies⟩
  · intro h
    exact ⟨h.name, h.bodies⟩

/-- What the check of definitions accepts, after the full names `seen`. -/
theorem validateFrom_eq_ok_iff {seen : List String} {definitions : List Definition} :
    validateFrom seen definitions = .ok () ↔
      (∀ definition ∈ definitions, definition.Valid) ∧
      (definitions.map Definition.fullName).Nodup ∧
      ∀ name ∈ definitions.map Definition.fullName, name ∉ seen := by
  induction definitions generalizing seen with
  | nil => simp [validateFrom]
  | cons definition definitions ih =>
    simp only [validateFrom, check_bind_eq_ok_iff, Definition.validate_eq_ok_iff, List.map_cons,
      List.nodup_cons, List.forall_mem_cons]
    by_cases hseen : definition.fullName ∈ seen
    · simp [hseen]
    · simp only [hseen, if_false, ih]
      constructor
      · rintro ⟨hvalid, hrest, hnodup, hnames⟩
        have fresh : ∀ name ∈ definitions.map Definition.fullName,
            name ≠ definition.fullName ∧ name ∉ seen := by
          intro name hname
          simpa [not_or] using hnames name hname
        exact ⟨⟨hvalid, hrest⟩, ⟨fun hmem => (fresh _ hmem).1 rfl, hnodup⟩, not_false,
          fun name hname => (fresh name hname).2⟩
      · rintro ⟨⟨hvalid, hrest⟩, ⟨hfresh, hnodup⟩, -, hnames⟩
        refine ⟨hvalid, hrest, hnodup, fun name hname hmem => ?_⟩
        rcases List.mem_cons.mp hmem with rfl | hmem
        · exact hfresh hname
        · exact hnames name hname hmem

/-- The check of a model succeeds exactly on the valid models. -/
theorem validate_eq_ok_iff {definitions : List Definition} :
    validate definitions = .ok () ↔ Valid definitions := by
  rw [validate, validateFrom_eq_ok_iff]
  constructor
  · rintro ⟨hvalid, hnodup, -⟩
    exact ⟨hvalid, hnodup⟩
  · intro h
    exact ⟨h.each, h.distinct, by simp⟩

end DsdlHeaders

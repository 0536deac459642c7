import DsdlHeaders.Proofs.Header.Names
import DsdlHeaders.Proofs.Text.Marks

/-!
# Names of members

The entries of a context describe the declared fields one by one, and the names that they have can
be told apart.

* **Positions**: the entry at a position is that of the field declared there. A named field keeps
  its name, and padding is named by its number among the padding of its body
  (`getElem?_declaredMembers`). Each body counts its own padding.
* **Distinct names**: a name is either that of a field, and then it does not start like a padding
  name, or that of padding with a number not used before (`mem_declaredMembers`). So no two members
  of a valid body share a name (`nodup_declaredMembers`).

Main statement: `members_of_validate`.
-/

namespace DsdlHeaders

/-! ## Entries -/

/-- The entry of a field before which some padding was declared. -/
structure FieldContext.Describes (entry : FieldContext) (field : Field) (paddings : Nat) :
    Prop where
  typed : field.type.typeExpr? = some entry.typeExpr
  named : field.type.isVoid = false → field.name = some entry.name ∧ entry.isVoid = false
  padding : field.type.isVoid = true → entry.name = "_void_" ++ toString paddings ∧
    entry.isVoid = true

/-- How much padding is declared before a position. -/
def paddingsBefore (fields : List Field) (position : Nat) : Nat :=
  (fields.take position).countP (·.type.isVoid)

/-- The entries of a body: one for each declared field, in order, with names that differ. -/
structure BodyContext.ListsFields (found : BodyContext) (body : Body) : Prop where
  length : found.fields.length = body.fields.length
  entries : ∀ (position : Nat) (field : Field) (entry : FieldContext),
    body.fields[position]? = some field → found.fields[position]? = some entry →
      entry.Describes field (paddingsBefore body.fields position)
  distinct : (found.fields.map FieldContext.name).Nodup

/-! ## Positions -/

/-- The member at a position is that of the field declared there. -/
theorem getElem?_declaredMembers (paddings : Nat) (fields : List Field) (position : Nat) :
    (declaredMembers paddings fields)[position]? = fields[position]?.map fun field =>
      if field.type.isVoid then
        ⟨paddingStem ++ toString (paddings + paddingsBefore fields position), true⟩
      else ⟨field.name.getD "", false⟩ := by
  induction fields generalizing paddings position with
  | nil => rfl
  | cons field fields ih =>
    cases position with
    | zero =>
      unfold declaredMembers
      split <;> simp [paddingsBefore, *]
    | succ position =>
      have hbefore : paddingsBefore (field :: fields) (position + 1) =
          paddingsBefore fields position + if field.type.isVoid then 1 else 0 := by
        simp [paddingsBefore, List.countP_cons]
      unfold declaredMembers
      split_ifs with hvoid
      · rw [List.getElem?_cons_succ, ih, List.getElem?_cons_succ, hbefore, if_pos hvoid,
          Nat.add_comm (paddingsBefore fields position), Nat.add_assoc]
      · rw [List.getElem?_cons_succ, ih, List.getElem?_cons_succ, hbefore, if_neg hvoid,
          Nat.add_zero]

/-- Items at one position of related lists are related. -/
theorem rel_of_getElem?_eq_some {α β : Type} {R : α → β → Prop} {xs : List α} {ys : List β}
    (h : List.Forall₂ R xs ys) {position : Nat} {x : α} {y : β} (hx : xs[position]? = some x)
    (hy : ys[position]? = some y) : R x y := by
  obtain ⟨hltx, rfl⟩ := List.getElem?_eq_some_iff.mp hx
  obtain ⟨hlty, rfl⟩ := List.getElem?_eq_some_iff.mp hy
  exact h.get hltx hlty

/-- The entries of a context describe the fields declared at their positions. -/
theorem describes_of_fieldContexts {type : String} {fields : List Field}
    {found : List FieldContext} (hvalid : ∀ field ∈ fields, field.Valid)
    (h : fieldContexts type 0 0 fields = .ok found) {position : Nat} {field : Field}
    {entry : FieldContext} (hfield : fields[position]? = some field)
    (hentry : found[position]? = some entry) :
    entry.Describes field (paddingsBefore fields position) := by
  have hmember : entry.member = if field.type.isVoid then
      ⟨paddingStem ++ toString (paddingsBefore fields position), true⟩
      else ⟨field.name.getD "", false⟩ := by
    have hmembers := getElem?_declaredMembers 0 fields position
    rw [← members_of_fieldContexts h, List.getElem?_map, hentry, hfield, Nat.zero_add] at hmembers
    exact Option.some.inj hmembers
  refine ⟨rel_of_getElem?_eq_some (typeExprs_of_fieldContexts h) hfield hentry, ?_, ?_⟩
  · intro hnamed
    have hsome : field.name ≠ none := by
      rw [Ne, (hvalid field (List.mem_of_getElem? hfield)).named, hnamed]
      exact Bool.false_ne_true
    obtain ⟨name, hname⟩ := Option.ne_none_iff_exists'.mp hsome
    rw [if_neg (by simp [hnamed]), hname] at hmember
    exact ⟨hname.trans (congrArg (fun member => some member.name) hmember.symm),
      congrArg Member.isPadding hmember⟩
  · intro hvoid
    rw [if_pos hvoid] at hmember
    exact ⟨congrArg Member.name hmember, congrArg Member.isPadding hmember⟩

/-! ## Distinct names -/

/-- A padding name shows its number. -/
theorem eq_of_padding_eq {first second : Nat}
    (h : paddingStem ++ toString first = paddingStem ++ toString second) : first = second :=
  Text.eq_of_toString_eq ((String.append_right_inj paddingStem).mp h)

/-- The name of a valid field is no padding name. -/
theorem Field.Valid.name_ne_padding {field : Field} (h : field.Valid) {name : String}
    (hname : field.name = some name) (number : Nat) : name ≠ paddingStem ++ toString number := by
  rintro rfl
  have hspelled := h.spelled _ hname
  rw [isFieldName, Bool.and_eq_true, Bool.not_eq_true', String.toList_append] at hspelled
  have hstarts : Text.startsWith paddingStem.toList
      (paddingStem.toList ++ (toString number).toList) = true :=
    Text.startsWith_iff.mpr (List.prefix_append _ _)
  exact absurd (hspelled.2.symm.trans hstarts) Bool.false_ne_true

/-- The name of a member is that of a field, or belongs to padding with a later number. -/
theorem mem_declaredMembers {paddings : Nat} {fields : List Field}
    (hvalid : ∀ field ∈ fields, field.Valid) {name : String}
    (h : name ∈ (declaredMembers paddings fields).map Member.name) :
    name ∈ fieldNames fields ∨ ∃ number, paddings ≤ number ∧
      name = paddingStem ++ toString number := by
  obtain ⟨member, hmember, rfl⟩ := List.mem_map.mp h
  obtain ⟨position, hposition⟩ := List.mem_iff_getElem?.mp hmember
  rw [getElem?_declaredMembers, Option.map_eq_some_iff] at hposition
  obtain ⟨field, hfield, rfl⟩ := hposition
  have hin := List.mem_of_getElem? hfield
  split_ifs with hvoid
  · exact .inr ⟨_, Nat.le_add_right _ _, rfl⟩
  · obtain ⟨name, hname⟩ :=
      Option.ne_none_iff_exists'.mp fun hnone => hvoid ((hvalid field hin).named.mp hnone)
    refine .inl (List.mem_filterMap.mpr ⟨field, hin, ?_⟩)
    rw [hname]
    rfl

/-- No two members of a valid body share a name. -/
theorem nodup_declaredMembers (paddings : Nat) {fields : List Field}
    (hvalid : ∀ field ∈ fields, field.Valid) (hdistinct : (fieldNames fields).Nodup) :
    ((declaredMembers paddings fields).map Member.name).Nodup := by
  induction fields generalizing paddings with
  | nil => exact .nil
  | cons field fields ih =>
    obtain ⟨hfirst, hrest⟩ := List.forall_mem_cons.mp hvalid
    unfold declaredMembers
    split_ifs with hvoid
    · have hnames : fieldNames (field :: fields) = fieldNames fields := by
        simp [fieldNames, hfirst.named.mpr hvoid]
      rw [hnames] at hdistinct
      refine List.nodup_cons.mpr ⟨fun hmem => ?_, ih (paddings + 1) hrest hdistinct⟩
      rcases mem_declaredMembers hrest hmem with hname | ⟨number, hlater, hsame⟩
      · obtain ⟨other, hother, hname⟩ := List.mem_filterMap.mp hname
        exact (hrest other hother).name_ne_padding hname paddings rfl
      · have hnumber := eq_of_padding_eq hsame
        omega
    · obtain ⟨name, hname⟩ :=
        Option.ne_none_iff_exists'.mp fun hnone => hvoid (hfirst.named.mp hnone)
      have hnames : fieldNames (field :: fields) = name :: fieldNames fields := by
        simp [fieldNames, hname]
      rw [hnames, List.nodup_cons] at hdistinct
      rw [hname]
      refine List.nodup_cons.mpr ⟨fun hmem => ?_, ih paddings hrest hdistinct.2⟩
      rcases mem_declaredMembers hrest hmem with hother | ⟨number, -, hsame⟩
      · exact hdistinct.1 hother
      · exact hfirst.name_ne_padding hname number hsame

/-! ## Contexts -/

/-- The context of a valid body lists its fields. -/
theorem Body.listsFields_of_context {type : String} {body : Body} {found : BodyContext}
    (hvalid : body.Valid) (h : body.context type = .ok found) : found.ListsFields body := by
  have hmembers := (Body.members_of_context h).1
  obtain ⟨fields, hfields, hrest⟩ := bind_eq_ok_iff.mp h
  obtain ⟨constants, -, hfound⟩ := bind_eq_ok_iff.mp hrest
  obtain rfl := Except.ok.inj hfound
  refine ⟨(typeExprs_of_fieldContexts hfields).length_eq.symm, ?_, ?_⟩
  · intro position field entry hfield hentry
    exact describes_of_fieldContexts hvalid.fields hfields hfield hentry
  · have hnodup := nodup_declaredMembers 0 hvalid.fields hvalid.distinctFields
    rw [← hmembers, BodyContext.members, List.map_map] at hnodup
    exact hnodup

/-- **Members are named by position.** Each body in the context of a valid definition lists the
declared fields one by one: named fields under their names, and the padding of the body under the
reserved names `_void_0`, `_void_1` and so on. No two members of one body share a name. -/
theorem members_of_validate {definition : Definition} {extension : String} {context : Context}
    (hvalid : definition.validate = .ok ())
    (hcontext : definition.context extension = .ok context) :
    List.Forall₂ (fun body found => BodyContext.ListsFields found body) definition.bodies
      context.bodies.list := by
  have hbodies := (Definition.validate_eq_ok_iff.mp hvalid).bodies
  refine (List.forall₂_and_left _ _ |>.mpr ⟨hbodies, Definition.bodies_of_context hcontext⟩).imp ?_
  rintro body found ⟨hbody, hfound⟩
  exact Body.listsFields_of_context hbody hfound

/-- A service with padding in both sections, among named fields that look like it. -/
def paddedService : Definition :=
  .service "site.Query" (some 7)
    (.mk [.mk none (.void 3), .mk (some "_void") (.primitive ⟨.boolean, 1, .saturated⟩),
      .mk none (.void 5)] [] false)
    (.mk [.mk (some "void_0") (.array (.void 8) (.static 2)), .mk none (.void 1)] [] true)

/-- In the padded service the padding is counted for each section. -/
theorem members_of_paddedService : ∃ context, paddedService.context defaultExtension = .ok context ∧
    context.bodies.list.map (·.fields.map FieldContext.name) =
      [["_void_0", "_void", "_void_1"], ["void_0", "_void_0"]] ∧
    List.Forall₂ (fun body found => BodyContext.ListsFields found body) paddedService.bodies
      context.bodies.list := by
  refine ⟨_, rfl, by decide +kernel, members_of_validate ?_ rfl⟩
  decide +kernel

end DsdlHeaders

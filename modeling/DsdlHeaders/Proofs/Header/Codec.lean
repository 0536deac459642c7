import Mathlib.Algebra.Ring.Nat
import Mathlib.Data.List.Forall2
import DsdlHeaders.Proofs.Header.Expansion
import DsdlHeaders.Proofs.Model.Validation

/-!
# Codec functions follow the declared layout

The functions that encode and decode a structure are generated from its declared fields.

* **Fields.** The context lists the fields in the order of their declaration, padding under names
  of its own (`Body.members_of_context`).
* **One body.** The functions for both directions have the same body up to the name of the
  operation (`upToName_codecBody`): it is made of fixed texts and of places for that name.
* **Layout.** `Structure.LaidOutIn` says what a header has to hold for a structure: both functions,
  with a call for each field in order or a case for each tag, and for a union the enumeration of
  its tags, numbered from zero.

Main statement: `codecs_follow_declaration`.
-/

namespace DsdlHeaders

open Layout

/-! ## Parts of texts -/

/-- A text that stands somewhere in another one. -/
def Within (part text : String) : Prop :=
  ∃ before after, text = before ++ part ++ after

/-- A part of a part is a part. -/
theorem Within.trans {inner part text : String} (hinner : Within inner part)
    (hpart : Within part text) : Within inner text := by
  obtain ⟨before, after, rfl⟩ := hinner
  obtain ⟨first, last, rfl⟩ := hpart
  exact ⟨first ++ before, after ++ last, by simp only [String.append_assoc]⟩

/-- Texts are parts of what they are joined to. -/
theorem Within.of_mem {part : String} {texts : List String} (h : part ∈ texts) :
    Within part (String.join texts) := by
  obtain ⟨before, after, rfl⟩ := List.append_of_mem h
  exact ⟨String.join before, String.join after, by
    rw [String.join_append, String.join_cons, String.append_assoc]⟩

/-! ## Declared fields -/

/-- The members for declared fields when `paddings` void fields came before. Padding is named by its
position among the padding fields. -/
def declaredMembers (paddings : Nat) : List Field → List Member
  | [] => []
  | field :: fields =>
    if field.type.isVoid then
      ⟨paddingStem ++ toString paddings, true⟩ :: declaredMembers (paddings + 1) fields
    else ⟨field.name.getD "", false⟩ :: declaredMembers paddings fields

/-- The fields of a context are the declared ones, in the order of their declaration. -/
theorem members_of_fieldContexts {type : String} {index paddings : Nat} {fields : List Field}
    {found : List FieldContext} (h : fieldContexts type index paddings fields = .ok found) :
    found.map FieldContext.member = declaredMembers paddings fields := by
  induction fields generalizing index paddings found with
  | nil =>
    obtain rfl := Except.ok.inj h
    rfl
  | cons field fields ih =>
    unfold fieldContexts at h
    split at h
    · exact absurd h (by simp)
    · unfold declaredMembers
      split at h
      · rename_i hvoid
        obtain ⟨later, hlater, hfound⟩ := bind_eq_ok_iff.mp h
        obtain rfl := Except.ok.inj hfound
        rw [if_pos hvoid, List.map_cons, ih hlater]
        rfl
      · rename_i hvoid
        split at h
        · exact absurd h (by simp)
        · rename_i name hname
          obtain ⟨later, hlater, hfound⟩ := bind_eq_ok_iff.mp h
          obtain rfl := Except.ok.inj hfound
          rw [if_neg hvoid, List.map_cons, ih hlater, hname]
          rfl

/-- Is a body laid out as a union? One without fields is not. -/
def Body.isTagged (body : Body) : Bool :=
  body.isUnion && !body.fields.isEmpty

/-- As many members as fields. -/
theorem length_declaredMembers (paddings : Nat) (fields : List Field) :
    (declaredMembers paddings fields).length = fields.length := by
  induction fields generalizing paddings with
  | nil => rfl
  | cons field fields ih =>
    unfold declaredMembers
    split <;> simp [ih]

/-- The context of a body has its declared fields. -/
theorem Body.members_of_context {type : String} {body : Body} {found : BodyContext}
    (h : body.context type = .ok found) :
    found.members = declaredMembers 0 body.fields ∧ found.isUnion = body.isTagged := by
  obtain ⟨fields, hfields, hrest⟩ := bind_eq_ok_iff.mp h
  obtain ⟨constants, -, hfound⟩ := bind_eq_ok_iff.mp hrest
  obtain rfl := Except.ok.inj hfound
  have hmembers := members_of_fieldContexts hfields
  have hlength : fields.length = body.fields.length := by
    rw [← length_declaredMembers 0, ← hmembers, List.length_map]
  refine ⟨hmembers, ?_⟩
  have hempty : fields.isEmpty = body.fields.isEmpty := by
    rw [Bool.eq_iff_iff, List.isEmpty_iff_length_eq_zero, List.isEmpty_iff_length_eq_zero, hlength]
  rw [Body.isTagged, ← hempty]

/-! ## Bodies up to the operation -/

/-- A text that is the same for all operations up to their names: fixed texts, and places for the
name. -/
def UpToName (text : String → String) : Prop :=
  ∃ pieces : List (Option String), ∀ op, text op = String.join (pieces.map (·.getD op))

/-- A fixed text. -/
theorem UpToName.fixed (s : String) : UpToName fun _ => s :=
  ⟨[some s], fun _ => by simp⟩

/-- The name itself. -/
theorem UpToName.name : UpToName fun op => op :=
  ⟨[none], fun _ => by simp⟩

/-- One text after the other. -/
theorem UpToName.append {s t : String → String} (hs : UpToName s) (ht : UpToName t) :
    UpToName fun op => s op ++ t op := by
  obtain ⟨first, hfirst⟩ := hs
  obtain ⟨second, hsecond⟩ := ht
  refine ⟨first ++ second, fun op => ?_⟩
  change s op ++ t op = _
  rw [hfirst, hsecond, List.map_append, String.join_append]

/-- One text before those of a list. -/
theorem UpToName.cons {s : String → String} {texts : String → List String} (hs : UpToName s)
    (htexts : UpToName fun op => String.join (texts op)) :
    UpToName fun op => String.join (s op :: texts op) := by
  simp only [String.join_cons]
  exact hs.append htexts

/-- A text for each of some items. -/
theorem UpToName.map {α : Type} {text : String → α → String} {items : List α}
    (h : ∀ item ∈ items, UpToName fun op => text op item) :
    UpToName fun op => String.join (items.map (text op)) := by
  induction items with
  | nil => exact UpToName.fixed ""
  | cons item items ih =>
    apply UpToName.cons (h item List.mem_cons_self)
    exact ih fun other hother => h other (List.mem_cons_of_mem _ hother)

/-- The codec call of a union's field depends on the operation only by its name. -/
theorem upToName_switchCase (member : Member) : UpToName fun op => switchCase op member := by
  unfold switchCase
  repeat' first | apply UpToName.cons | exact UpToName.name | exact UpToName.fixed _

/-- The codec call of a field depends on the operation only by its name. -/
theorem upToName_codecCall (last : Bool) (member : Member) :
    UpToName fun op => codecCall op last member := by
  unfold codecCall
  by_cases hpadding : member.isPadding = true
  · simp only [if_pos hpadding]
    repeat' first | apply UpToName.cons | exact UpToName.name | exact UpToName.fixed _
  · simp only [if_neg hpadding]
    repeat' first | apply UpToName.cons | exact UpToName.name | exact UpToName.fixed _

/-- The bodies of all codec functions of a structure are the same up to the name of the
operation. -/
theorem upToName_codecBody (isUnion : Bool) (members : List Member) :
    UpToName fun op => codecBody op isUnion members := by
  unfold codecBody
  apply UpToName.append (UpToName.fixed _)
  cases isUnion with
  | true =>
    have hcases : UpToName fun op => String.join (members.map (switchCase op)) :=
      UpToName.map fun member _ => upToName_switchCase member
    simp only [if_true, switchStatements]
    apply UpToName.cons (UpToName.fixed _)
    apply UpToName.cons UpToName.name
    apply UpToName.cons (UpToName.fixed _)
    exact UpToName.cons hcases (UpToName.fixed _)
  | false =>
    have hcalls : UpToName fun op => String.join ((numbered 0 members).map fun entry =>
        String.join [codecCall op entry.2.1 entry.2.2, failureCheck]) := by
      apply UpToName.map
      intro entry _
      exact UpToName.cons (upToName_codecCall _ _) (UpToName.fixed _)
    simp only [Bool.false_eq_true, if_false, callStatements]
    apply UpToName.cons (UpToName.fixed _)
    exact UpToName.cons hcalls (UpToName.fixed _)

/-! ## Structures -/

/-- A structure of a header: the name of what holds it, its own name and the body that it is made
for. A structure that is nested in another one is indented there. -/
structure Structure where
  scope : String
  typeName : String
  body : Body
  isNested : Bool

/-- The structures of a definition: a message is one, a service holds two. -/
def Definition.structures (definition : Definition) : List Structure :=
  match definition with
  | .message _ _ body => [⟨"", definition.shortName ++ "_", body, false⟩]
  | .service _ _ request response =>
    [⟨definition.shortName ++ "_" ++ "::", "Request_", request, true⟩,
      ⟨definition.shortName ++ "_" ++ "::", "Response_", response, true⟩]

namespace Structure

/-- The members of a structure are its declared fields. -/
def members (s : Structure) : List Member :=
  declaredMembers 0 s.body.fields

/-- How the declaration of a structure stands in a header. -/
def placed (s : Structure) (declaration : String) : String :=
  if s.isNested then Template.indented Template.defaultIndent declaration else declaration

end Structure

/-- The enumeration of the tags of a union. -/
def tagEnumeration (members : List Member) : String :=
  "    enum Tag\n    \x7b\n" ++ enumerators members ++ "    \x7d;\n"

/-- What a header holds for a structure. -/
structure Structure.LaidOutIn (s : Structure) (text : String) : Prop where
  /-- The functions for both directions, with calls for the declared fields. -/
  codecs : Within (codecDefinition "encode" "ParameterType" s.scope s.typeName s.body.isTagged
      s.members ++
    codecDefinition "decode" "ReferenceType" s.scope s.typeName s.body.isTagged s.members) text
  /-- Their bodies are the same up to the name of the operation. -/
  sameBody : UpToName fun op => codecBody op s.body.isTagged s.members
  /-- The declaration of a union enumerates the tags of the declared fields. -/
  tags : s.body.isTagged = true → ∃ head tail,
    Within (s.placed ("template <int _tmpl>\nstruct UAVCAN_EXPORT " ++ s.typeName ++ head ++
      tagEnumeration s.members ++ tail)) text

/-- The tag of a union starts with the enumeration of its values. -/
theorem exists_tagDeclaration_eq (members : List Member) : ∃ tail,
    tagDeclaration members = "\n" ++ tagEnumeration members ++ tail := by
  have hopen : "\n    enum Tag\n    \x7b\n" = "\n" ++ "    enum Tag\n    \x7b\n" := by simp
  have hclose : "    \x7d;\n\n    typedef ::uavcan::IntegerSpec< ::uavcan::IntegerBitLen< " =
      "    \x7d;\n" ++ "\n    typedef ::uavcan::IntegerSpec< ::uavcan::IntegerBitLen< " := by
    simp
  unfold tagDeclaration tagEnumeration
  rw [hopen, hclose]
  simp only [String.join_cons, String.append_assoc]
  exact ⟨_, rfl⟩

/-- The declaration of a union enumerates its tags. -/
theorem exists_declaration_eq (typeName : String) {body : BodyContext}
    (info : Option NameContext) (h : body.isUnion = true) : ∃ head tail,
    declaration typeName body info = "template <int _tmpl>\nstruct UAVCAN_EXPORT " ++ typeName ++
      head ++ tagEnumeration body.members ++ tail := by
  obtain ⟨later, htag⟩ := exists_tagDeclaration_eq body.members
  have hlist : ∃ middle last, declaration typeName body info =
      String.join ("template <int _tmpl>\nstruct UAVCAN_EXPORT " :: typeName ::
        (middle ++ tagDeclaration body.members :: last)) := by
    rw [declaration, if_pos h]
    exact ⟨[_, _, _, _, _, _, _, _, _], _, rfl⟩
  obtain ⟨middle, last, hlist⟩ := hlist
  refine ⟨String.join middle ++ "\n", later ++ String.join last, ?_⟩
  rw [hlist, htag]
  simp only [String.join_cons, String.join_append, String.append_assoc]

/-- A header that holds a structure's declaration and definitions is laid out for it. -/
theorem Structure.laidOutIn_of_context {s : Structure} {type text : String} {found : BodyContext}
    (info : Option NameContext) (hbody : s.body.context type = .ok found)
    (hdeclaration : Within (s.placed (declaration s.typeName found info)) text)
    (hdefinitions : Within (definitions s.scope s.typeName found) text) : s.LaidOutIn text := by
  obtain ⟨hmembers, hunion⟩ := Body.members_of_context hbody
  constructor
  · have hcodecs : Within (codecDefinitions s.scope s.typeName found.isUnion found.members)
        (definitions s.scope s.typeName found) := Within.of_mem (by simp)
    rw [hmembers, hunion] at hcodecs
    have hboth : codecDefinitions s.scope s.typeName s.body.isTagged s.members =
        codecDefinition "encode" "ParameterType" s.scope s.typeName s.body.isTagged s.members ++
          codecDefinition "decode" "ReferenceType" s.scope s.typeName s.body.isTagged
            s.members := by
      rw [codecDefinitions, codecFunctions, List.map_cons, List.map_cons, List.map_nil,
        String.join_cons, String.join_cons, String.join_nil, String.append_empty]
    rw [← hboth]
    exact hcodecs.trans hdefinitions
  · exact upToName_codecBody _ _
  · intro htagged
    obtain ⟨head, tail, heq⟩ := exists_declaration_eq s.typeName info (hunion.trans htagged)
    rw [hmembers] at heq
    exact ⟨head, tail, heq ▸ hdeclaration⟩

/-! ## Definitions -/

/-- The header of a message holds its structure. -/
theorem within_message (names : NameContext) (body : BodyContext) :
    Within (declaration names.typeName body (some names)) (header ⟨names, .message body⟩) ∧
      Within (definitions "" names.typeName body) (header ⟨names, .message body⟩) := by
  have hcontent : Within (messageContent names body) (header ⟨names, .message body⟩) :=
    ⟨Layout.opening names, closing names, rfl⟩
  have hdeclaration : Within (declaration names.typeName body (some names))
      (messageContent names body) := Within.of_mem (by simp)
  have hdefinitions : Within (definitions "" names.typeName body) (messageContent names body) :=
    Within.of_mem (by simp)
  exact ⟨hdeclaration.trans hcontent, hdefinitions.trans hcontent⟩

/-- The header of a service holds both its structures. -/
theorem within_service (names : NameContext) (request response : BodyContext) :
    ∀ part ∈ [Template.indented Template.defaultIndent (declaration "Request_" request none),
      Template.indented Template.defaultIndent (declaration "Response_" response none),
      definitions (names.typeName ++ "::") "Request_" request,
      definitions (names.typeName ++ "::") "Response_" response],
    Within part (header ⟨names, .service request response⟩) := by
  have hcontent : Within (serviceContent names request response)
      (header ⟨names, .service request response⟩) :=
    ⟨Layout.opening names, closing names, rfl⟩
  intro part hpart
  refine Within.trans (Within.of_mem ?_) hcontent
  simp only [List.mem_cons, List.not_mem_nil, or_false] at hpart
  rcases hpart with rfl | rfl | rfl | rfl <;> simp

/-- The structures of a header are those of the definition. -/
theorem Definition.laidOutIn_header {definition : Definition} {extension : String}
    {context : Context} (h : definition.context extension = .ok context) :
    ∀ s ∈ definition.structures, s.LaidOutIn (header context) := by
  intro s hs
  cases definition with
  | message fullName portId body =>
    obtain ⟨found, hbody, hcontext⟩ := bind_eq_ok_iff.mp h
    obtain rfl := Except.ok.inj hcontext
    obtain rfl := List.mem_singleton.mp hs
    obtain ⟨hdeclaration, hdefinitions⟩ := within_message
      ((Definition.message fullName portId body).nameContext extension) found
    refine Structure.laidOutIn_of_context
      (some ((Definition.message fullName portId body).nameContext extension)) hbody ?_ hdefinitions
    rw [Structure.placed, if_neg Bool.false_ne_true]
    exact hdeclaration
  | service fullName portId request response =>
    obtain ⟨foundRequest, hrequest, hrest⟩ := bind_eq_ok_iff.mp h
    obtain ⟨foundResponse, hresponse, hcontext⟩ := bind_eq_ok_iff.mp hrest
    obtain rfl := Except.ok.inj hcontext
    have hparts := within_service
      ((Definition.service fullName portId request response).nameContext extension)
      foundRequest foundResponse
    simp only [List.forall_mem_cons] at hparts
    obtain ⟨hdeclared, hdeclared', hdefined, hdefined', -⟩ := hparts
    rcases List.mem_cons.mp hs with rfl | hs
    · refine Structure.laidOutIn_of_context none hrequest ?_ hdefined
      rw [Structure.placed, if_pos rfl]
      exact hdeclared
    · obtain rfl := List.mem_singleton.mp hs
      refine Structure.laidOutIn_of_context none hresponse ?_ hdefined'
      rw [Structure.placed, if_pos rfl]
      exact hdeclared'

/-- A header can be written for a body exactly when it is no union with too many declared fields. -/
theorem Body.countable_iff {type : String} {body : Body} {found : BodyContext}
    (h : body.context type = .ok found) :
    found.Countable ↔ (body.isUnion = true → body.fields.length < 2 ^ 127) := by
  obtain ⟨hmembers, hunion⟩ := Body.members_of_context h
  have hlength : found.fields.length = body.fields.length := by
    rw [← length_declaredMembers 0, ← hmembers, BodyContext.members, List.length_map]
  unfold BodyContext.Countable
  rw [hunion, hlength, Body.isTagged, Bool.and_eq_true]
  constructor
  · intro hfew hflag
    by_cases hempty : body.fields.isEmpty = true
    · rw [List.isEmpty_iff.mp hempty]
      exact Nat.two_pow_pos 127
    · exact hfew ⟨hflag, by simpa using hempty⟩
  · intro hfew htagged
    exact hfew htagged.1

/-- A property of all items of a list, taken over to a related list item by item. -/
theorem forall_iff_of_forall₂ {α β : Type} {R : α → β → Prop} {P : α → Prop} {Q : β → Prop}
    {xs : List α} {ys : List β} (h : List.Forall₂ R xs ys)
    (hiff : ∀ x ∈ xs, ∀ y, R x y → (Q y ↔ P x)) : (∀ y ∈ ys, Q y) ↔ ∀ x ∈ xs, P x := by
  induction h with
  | nil => simp
  | cons hxy _ ih =>
    rw [List.forall_mem_cons] at hiff
    rw [List.forall_mem_cons, List.forall_mem_cons, hiff.1 _ hxy, ih hiff.2]

/-- The bodies of a context are those of the definition, in order. -/
theorem Definition.bodies_of_context {definition : Definition} {extension : String}
    {context : Context} (h : definition.context extension = .ok context) :
    List.Forall₂ (fun body found => body.context definition.fullName = .ok found)
      definition.bodies context.bodies.list := by
  cases definition with
  | message fullName portId body =>
    obtain ⟨found, hfound, hcontext⟩ := bind_eq_ok_iff.mp h
    obtain rfl := Except.ok.inj hcontext
    exact .cons hfound .nil
  | service fullName portId request response =>
    obtain ⟨first, hfirst, hrest⟩ := bind_eq_ok_iff.mp h
    obtain ⟨second, hsecond, hcontext⟩ := bind_eq_ok_iff.mp hrest
    obtain rfl := Except.ok.inj hcontext
    exact .cons hfirst (.cons hsecond .nil)

/-- A header can be written for a definition exactly when no union has too many fields. -/
theorem Definition.countable_iff {definition : Definition} {extension : String}
    {context : Context} (h : definition.context extension = .ok context) :
    (∀ body ∈ context.bodies.list, body.Countable) ↔
      ∀ body ∈ definition.bodies, body.isUnion = true → body.fields.length < 2 ^ 127 := by
  apply forall_iff_of_forall₂ (Definition.bodies_of_context h)
  intro body _ found hfound
  exact Body.countable_iff hfound

/-- Bodies that cannot be counted belong to unions with that many declared fields. -/
theorem Definition.exists_uncountable {definition : Definition} {extension : String}
    {context : Context} (h : definition.context extension = .ok context)
    (hcount : ¬ ∀ body ∈ context.bodies.list, body.Countable) :
    ∃ body ∈ definition.bodies, body.isUnion = true ∧ 2 ^ 127 ≤ body.fields.length := by
  rw [Definition.countable_iff h] at hcount
  obtain ⟨body, hbody⟩ := Classical.not_forall.mp hcount
  obtain ⟨hmem, hmany⟩ := Classical.not_imp.mp hbody
  obtain ⟨hunion, hlength⟩ := Classical.not_imp.mp hmany
  exact ⟨body, hmem, hunion, Nat.not_lt.mp hlength⟩

/-- The shipped template compiles. For every definition that has a context its expansion is a header
in which the codec functions of each structure follow the declared fields, unless a union has more
fields than integers can count, which is more than any list in memory has. -/
theorem codecs_follow_declaration (path extension : String) {definition : Definition}
    {context : Context} (h : definition.context extension = .ok context) :
    ∃ template, Template.compile path Template.Shipped.source = .ok template ∧
      ((∃ text, template.expand context = .ok text ∧
          ∀ s ∈ definition.structures, s.LaidOutIn text) ∨
        ∃ body ∈ definition.bodies, body.isUnion = true ∧ 2 ^ 127 ≤ body.fields.length) := by
  refine ⟨_, Template.Shipped.compile_source path, ?_⟩
  by_cases hcount : ∀ body ∈ context.bodies.list, body.Countable
  · left
    exact ⟨header context, Template.Shipped.expand_shipped path hcount,
      Definition.laidOutIn_header h⟩
  · right
    exact Definition.exists_uncountable h hcount

/-- A service whose request has padding before its last field and whose response is a union. -/
def mixedService : Definition :=
  .service "demo.Mixed" (some 7)
    (.mk [.mk (some "first") (.primitive ⟨.unsigned, 8, .saturated⟩), .mk none (.void 3),
      .mk (some "last") (.array (.primitive ⟨.signed, 16, .truncated⟩) (.dynamic 4))] [] false)
    (.mk [.mk (some "state") (.primitive ⟨.boolean, 1, .saturated⟩),
      .mk (some "level") (.primitive ⟨.floating, 32, .saturated⟩)] [] true)

/-- The header of the service has codec functions for the declared fields of both structures. -/
theorem codecs_of_mixedService : ∃ context, mixedService.context "hpp" = .ok context ∧
    mixedService.structures.map (fun s => (s.body.isTagged, s.members)) =
      [(false, [⟨"first", false⟩, ⟨"_void_0", true⟩, ⟨"last", false⟩]),
        (true, [⟨"state", false⟩, ⟨"level", false⟩])] ∧
    ∃ template, Template.compile "data_type" Template.Shipped.source = .ok template ∧
      ∃ text, template.expand context = .ok text ∧
        ∀ s ∈ mixedService.structures, s.LaidOutIn text := by
  have hsome : (mixedService.context "hpp").toOption.isSome = true := by decide +kernel
  have hfew : ∀ body ∈ mixedService.bodies, body.fields.length < 2 ^ 127 := by decide
  cases hcontext : mixedService.context "hpp" with
  | error error =>
    rw [hcontext] at hsome
    exact absurd hsome (by simp [Except.toOption])
  | ok context =>
    obtain ⟨template, hcompile, hexpand⟩ := codecs_follow_declaration "data_type" "hpp" hcontext
    refine ⟨context, rfl, by decide +kernel, template, hcompile, ?_⟩
    rcases hexpand with hlaid | ⟨body, hbody, -, hmany⟩
    · exact hlaid
    · exact absurd hmany (Nat.not_le.mpr (hfew body hbody))

end DsdlHeaders

import Mathlib.Data.List.Nodup
import DsdlHeaders.Document.Reader
import DsdlHeaders.Proofs.Document.Attributes
import DsdlHeaders.Proofs.Markup.Lexing

/-!
# Documents are read back

Reading a document of the format gives the definitions that it lists.

The proof follows the format. Each part of a document stands for some events, wherever it occurs
(`Lexes`), and the reader of that part, given these events and whatever follows them, consumes
exactly the events and returns the value that was written:

* **types** (`TypeText.reads`), by induction over the type. The levels that are left exceed the
  depth of the arrays, and each reader consumes the closing event of the element around it;
* **members** (`MembersText.reads`), by induction over the fields and constants;
* **bodies and sections** (`BodyText.reads`, `SectionText.reads`);
* **definitions** (`DefinitionText.reads`, `DefinitionsText.reads`), by induction over the list. The
  definitions known to the reader are those before, latest first, so a compound type is resolved to
  the definition that its name stands for (`resolve_of_standsFor`).
-/

namespace DsdlHeaders.Document

open Markup

/-! ## Elements -/

/-- The events of an element with these attributes around a content. -/
inductive ElementEvents (name : String) (attributes : List Attribute) :
    (inner events : List Event) → Prop where
  | closed {inner : List Event} {written : List Attribute} (hwritten : written.Perm attributes) :
      ElementEvents name attributes inner (.opening ⟨name, written⟩ :: (inner ++ [.closing]))
  | empty {written : List Attribute} (hwritten : written.Perm attributes) :
      ElementEvents name attributes [] [.empty ⟨name, written⟩]

/-- The content of an element and its end come before what follows it. -/
theorem opening_append (tag : Tag) (inner rest : List Event) :
    Event.opening tag :: (inner ++ [.closing]) ++ rest =
      .opening tag :: (inner ++ .closing :: rest) := by
  rw [List.cons_append, List.append_assoc, List.singleton_append]

/-- An element stands for its events. -/
theorem ElementText.lexes {name : String} {attributes : List Attribute} {content text : List Char}
    {inner : List Event} (h : IsHead name attributes)
    (htext : ElementText name attributes content text) (hcontent : Lexes content inner) :
    ∃ events, ElementEvents name attributes inner events ∧ Lexes text events := by
  cases htext with
  | closed hbefore hafter hwritten =>
    have hinner := hcontent.append (Lexes.blank hafter)
    rw [List.append_nil] at hinner
    exact ⟨_, .closed hwritten,
      (Lexes.blank hbefore).append (Lexes.element (h.of_perm hwritten) hinner)⟩
  | empty hbefore hwritten =>
    have hinner : inner = [] := by
      have hnil := hcontent [] []
      rw [List.nil_append] at hnil
      exact List.self_eq_append_left.mp hnil
    rw [hinner]
    exact ⟨_, .empty hwritten,
      (Lexes.blank hbefore).append (Lexes.empty (h.of_perm hwritten))⟩

/-! ## Types -/

/-- A name is resolved to the definition that it stands for. -/
theorem resolve_of_standsFor {earlier : List Definition} {target : Definition}
    (h : StandsFor earlier target) : Known.resolve earlier.reverse target.fullName = target := by
  cases h with
  | @latest before after _ h =>
    have hafter : after.reverse.find? (·.fullName = target.fullName) = none := by
      rw [List.find?_eq_none]
      intro other hother
      simpa using h other (List.mem_reverse.mp hother)
    have hfound : (before ++ target :: after).reverse.find? (·.fullName = target.fullName) =
        some target := by
      rw [List.reverse_append, List.reverse_cons, List.append_assoc, List.find?_append, hafter]
      simp
    rw [Known.resolve, hfound]
    rfl
  | @external _ fullName h =>
    have hnone : earlier.reverse.find? (·.fullName = fullName) = none := by
      rw [List.find?_eq_none]
      intro other hother
      simpa using h other (List.mem_reverse.mp hother)
    show Known.resolve earlier.reverse fullName = _
    rw [Known.resolve, hnone]
    rfl

/-- A type other than an array is read from its element. -/
theorem wrappedType_leaf {known : Known} {name : String} {attributes : List Attribute}
    {events : List Event} {type : DataType} (hevents : ElementEvents name attributes [] events)
    (hname : name ≠ "array")
    (hleaf : ∀ written, written.Perm attributes → leafType known ⟨name, written⟩ = .ok type)
    (levels : Nat) (element : String) (rest : List Event) :
    wrappedType known (levels + 1) element (events ++ .closing :: rest) = .ok (type, rest) := by
  cases hevents with
  | closed hwritten =>
    show wrappedType known (levels + 1) element (.opening _ :: .closing :: .closing :: rest) = _
    rw [wrappedType]
    dsimp only
    rw [if_neg hname, hleaf _ hwritten]
    rfl
  | empty hwritten =>
    show wrappedType known (levels + 1) element (.empty _ :: .closing :: rest) = _
    rw [wrappedType]
    dsimp only
    rw [if_neg hname, hleaf _ hwritten]
    rfl

/-- An array is read from its element, when the type inside it is read from the content. -/
theorem wrappedType_array {known : Known} {sizing : Sizing} {inner events : List Event}
    {type : DataType} {levels : Nat} (hsizing : sizing.capacity < Text.wordSize 64)
    (hevents : ElementEvents "array" [sizingAttribute sizing] inner events)
    (hinner : ∀ element rest,
      wrappedType known levels element (inner ++ .closing :: rest) = .ok (type, rest))
    (element : String) (rest : List Event) :
    wrappedType known (levels + 1) element (events ++ .closing :: rest) =
      .ok (.array type sizing, rest) := by
  cases hevents with
  | closed hwritten =>
    rw [opening_append, wrappedType]
    dsimp only
    rw [if_pos rfl, arraySizing_of_perm hsizing hwritten]
    show ((wrappedType known levels "array" _ >>= _) >>= _) = _
    rw [hinner]
    rfl
  | empty hwritten =>
    -- an array has a content, since no type is read from nothing
    have hnone := hinner "array" []
    cases levels <;> simp [wrappedType] at hnone

/-- A primitive type is written by a plain word. -/
theorem isWord_keyword (kind : ScalarKind) :
    IsWord kind.keyword.toList ∧ kind.keyword ≠ "array" := by
  cases kind <;> decide

/-- The keyword of a primitive type tells its kind. -/
theorem leafType_keyword (known : Known) (kind : ScalarKind) (attributes : List Attribute) :
    leafType known ⟨kind.keyword, attributes⟩ =
      (scalar kind ⟨kind.keyword, attributes⟩).map .primitive := by
  cases kind <;> rfl

/-- A primitive type is read back. -/
theorem PrimitiveText.reads {known : Known} {type : Primitive} {text : List Char}
    (htype : type.Writable) (htext : PrimitiveText type text) :
    ∃ events, Lexes text events ∧ ∀ levels element rest,
      wrappedType known (levels + 1) element (events ++ .closing :: rest) =
        .ok (.primitive type, rest) := by
  obtain ⟨hcast, htext⟩ := htext
  rename_i cast
  have hword := IsHead.nil (isWord_keyword type.kind).1
  have hhead : IsHead type.kind.keyword (⟨"bits", toString type.bits⟩ :: cast) := by
    cases hcast with
    | given =>
      exact .cons (by decide) (isQuotable_toString type.bits) (by simp)
        (.cons (by decide) (isQuotable_castText type.cast) (by simp) hword)
    | omitted => exact .cons (by decide) (isQuotable_toString type.bits) (by simp) hword
  obtain ⟨events, hevents, hlexes⟩ := htext.lexes hhead (Lexes.blank isLayout_nil)
  refine ⟨events, hlexes, wrappedType_leaf hevents (isWord_keyword type.kind).2 ?_⟩
  intro written hwritten
  rw [leafType_keyword, scalar_of_perm htype hcast hwritten]
  rfl

/-- The attributes of an array. -/
theorem isHead_array (sizing : Sizing) : IsHead "array" [sizingAttribute sizing] := by
  have hword : IsHead "array" [] := .nil (by decide)
  cases sizing <;> exact .cons (by decide) (isQuotable_toString _) (by simp) hword

/-- A type is read back, when as many levels are left as its arrays need. -/
theorem TypeText.reads {earlier : List Definition} {type : DataType} {text : List Char}
    (htype : type.Writable earlier) (htext : TypeText type text) :
    ∃ events, Lexes text events ∧ ∀ levels element rest, type.arrayDepth ≤ levels →
      wrappedType earlier.reverse (levels + 1) element (events ++ .closing :: rest) =
        .ok (type, rest) := by
  induction htext with
  | primitive htext =>
    obtain ⟨events, hlexes, hread⟩ := htext.reads htype
    exact ⟨events, hlexes, fun levels element rest _ => hread levels element rest⟩
  | @void bits text htext =>
    have hhead : IsHead "void" [⟨"bits", toString bits⟩] :=
      .cons (by decide) (isQuotable_toString bits) (by simp) (.nil (by decide))
    obtain ⟨events, hevents, hlexes⟩ := htext.lexes hhead (Lexes.blank isLayout_nil)
    refine ⟨events, hlexes, fun levels element rest _ => ?_⟩
    refine wrappedType_leaf hevents (by decide) (fun written hwritten => ?_) levels element rest
    show (voidWidth _).map _ = _
    rw [voidWidth_of_perm htype hwritten]
    rfl
  | @compound target text htext =>
    have hhead : IsHead "compound" [⟨"name", target.fullName⟩] :=
      .cons (by decide) htype.1 (by simp) (.nil (by decide))
    obtain ⟨events, hevents, hlexes⟩ := htext.lexes hhead (Lexes.blank isLayout_nil)
    refine ⟨events, hlexes, fun levels element rest _ => ?_⟩
    refine wrappedType_leaf hevents (by decide) (fun written hwritten => ?_) levels element rest
    show (required _ "compound" "name").map _ = _
    rw [required, get?_of_perm hwritten (by simp) List.mem_cons_self]
    show Except.ok (DataType.compound (Known.resolve earlier.reverse target.fullName)) = _
    rw [resolve_of_standsFor htype.2]
  | @array element sizing content text _ htext ih =>
    obtain ⟨inner, hinner, hread⟩ := ih htype.1
    obtain ⟨events, hevents, hlexes⟩ := htext.lexes (isHead_array sizing) hinner
    refine ⟨events, hlexes, fun levels parent rest hlevels => ?_⟩
    -- the array itself takes one of the levels
    cases levels with
    | zero => exact absurd hlevels (Nat.not_succ_le_zero _)
    | succ levels =>
      have hdepth : element.arrayDepth ≤ levels := Nat.le_of_succ_le_succ hlevels
      exact wrappedType_array htype.2 hevents (fun around rest => hread levels around rest hdepth)
        parent rest

/-! ## Members -/

/-- A first member and the others are all members. -/
theorem membersFrom_opening {known : Known} {parent : String} {tag : Tag} {first : Member}
    {others : List Member} {events middle rest : List Event}
    (hfirst : member known parent tag events = .ok (first, middle))
    (hothers : membersFrom known parent middle = .ok (others, rest)) :
    membersFrom known parent (.opening tag :: events) = .ok (first :: others, rest) := by
  rw [membersFrom]
  split
  · rename_i herror
    rw [hfirst] at herror
    exact absurd herror (by simp)
  · rename_i hok
    rw [hfirst] at hok
    obtain ⟨rfl, rfl⟩ := Prod.mk.inj (Except.ok.inj hok)
    rw [hothers]

/-- A field is read from its element, when its type is read from the content. -/
theorem member_field {known : Known} {field : Field} {written : List Attribute}
    {inner rest : List Event} (hwritten : written.Perm (nameAttributes field.name))
    (hinner : wrappedType known maxArrayDepth "field" (inner ++ .closing :: rest) =
      .ok (field.type, rest)) (parent : String) :
    member known parent ⟨"field", written⟩ (inner ++ .closing :: rest) =
      .ok (.field field, rest) := by
  obtain ⟨name, type⟩ := field
  have hname : Tag.get? ⟨"field", written⟩ "name" = name := by
    cases name with
    | none =>
      rw [hwritten.eq_nil]
      rfl
    | some name =>
      exact get?_of_perm hwritten (List.nodup_singleton _) List.mem_cons_self
  rw [member, if_pos rfl, hinner]
  show Except.ok (Member.field (.mk (Tag.get? _ "name") type), rest) = _
  rw [hname]

/-- A constant is read from its element, when its type is read from the content. -/
theorem member_constant {known : Known} {constant : Constant} {written : List Attribute}
    {inner rest : List Event}
    (hwritten : written.Perm [⟨"name", constant.name⟩, ⟨"value", constant.literal⟩])
    (hinner : wrappedType known maxArrayDepth "constant" (inner ++ .closing :: rest) =
      .ok (.primitive constant.type, rest)) (parent : String) :
    member known parent ⟨"constant", written⟩ (inner ++ .closing :: rest) =
      .ok (.constant constant, rest) := by
  have hname : Tag.get? ⟨"constant", written⟩ "name" = some constant.name :=
    get?_of_perm hwritten (by simp) (by simp)
  have hvalue : Tag.get? ⟨"constant", written⟩ "value" = some constant.literal :=
    get?_of_perm hwritten (by simp) (by simp)
  rw [member, if_neg (by simp), if_pos rfl, required, required, hname, hvalue, hinner]
  rfl

/-- Fields and constants are read back. -/
theorem MembersText.reads {earlier : List Definition} {fields : List Field}
    {constants : List Constant} {text : List Char}
    (hfields : ∀ field ∈ fields, field.Writable earlier)
    (hconstants : ∀ constant ∈ constants, constant.Writable)
    (htext : MembersText fields constants text) :
    ∃ events, Lexes text events ∧ ∀ parent rest, ∃ members,
      membersFrom earlier.reverse parent (events ++ .closing :: rest) = .ok (members, rest) ∧
        fieldsOf members = fields ∧ constantsOf members = constants := by
  induction htext with
  | nil =>
    refine ⟨[], Lexes.blank isLayout_nil, fun parent rest => ⟨[], ?_, rfl, rfl⟩⟩
    rw [List.nil_append, membersFrom]
  | @field field fields constants content text others htype htext _ ih =>
    have hfield := hfields field List.mem_cons_self
    obtain ⟨inner, hinner, hread⟩ := htype.reads hfield.type
    have hhead : IsHead "field" (nameAttributes field.name) := by
      have hquotable := hfield.name
      cases hname : field.name with
      | none => exact .nil (by decide)
      | some name => exact .cons (by decide) (hquotable name hname) (by simp) (.nil (by decide))
    obtain ⟨first, hfirst, hlexes⟩ := htext.lexes hhead hinner
    obtain ⟨events, hevents, hothers⟩ :=
      ih (fun other hother => hfields other (List.mem_cons_of_mem _ hother)) hconstants
    refine ⟨first ++ events, hlexes.append hevents, fun parent rest => ?_⟩
    obtain ⟨members, hmembers, rfl, rfl⟩ := hothers parent rest
    have htype : ∀ rest, wrappedType earlier.reverse maxArrayDepth "field"
        (inner ++ .closing :: rest) = .ok (field.type, rest) :=
      fun rest => hread 31 "field" rest hfield.depth
    refine ⟨.field field :: members, ?_, rfl, rfl⟩
    cases hfirst with
    | closed hwritten =>
      rw [List.append_assoc, opening_append]
      exact membersFrom_opening (member_field hwritten (htype _) parent) hmembers
    | empty =>
      -- a field has a content, since no type is read from nothing
      exact absurd (htype []) (by simp [wrappedType, maxArrayDepth])
  | @constant constant fields constants content text others htype htext _ ih =>
    have hconstant := hconstants constant List.mem_cons_self
    obtain ⟨inner, hinner, hread⟩ := htype.reads hconstant.type
    have hhead : IsHead "constant" [⟨"name", constant.name⟩, ⟨"value", constant.literal⟩] :=
      .cons (by decide) hconstant.name (by simp)
        (.cons (by decide) hconstant.literal (by simp) (.nil (by decide)))
    obtain ⟨first, hfirst, hlexes⟩ := htext.lexes hhead hinner
    obtain ⟨events, hevents, hothers⟩ :=
      ih hfields fun other hother => hconstants other (List.mem_cons_of_mem _ hother)
    refine ⟨first ++ events, hlexes.append hevents, fun parent rest => ?_⟩
    obtain ⟨members, hmembers, rfl, rfl⟩ := hothers parent rest
    refine ⟨.constant constant :: members, ?_, rfl, rfl⟩
    cases hfirst with
    | closed hwritten =>
      rw [List.append_assoc, opening_append]
      exact membersFrom_opening (member_constant hwritten (hread _ _ _) parent) hmembers
    | empty =>
      exact absurd (hread 0 "constant" []) (by simp [wrappedType])

/-! ## Bodies and sections -/

/-- The attributes of an element that may have a union flag. -/
theorem isHead_union {name : String} {attributes union : List Attribute} {isUnion : Bool}
    (h : IsHead name attributes) (hnew : "union" ∉ attributes.map Attribute.key)
    (hunion : OptionalAttribute ⟨"union", truthText isUnion⟩ (isUnion = false) union) :
    IsHead name (attributes ++ union) := by
  cases hunion with
  | given =>
    have hflag := IsHead.cons (by decide) (isQuotable_truthText isUnion) hnew h
    exact hflag.of_perm (List.perm_append_singleton _ attributes)
  | omitted => rwa [List.append_nil]

/-- A body is read back from the content of its element. -/
theorem BodyText.reads {earlier : List Definition} {name : String} {attributes : List Attribute}
    {found : Body} {text : List Char} (hbody : found.Writable earlier)
    (hhead : IsHead name attributes) (hnew : "union" ∉ attributes.map Attribute.key)
    (htext : BodyText name attributes found text) :
    ∃ union inner events,
      OptionalAttribute ⟨"union", truthText found.isUnion⟩ (found.isUnion = false) union ∧
        ElementEvents name (attributes ++ union) inner events ∧ Lexes text events ∧
          ∀ parent rest, body earlier.reverse parent found.isUnion (inner ++ .closing :: rest) =
            .ok (found, rest) := by
  obtain ⟨hunion, hcontent, htext⟩ := htext
  obtain ⟨inner, hinner, hread⟩ := hcontent.reads hbody.fields hbody.constants
  obtain ⟨events, hevents, hlexes⟩ := htext.lexes (isHead_union hhead hnew hunion) hinner
  refine ⟨_, inner, events, hunion, hevents, hlexes, fun parent rest => ?_⟩
  obtain ⟨members, hmembers, hfields, hconstants⟩ := hread parent rest
  rw [body, hmembers]
  show Except.ok (Body.mk (fieldsOf members) (constantsOf members) found.isUnion, rest) = _
  rw [hfields, hconstants]
  cases found
  rfl

/-- A body that is read from nothing is empty. -/
theorem eq_empty_of_body {known : Known} {parent : String} {isUnion : Bool} {found : Body}
    (h : body known parent isUnion [.closing] = .ok (found, [])) : found = .empty isUnion := by
  rw [body, membersFrom] at h
  exact (Prod.mk.inj (Except.ok.inj h)).1.symm

/-- A section that is an element is filed under its name. -/
theorem sectionsFrom_opening {known : Known} {tag : Tag} {found : Body} {events rest : List Event}
    (h : openSection known tag events = .ok (found, rest)) (fullName : String)
    (sections : Sections) :
    sectionsFrom known fullName sections (.opening tag :: events) =
      sectionsFrom known fullName (sections.put tag.name found) rest := by
  rw [sectionsFrom]
  split
  · rename_i herror
    rw [h] at herror
    exact absurd herror (by simp)
  · rename_i hok
    rw [h] at hok
    obtain ⟨rfl, rfl⟩ := Prod.mk.inj (Except.ok.inj hok)
    rfl

/-- A section that is an empty element is filed under its name. -/
theorem sectionsFrom_empty {known : Known} {tag : Tag} {found : Body}
    (h : emptySection tag = .ok found) (fullName : String) (sections : Sections)
    (rest : List Event) :
    sectionsFrom known fullName sections (.empty tag :: rest) =
      sectionsFrom known fullName (sections.put tag.name found) rest := by
  rw [sectionsFrom, h]

/-- A section is read back: it is filed under its name, unless it was left out. -/
theorem SectionText.reads {earlier : List Definition} {name : String} {found : Body}
    {text : List Char} (hname : name = "request" ∨ name = "response")
    (hbody : found.Writable earlier) (htext : SectionText name found text) :
    ∃ events, Lexes text events ∧ ∃ file : Sections → Sections,
      (file = (·.put name found) ∨ file = id ∧ found = .empty false) ∧
        ∀ fullName sections rest, sectionsFrom earlier.reverse fullName sections (events ++ rest) =
          sectionsFrom earlier.reverse fullName (file sections) rest := by
  have hallowed : (decide (name = "request") || decide (name = "response")) = true := by
    simpa using hname
  cases htext with
  | written htext =>
    have hword : IsHead name [] := by
      rcases hname with rfl | rfl <;> exact .nil (by decide)
    obtain ⟨union, inner, events, hunion, hevents, hlexes, hread⟩ :=
      htext.reads hbody hword (by simp)
    refine ⟨events, hlexes, _, .inl rfl, fun fullName sections rest => ?_⟩
    cases hevents with
    | closed hwritten =>
      rw [opening_append]
      refine sectionsFrom_opening ?_ fullName sections
      rw [openSection, sectionUnion_of_perm hunion hwritten]
      show (if _ then _ else _) = _
      rw [if_pos hallowed]
      exact hread name rest
    | empty hwritten =>
      refine sectionsFrom_empty ?_ fullName sections rest
      rw [emptySection, sectionUnion_of_perm hunion hwritten]
      show (if _ then _ else _) = _
      rw [if_pos hallowed, eq_empty_of_body (hread name [])]
      rfl
  | omitted hempty =>
    exact ⟨[], Lexes.blank isLayout_nil, id, .inr ⟨rfl, hempty⟩, fun _ _ _ => rfl⟩

/-- The sections of a service are read back, in either order. -/
theorem SectionText.reads_both {earlier : List Definition} {request response : Body}
    {first second content : List Char} (hrequest : request.Writable earlier)
    (hresponse : response.Writable earlier) (hfirst : SectionText "request" request first)
    (hsecond : SectionText "response" response second)
    (hcontent : content = first ++ second ∨ content = second ++ first) :
    ∃ inner, Lexes content inner ∧ ∃ found : Sections,
      found.request.getD (.empty false) = request ∧
        found.response.getD (.empty false) = response ∧
          ∀ fullName rest, sectionsFrom earlier.reverse fullName ⟨none, none⟩
            (inner ++ .closing :: rest) = .ok (found, rest) := by
  obtain ⟨before, hbefore, fileRequest, hfileRequest, hreadRequest⟩ :=
    hfirst.reads (.inl rfl) hrequest
  obtain ⟨after, hafter, fileResponse, hfileResponse, hreadResponse⟩ :=
    hsecond.reads (.inr rfl) hresponse
  have hclose : ∀ fullName sections rest,
      sectionsFrom earlier.reverse fullName sections (.closing :: rest) = .ok (sections, rest) := by
    intro fullName sections rest
    rw [sectionsFrom]
  -- the two sections are filed apart, so their order does not matter
  have hswap :
      fileRequest (fileResponse ⟨none, none⟩) = fileResponse (fileRequest ⟨none, none⟩) := by
    rcases hfileRequest with rfl | ⟨rfl, -⟩ <;> rcases hfileResponse with rfl | ⟨rfl, -⟩ <;> rfl
  have hfiled : (fileResponse (fileRequest ⟨none, none⟩)).request.getD (.empty false) = request ∧
      (fileResponse (fileRequest ⟨none, none⟩)).response.getD (.empty false) = response := by
    rcases hfileRequest with rfl | ⟨rfl, rfl⟩ <;> rcases hfileResponse with rfl | ⟨rfl, rfl⟩ <;>
      exact ⟨rfl, rfl⟩
  rcases hcontent with rfl | rfl
  · refine ⟨before ++ after, hbefore.append hafter, _, hfiled.1, hfiled.2, fun fullName rest => ?_⟩
    rw [List.append_assoc, hreadRequest, hreadResponse, hclose]
  · refine ⟨after ++ before, hafter.append hbefore, _, hfiled.1, hfiled.2, fun fullName rest => ?_⟩
    rw [List.append_assoc, hreadResponse, hreadRequest, hclose, hswap]

/-! ## Definitions -/

/-- The attributes of a definition. -/
theorem isHead_heading {name fullName : String} (hname : IsWord name.toList)
    (hquotable : IsQuotable fullName) (portId : Option Nat) :
    IsHead name (headingAttributes fullName portId) := by
  cases portId with
  | none => exact .cons (by decide) hquotable (by simp) (.nil hname)
  | some portId =>
    exact .cons (by decide) hquotable (by simp)
      (.cons (by decide) (isQuotable_toString portId) (by simp) (.nil hname))

/-- The union flag is not among the name and the port identifier. -/
theorem union_not_mem_heading (fullName : String) (portId : Option Nat) :
    "union" ∉ (headingAttributes fullName portId).map Attribute.key := by
  cases portId <;> simp [headingAttributes]

/-- A definition that is an element is added to the known ones. -/
theorem definitionsFrom_opening {known : Known} {tag : Tag} {found : Definition}
    {events rest : List Event} (hroot : tag.name ≠ "dsdl")
    (h : openDefinition known tag events = .ok (found, rest)) :
    definitionsFrom true known (.opening tag :: events) =
      definitionsFrom true (found :: known) rest := by
  rw [definitionsFrom, if_neg hroot, if_neg (by simp)]
  split
  · rename_i herror
    rw [h] at herror
    exact absurd herror (by simp)
  · rename_i hok
    rw [h] at hok
    obtain ⟨rfl, rfl⟩ := Prod.mk.inj (Except.ok.inj hok)
    rfl

/-- A definition that is an empty element is added to the known ones. -/
theorem definitionsFrom_empty {known : Known} {tag : Tag} {found : Definition}
    (hroot : tag.name ≠ "dsdl") (h : emptyDefinition tag = .ok found) (rest : List Event) :
    definitionsFrom true known (.empty tag :: rest) =
      definitionsFrom true (found :: known) rest := by
  rw [definitionsFrom, if_neg hroot, if_neg (by simp), h]

/-- A definition is read back and added to the known ones. -/
theorem DefinitionText.reads {earlier : List Definition} {definition : Definition}
    {text : List Char} (h : definition.Writable earlier) (htext : DefinitionText definition text) :
    ∃ events, Lexes text events ∧ ∀ rest,
      definitionsFrom true earlier.reverse (events ++ rest) =
        definitionsFrom true (definition :: earlier.reverse) rest := by
  obtain ⟨hfullName, hportId, hbodies⟩ := h
  cases htext with
  | @message fullName portId found _ htext =>
    obtain ⟨union, inner, events, hunion, hevents, hlexes, hread⟩ :=
      htext.reads (hbodies found List.mem_cons_self) (isHead_heading (by decide) hfullName portId)
        (union_not_mem_heading fullName portId)
    refine ⟨events, hlexes, fun rest => ?_⟩
    cases hevents with
    | closed hwritten =>
      rw [opening_append]
      refine definitionsFrom_opening (by simp) ?_
      rw [openDefinition, if_pos rfl, heading_of_perm hportId hunion hwritten]
      show (body earlier.reverse "message" found.isUnion _ >>= _) = _
      rw [hread]
      rfl
    | empty hwritten =>
      refine definitionsFrom_empty (by simp) ?_ rest
      rw [emptyDefinition, if_pos rfl, heading_of_perm hportId hunion hwritten,
        eq_empty_of_body (hread "message" [])]
      rfl
  | @service fullName portId request response first second content _ hrequest hresponse hcontent
      htext =>
    obtain ⟨inner, hinner, found, rfl, rfl, hread⟩ :=
      SectionText.reads_both (hbodies request List.mem_cons_self)
        (hbodies response (List.mem_cons_of_mem _ List.mem_cons_self)) hrequest hresponse hcontent
    have hhead : IsHead "service" (headingAttributes fullName portId) :=
      isHead_heading (by decide) hfullName portId
    obtain ⟨events, hevents, hlexes⟩ := htext.lexes hhead hinner
    refine ⟨events, hlexes, fun rest => ?_⟩
    rw [← List.append_nil (headingAttributes fullName portId)] at hevents
    cases hevents with
    | closed hwritten =>
      rw [opening_append]
      refine definitionsFrom_opening (by simp) ?_
      rw [openDefinition, if_neg (by simp), if_pos rfl,
        heading_of_perm hportId (.omitted rfl) hwritten]
      show (sectionsFrom earlier.reverse fullName ⟨none, none⟩ _ >>= _) = _
      rw [hread]
      rfl
    | empty hwritten =>
      have hnone : found = ⟨none, none⟩ := by
        have hclose := hread fullName []
        rw [List.nil_append, sectionsFrom] at hclose
        exact (Prod.mk.inj (Except.ok.inj hclose)).1.symm
      refine definitionsFrom_empty (by simp) ?_ rest
      rw [emptyDefinition, if_neg (by simp), if_pos rfl,
        heading_of_perm hportId (.omitted rfl) hwritten, hnone]
      rfl

/-- Definitions are read back and added to the known ones. -/
theorem DefinitionsText.reads {earlier definitions : List Definition} {text : List Char}
    (h : WritableAfter earlier definitions) (htext : DefinitionsText definitions text) :
    ∃ events, Lexes text events ∧ ∀ rest,
      definitionsFrom true earlier.reverse (events ++ rest) =
        definitionsFrom true (earlier ++ definitions).reverse rest := by
  induction htext generalizing earlier with
  | nil =>
    refine ⟨[], Lexes.blank isLayout_nil, fun rest => ?_⟩
    rw [List.append_nil, List.nil_append]
  | @cons definition definitions text others htext _ ih =>
    obtain ⟨first, hfirst, hreadFirst⟩ := htext.reads h.1
    obtain ⟨events, hevents, hread⟩ := ih h.2
    refine ⟨first ++ events, hfirst.append hevents, fun rest => ?_⟩
    have hknown : definition :: earlier.reverse = (earlier ++ [definition]).reverse := by
      rw [List.reverse_append, List.reverse_singleton, List.singleton_append]
    rw [List.append_assoc, hreadFirst, hknown, hread, List.append_assoc, List.singleton_append]

/-! ## Documents -/

/-- A document that starts with an element has no byte order mark. -/
theorem events_of_elementText {name : String} {attributes : List Attribute}
    {content text after : List Char} {document : String}
    (htext : ElementText name attributes content text)
    (hdocument : document.toList = text ++ after) :
    events document = eventsFrom [] (text ++ after) := by
  have hlead : ∀ before rest : List Char, IsLayout before →
      (before ++ '<' :: rest).head? ≠ some '\ufeff' := by
    intro before rest hbefore
    cases before with
    | nil => simp
    | cons c before =>
      intro hhead
      have hc : c = '\ufeff' := Option.some.inj hhead
      exact absurd (hbefore c List.mem_cons_self) (by rw [hc]; decide)
  have hhead : (text ++ after).head? ≠ some '\ufeff' := by
    cases htext with
    | closed hbefore =>
      rw [List.append_assoc]
      exact hlead _ _ hbefore
    | empty hbefore =>
      rw [List.append_assoc]
      exact hlead _ _ hbefore
  rw [events, hdocument]
  split
  · rename_i heq
    exact absurd (by rw [heq]; rfl) hhead
  · rfl

/-- Reading a document of the format gives the definitions that it lists, and the writer's
documents are of the format. -/
theorem parse_of_documentText {definitions : List Definition} (h : Writable definitions) :
    (∀ style, DocumentText definitions (write style definitions)) ∧
      ∀ document, DocumentText definitions document → parse document = .ok definitions := by
  refine ⟨fun style => documentText_write style definitions, ?_⟩
  rintro document ⟨hcontent, htext, hafter, hdocument⟩
  obtain ⟨inner, hinner, hread⟩ := hcontent.reads h
  obtain ⟨found, hevents, hlexes⟩ := htext.lexes (.nil (by decide)) hinner
  have hdone : ∀ known : Known, definitionsFrom true known [] = .ok known.reverse := by
    intro known
    rw [definitionsFrom, if_pos rfl]
  have hnothing : eventsFrom [] [] = [] := by
    rw [eventsFrom]
  have hlast := Lexes.blank hafter [] []
  rw [List.append_nil, hnothing, List.append_nil] at hlast
  rw [parse, events_of_elementText htext hdocument, hlexes, hlast, List.append_nil]
  cases hevents with
  | closed =>
    rw [definitionsFrom, if_pos rfl]
    refine (hread [.closing]).trans ?_
    rw [List.nil_append, definitionsFrom, hdone, List.reverse_reverse]
  | empty =>
    rw [definitionsFrom, if_pos rfl]
    refine (hread []).trans ?_
    rw [List.nil_append, hdone, List.reverse_reverse]

/-- A union with nested arrays, padding and a constant. -/
def beacon : Definition :=
  .message "net.Beacon" (some 4294967295) (.mk
    [.mk (some "rates") (.array (.array (.primitive ⟨.floating, 16, .truncated⟩) (.dynamic 3))
        (.static 18446744073709551615)),
      .mk none (.void 64)]
    [⟨"LIMIT", ⟨.unsigned, 8, .saturated⟩, "'>'"⟩] true)

/-- A service that refers to a definition before it and to one that is defined elsewhere. -/
def query : Definition :=
  .service "net.Query" none
    (.mk [.mk (some "latest") (.compound beacon),
      .mk (some "other") (.compound (.reference "ext.Other"))] [] false) (.empty false)

/-- A definition, another one of the same name, and a service that refers to the latter are read
back from the shortest document of the writer. -/
theorem parse_write_beacon_query :
    Writable [.reference "net.Beacon", beacon, query] ∧
      parse (write ⟨true, true⟩ [.reference "net.Beacon", beacon, query]) =
        .ok [.reference "net.Beacon", beacon, query] := by
  have hbeacon : StandsFor ([.reference "net.Beacon"] ++ beacon :: []) beacon :=
    .latest (by simp)
  have hother : StandsFor [.reference "net.Beacon", beacon] (.reference "ext.Other") :=
    .external (by simp [Definition.reference, beacon, Definition.fullName])
  have hempty : ∀ earlier, (Body.empty false).Writable earlier := fun earlier =>
    ⟨by simp [Body.empty, Body.fields], by simp [Body.empty, Body.constants]⟩
  have hnamed : ∀ name, IsQuotable name → ∀ other ∈ some name, IsQuotable other := by
    simp
  have hwritable : Writable [.reference "net.Beacon", beacon, query] := by
    have hportId : 4294967295 < Text.wordSize 32 := by decide
    refine ⟨⟨by decide, by simp [Definition.reference, Definition.portId], ?_⟩,
      ⟨by decide, by simpa [beacon, Definition.portId] using hportId, ?_⟩,
      ⟨by decide, by simp [query, Definition.portId], ?_⟩, trivial⟩
    · exact List.forall_mem_singleton.mpr (hempty [])
    · have hrates : (1 ≤ 16 ∧ 16 ≤ 64) ∧ 3 < Text.wordSize 64 ∧
          18446744073709551615 < Text.wordSize 64 := by decide
      have hpadding : 1 ≤ 64 ∧ 64 ≤ 64 := by decide
      have hlimit : 1 ≤ 8 ∧ 8 ≤ 64 := by decide
      refine List.forall_mem_singleton.mpr ⟨List.forall_mem_cons.mpr ⟨⟨hnamed "rates" (by decide),
        ⟨⟨hrates.1, hrates.2.1⟩, hrates.2.2⟩, by decide⟩, ?_⟩, ?_⟩
      · exact List.forall_mem_singleton.mpr ⟨by simp [Field.name], hpadding, by decide⟩
      · exact List.forall_mem_singleton.mpr ⟨by decide, hlimit, by decide⟩
    · refine List.forall_mem_cons.mpr ⟨⟨List.forall_mem_cons.mpr ⟨?_, ?_⟩,
        by simp [Body.constants]⟩, List.forall_mem_singleton.mpr (hempty _)⟩
      · exact ⟨hnamed "latest" (by decide), ⟨by decide, hbeacon⟩, by decide⟩
      · exact List.forall_mem_singleton.mpr
          ⟨hnamed "other" (by decide), ⟨by decide, hother⟩, by decide⟩
  exact ⟨hwritable, (parse_of_documentText hwritable).2 _ ((parse_of_documentText hwritable).1 _)⟩

end DsdlHeaders.Document

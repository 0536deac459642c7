import Mathlib.Data.List.Forall2
import Mathlib.Tactic.Common
import DsdlHeaders.Document.Reader

/-!
# What the reader makes of a document

Whatever document the reader accepts, it has an **outline**: the start and end tags of its root
elements, and between them elements with everything inside them (`Item`, `Element`). The outline
has the events of the document, and each of its definitions was read as follows.

* **Types** (`DenotesType`): the element of a type other than an array says everything in its tag;
  an array holds exactly one type.
* **Members** (`DenotesMember`): a field or constant holds exactly one type, and arrays are not
  nested beyond the limit.
* **Bodies** (`DenoteBody`): every child is one field or one constant of the body, in order.
* **Definitions** (`DenotesDefinition`): of the sections of a service that have one name, the latest
  is taken.
* **Documents** (`Reads`): after the first root element, every element is a definition, whether a
  root element is open there or not, and definitions are known from then on.

Main statement: an accepted document has an outline that gives the accepted definitions
(`parse_reads`). So every accepted definition was read when those before it were known
(`exists_denotesDefinition_of_parse`), and what holds of every field that can be read holds of its
fields (`DenotesDefinition.forall_fields`).
-/

namespace DsdlHeaders.Markup

/-! ## Elements -/

/-- An element with the elements inside it. -/
inductive Element where
  | empty (tag : Tag)
  | closed (tag : Tag) (content : List Element)

namespace Element

/-- The tag of an element. -/
def tag : Element → Tag
  | .empty tag => tag
  | .closed tag _ => tag

/-- The name of an element. -/
def name (element : Element) : String :=
  element.tag.name

/-- The elements inside an element. -/
def content : Element → List Element
  | .empty _ => []
  | .closed _ content => content

mutual

/-- The events of an element. -/
def events : Element → List Event
  | .empty tag => [.empty tag]
  | .closed tag content => .opening tag :: (eventsOf content ++ [.closing])

/-- The events of elements one after the other. -/
def eventsOf : List Element → List Event
  | [] => []
  | element :: elements => element.events ++ eventsOf elements

end

end Element

/-- What stands at the top level of a document. -/
inductive Item where
  /-- The start tag of a root element. -/
  | enter (tag : Tag)
  /-- The end tag of a root element. -/
  | leave
  /-- An element with everything inside it. -/
  | element (found : Element)

/-- The events of an item. -/
def Item.events : Item → List Event
  | .enter tag => [.opening tag]
  | .leave => [.closing]
  | .element found => found.events

end DsdlHeaders.Markup

namespace DsdlHeaders.Document

open Markup
open Markup.Element (eventsOf)

/-! ## Readings -/

/-- The types that an element stands for. -/
inductive DenotesType (known : Known) : Element → DataType → Prop where
  | leaf {element : Element} {type : DataType} (hname : element.name ≠ "array")
      (htype : leafType known element.tag = .ok type) : DenotesType known element type
  | array {tag : Tag} {child : Element} {inner : DataType} {sizing : Sizing}
      (hname : tag.name = "array") (hsizing : arraySizing tag = .ok sizing)
      (hchild : DenotesType known child inner) :
      DenotesType known (.closed tag [child]) (.array inner sizing)

/-- The fields and constants that an element stands for. -/
inductive DenotesMember (known : Known) : Element → Member → Prop where
  | field {tag : Tag} {child : Element} {type : DataType} (hname : tag.name = "field")
      (hchild : DenotesType known child type) (hdepth : type.arrayDepth < maxArrayDepth) :
      DenotesMember known (.closed tag [child]) (.field (.mk (tag.get? "name") type))
  | constant {tag : Tag} {child : Element} {type : Primitive} {name literal : String}
      (hname : tag.name = "constant") (hkey : tag.get? "name" = some name)
      (hvalue : tag.get? "value" = some literal)
      (hchild : DenotesType known child (.primitive type)) :
      DenotesMember known (.closed tag [child]) (.constant ⟨name, type, literal⟩)

/-- Elements each of which is one field or one constant of a body. -/
def DenoteBody (known : Known) (children : List Element) (found : Body) : Prop :=
  ∃ members, List.Forall₂ (DenotesMember known) children members ∧
    found.fields = fieldsOf members ∧ found.constants = constantsOf members

/-- The bodies that a section of a service stands for. -/
structure DenotesSection (known : Known) (element : Element) (found : Body) : Prop where
  name : element.name = "request" ∨ element.name = "response"
  isUnion : sectionUnion element.tag = .ok found.isUnion
  body : DenoteBody known element.content found

/-- The body of the latest section of a name; without such a section it is empty. -/
def latestSection (name : String) (sections : List (Element × Body)) : Body :=
  ((sections.reverse.find? (·.1.name = name)).map Prod.snd).getD (.empty false)

/-- The definitions that an element stands for. -/
inductive DenotesDefinition (known : Known) : Element → Definition → Prop where
  | message {element : Element} {fullName : String} {portId : Option Nat} {found : Body}
      (hname : element.name = "message")
      (hheading : heading "message" element.tag = .ok (fullName, portId, found.isUnion))
      (hbody : DenoteBody known element.content found) :
      DenotesDefinition known element (.message fullName portId found)
  | service {element : Element} {fullName : String} {portId : Option Nat} {isUnion : Bool}
      {sections : List (Element × Body)} (hname : element.name = "service")
      (hheading : heading "service" element.tag = .ok (fullName, portId, isUnion))
      (hcontent : element.content = sections.map Prod.fst)
      (hsections : ∀ entry ∈ sections, DenotesSection known entry.1 entry.2) :
      DenotesDefinition known element (.service fullName portId (latestSection "request" sections)
        (latestSection "response" sections))

/-- The definitions of a document with the elements that they were read from. -/
inductive Reads : (rooted : Bool) → Known → List Item → List (Element × Definition) → Prop where
  | nil {known : Known} : Reads true known [] []
  | enter {rooted : Bool} {known : Known} {tag : Tag} {items : List Item}
      {readings : List (Element × Definition)} (hname : tag.name = "dsdl")
      (hitems : Reads true known items readings) :
      Reads rooted known (.enter tag :: items) readings
  | leave {rooted : Bool} {known : Known} {items : List Item}
      {readings : List (Element × Definition)} (hitems : Reads rooted known items readings) :
      Reads rooted known (.leave :: items) readings
  | root {rooted : Bool} {known : Known} {tag : Tag} {items : List Item}
      {readings : List (Element × Definition)} (hname : tag.name = "dsdl")
      (hitems : Reads true known items readings) :
      Reads rooted known (.element (.empty tag) :: items) readings
  | definition {known : Known} {element : Element} {found : Definition} {items : List Item}
      {readings : List (Element × Definition)} (hfound : DenotesDefinition known element found)
      (hitems : Reads true (found :: known) items readings) :
      Reads true known (.element element :: items) ((element, found) :: readings)

/-! ## Types -/

/-- Content that is passed over at some depth ends at the innermost level first. -/
theorem skipContent_succ (depth : Nat) (events : List Event) :
    skipContent (depth + 1) events = skipContent 0 events >>= skipContent depth := by
  induction hlength : events.length using Nat.strongRecOn generalizing depth events with
  | ind length ih =>
    subst hlength
    cases events with
    | nil => rfl
    | cons event events =>
      cases event with
      | fault fault => rfl
      | closing => rfl
      | empty tag => exact ih events.length (by simp) depth events rfl
      | opening tag =>
        have hinner : skipContent 1 events = skipContent 0 events >>= skipContent 0 :=
          ih events.length (by simp) 0 events rfl
        show skipContent (depth + 2) events = skipContent 1 events >>= skipContent depth
        rw [ih events.length (by simp) (depth + 1) events rfl, hinner]
        cases hskip : skipContent 0 events with
        | error error => rfl
        | ok rest =>
          have hshort : rest.length < (Event.opening tag :: events).length :=
            Nat.lt_succ_of_lt (skipContent_length_lt hskip)
          exact ih rest.length hshort depth rest rfl

/-- Content that is passed over consists of elements. -/
theorem exists_content_of_skipContent {events rest : List Event}
    (h : skipContent 0 events = .ok rest) :
    ∃ content, events = eventsOf content ++ .closing :: rest := by
  induction hlength : events.length using Nat.strongRecOn generalizing events rest with
  | ind length ih =>
    subst hlength
    cases events with
    | nil => exact absurd h (by simp [skipContent])
    | cons event events =>
      cases event with
      | fault fault => exact absurd h (by simp [skipContent])
      | closing =>
        rw [skipContent, Except.ok.injEq] at h
        exact ⟨[], by rw [h]; rfl⟩
      | empty tag =>
        rw [skipContent] at h
        obtain ⟨content, rfl⟩ := ih events.length (by simp) h rfl
        exact ⟨.empty tag :: content, rfl⟩
      | opening tag =>
        rw [skipContent, skipContent_succ] at h
        obtain ⟨middle, hinner, hmiddle⟩ := bind_eq_ok h
        have hshort : middle.length < events.length := skipContent_length_lt hinner
        obtain ⟨inner, rfl⟩ := ih events.length (by simp) hinner rfl
        obtain ⟨content, rfl⟩ := ih middle.length (Nat.lt_succ_of_lt hshort) hmiddle rfl
        exact ⟨.closed tag inner :: content, by simp [eventsOf, Element.events]⟩

/-- A type other than an array has no depth. -/
theorem arrayDepth_of_leafType {known : Known} {tag : Tag} {type : DataType}
    (h : leafType known tag = .ok type) : type.arrayDepth = 0 := by
  unfold leafType at h
  split at h
  case h_7 => exact absurd h (by simp)
  all_goals
    obtain ⟨_, _, rfl⟩ := map_eq_ok h
    rfl

/-- The end of an element whose type was read comes next. -/
theorem eq_of_closeWrapper {element : String} {events rest : List Event}
    (h : closeWrapper element events = .ok rest) : events = .closing :: rest := by
  unfold closeWrapper at h
  split at h <;> simp at h
  rw [h]

/-- A type is read from one element, and arrays use up the levels. -/
theorem exists_denotesType_of_wrappedType {known : Known} {levels : Nat} {element : String}
    {events rest : List Event} {type : DataType}
    (h : wrappedType known levels element events = .ok (type, rest)) :
    ∃ child, events = child.events ++ .closing :: rest ∧ DenotesType known child type ∧
      type.arrayDepth < levels := by
  induction levels generalizing element events rest type with
  | zero => exact absurd h (by simp [wrappedType])
  | succ levels ih =>
    cases events with
    | nil => exact absurd h (by simp [wrappedType])
    | cons event events =>
      cases event with
      | fault fault => exact absurd h (by simp [wrappedType])
      | closing => exact absurd h (by simp [wrappedType])
      | empty tag =>
        rw [wrappedType] at h
        obtain ⟨found, hfound, h⟩ := bind_eq_ok h
        obtain ⟨last, hlast, h⟩ := map_eq_ok h
        obtain ⟨rfl, rfl⟩ := Prod.mk.inj h
        split_ifs at hfound with hname
        · obtain ⟨_, _, hfound⟩ := bind_eq_ok hfound
          exact absurd hfound (by simp)
        · refine ⟨.empty tag, ?_, .leaf hname hfound, ?_⟩
          · rw [eq_of_closeWrapper hlast]
            rfl
          · rw [arrayDepth_of_leafType hfound]
            exact Nat.zero_lt_succ levels
      | opening tag =>
        rw [wrappedType] at h
        obtain ⟨⟨found, middle⟩, hfound, h⟩ := bind_eq_ok h
        obtain ⟨last, hlast, h⟩ := map_eq_ok h
        obtain ⟨rfl, rfl⟩ := Prod.mk.inj h
        have hmiddle := eq_of_closeWrapper hlast
        split_ifs at hfound with hname
        · obtain ⟨sizing, hsizing, hfound⟩ := bind_eq_ok hfound
          obtain ⟨⟨inner, after⟩, hinner, hfound⟩ := bind_eq_ok hfound
          obtain ⟨rfl, rfl⟩ := Prod.mk.inj (Except.ok.inj hfound)
          obtain ⟨child, rfl, hchild, hdepth⟩ := ih hinner
          refine ⟨.closed tag [child], ?_, .array hname hsizing hchild, Nat.succ_lt_succ hdepth⟩
          simp only at hmiddle
          simp [hmiddle, Element.events, eventsOf]
        · obtain ⟨type, htype, hfound⟩ := bind_eq_ok hfound
          obtain ⟨after, hskip, hfound⟩ := bind_eq_ok hfound
          obtain ⟨rfl, rfl⟩ := Prod.mk.inj (Except.ok.inj hfound)
          obtain ⟨content, rfl⟩ := exists_content_of_skipContent hskip
          refine ⟨.closed tag content, ?_, .leaf hname htype, ?_⟩
          · simp only at hmiddle
            simp [hmiddle, Element.events]
          · rw [arrayDepth_of_leafType htype]
            exact Nat.zero_lt_succ levels

/-! ## Bodies and sections -/

/-- An attribute that cannot be missing is there. -/
theorem get?_of_required {tag : Tag} {element key value : String}
    (h : required tag element key = .ok value) : tag.get? key = some value := by
  unfold required at h
  split at h
  · rename_i hfound
    rw [hfound, Except.ok.inj h]
  · exact absurd h (by simp)

/-- A member is read from one element. -/
theorem exists_denotesMember_of_member {known : Known} {parent : String} {tag : Tag}
    {events rest : List Event} {found : Member}
    (h : member known parent tag events = .ok (found, rest)) :
    ∃ content, events = eventsOf content ++ .closing :: rest ∧
      DenotesMember known (.closed tag content) found := by
  unfold member at h
  split_ifs at h with hfield hconstant
  · obtain ⟨⟨type, after⟩, htype, h⟩ := bind_eq_ok h
    obtain ⟨rfl, rfl⟩ := Prod.mk.inj (Except.ok.inj h)
    obtain ⟨child, rfl, hchild, hdepth⟩ := exists_denotesType_of_wrappedType htype
    exact ⟨[child], by simp [eventsOf], .field hfield hchild hdepth⟩
  · obtain ⟨name, hname, h⟩ := bind_eq_ok h
    obtain ⟨literal, hliteral, h⟩ := bind_eq_ok h
    obtain ⟨⟨type, after⟩, htype, h⟩ := bind_eq_ok h
    obtain ⟨child, rfl, hchild, -⟩ := exists_denotesType_of_wrappedType htype
    cases type with
    | primitive scalar =>
      obtain ⟨rfl, rfl⟩ := Prod.mk.inj (Except.ok.inj h)
      exact ⟨[child], by simp [eventsOf], .constant hconstant (get?_of_required hname)
        (get?_of_required hliteral) hchild⟩
    | void bits => exact absurd h (by simp)
    | array element sizing => exact absurd h (by simp)
    | compound target => exact absurd h (by simp)

/-- Members are read from elements, one from each. -/
theorem exists_denotesMember_of_membersFrom {known : Known} {parent : String}
    {events rest : List Event} {members : List Member}
    (h : membersFrom known parent events = .ok (members, rest)) :
    ∃ content, events = eventsOf content ++ .closing :: rest ∧
      List.Forall₂ (DenotesMember known) content members := by
  fun_induction membersFrom known parent events generalizing members rest with
  | case3 tail =>
    obtain ⟨rfl, rfl⟩ := Prod.mk.inj (Except.ok.inj h)
    exact ⟨[], rfl, .nil⟩
  | case8 tag events first middle hfirst _ others tail hothers ih =>
    obtain ⟨rfl, rfl⟩ := Prod.mk.inj (Except.ok.inj h)
    obtain ⟨inner, rfl, hdenotes⟩ := exists_denotesMember_of_member hfirst
    obtain ⟨content, rfl, hcontent⟩ := ih hothers
    exact ⟨.closed tag inner :: content, by simp [eventsOf, Element.events],
      .cons hdenotes hcontent⟩
  | _ => exact absurd h (by simp)

/-- A body is read from elements. -/
theorem exists_denoteBody_of_body {known : Known} {parent : String} {isUnion : Bool}
    {events rest : List Event} {found : Body}
    (h : body known parent isUnion events = .ok (found, rest)) :
    ∃ content, events = eventsOf content ++ .closing :: rest ∧ DenoteBody known content found ∧
      found.isUnion = isUnion := by
  obtain ⟨⟨members, after⟩, hmembers, h⟩ := bind_eq_ok h
  obtain ⟨rfl, rfl⟩ := Prod.mk.inj (Except.ok.inj h)
  obtain ⟨content, rfl, hcontent⟩ := exists_denotesMember_of_membersFrom hmembers
  exact ⟨content, rfl, ⟨members, hcontent, rfl, rfl⟩, rfl⟩

/-- The names of sections. -/
theorem section_name_of_check {name : String}
    (h : (decide (name = "request") || decide (name = "response")) = true) :
    name = "request" ∨ name = "response" := by
  simpa using h

/-- A section with an end tag is read from its element. -/
theorem exists_denotesSection_of_openSection {known : Known} {tag : Tag}
    {events rest : List Event} {found : Body}
    (h : openSection known tag events = .ok (found, rest)) :
    ∃ content, events = eventsOf content ++ .closing :: rest ∧
      DenotesSection known (.closed tag content) found := by
  obtain ⟨isUnion, hunion, h⟩ := bind_eq_ok h
  split_ifs at h with hname
  obtain ⟨content, rfl, hcontent, rfl⟩ := exists_denoteBody_of_body h
  exact ⟨content, rfl, section_name_of_check hname, hunion, hcontent⟩

/-- A section without an end tag is read from its element. -/
theorem denotesSection_of_emptySection {known : Known} {tag : Tag} {found : Body}
    (h : emptySection tag = .ok found) : DenotesSection known (.empty tag) found := by
  obtain ⟨isUnion, hunion, h⟩ := bind_eq_ok h
  split_ifs at h with hname
  obtain rfl := Except.ok.inj h
  exact ⟨section_name_of_check hname, hunion, [], .nil, rfl, rfl⟩

/-- Files the bodies of sections one after the other. -/
def Sections.putAll (sections : Sections) (entries : List (Element × Body)) : Sections :=
  entries.foldl (fun filed entry => filed.put entry.1.name entry.2) sections

/-- Sections are read from elements, one from each. -/
theorem exists_denotesSection_of_sectionsFrom {known : Known} {fullName : String}
    {sections found : Sections} {events rest : List Event}
    (h : sectionsFrom known fullName sections events = .ok (found, rest)) :
    ∃ entries, events = eventsOf (entries.map Prod.fst) ++ .closing :: rest ∧
      (∀ entry ∈ entries, DenotesSection known entry.1 entry.2) ∧
        found = sections.putAll entries := by
  fun_induction sectionsFrom known fullName sections events with
  | case3 sections tail =>
    obtain ⟨rfl, rfl⟩ := Prod.mk.inj (Except.ok.inj h)
    exact ⟨[], rfl, by simp, rfl⟩
  | case5 sections tag tail first hfirst ih =>
    obtain ⟨entries, rfl, hentries, rfl⟩ := ih h
    exact ⟨(.empty tag, first) :: entries, rfl,
      List.forall_mem_cons.mpr ⟨denotesSection_of_emptySection hfirst, hentries⟩, rfl⟩
  | case7 sections tag events first middle hfirst _ ih =>
    obtain ⟨content, rfl, hdenotes⟩ := exists_denotesSection_of_openSection hfirst
    obtain ⟨entries, rfl, hentries, rfl⟩ := ih h
    exact ⟨(.closed tag content, first) :: entries, by simp [eventsOf, Element.events],
      List.forall_mem_cons.mpr ⟨hdenotes, hentries⟩, rfl⟩
  | _ => exact absurd h (by simp)

/-- The latest section of each name is kept. -/
theorem Sections.putAll_eq {entries : List (Element × Body)}
    (h : ∀ entry ∈ entries, entry.1.name = "request" ∨ entry.1.name = "response")
    (sections : Sections) :
    (sections.putAll entries).request =
        ((entries.reverse.find? (·.1.name = "request")).map Prod.snd).or sections.request ∧
      (sections.putAll entries).response =
        ((entries.reverse.find? (·.1.name = "response")).map Prod.snd).or sections.response := by
  induction entries generalizing sections with
  | nil => exact ⟨rfl, rfl⟩
  | cons entry entries ih =>
    obtain ⟨hentry, hentries⟩ := List.forall_mem_cons.mp h
    obtain ⟨hrequest, hresponse⟩ := ih hentries (sections.put entry.1.name entry.2)
    have hstep : sections.putAll (entry :: entries) =
        (sections.put entry.1.name entry.2).putAll entries := rfl
    rw [hstep, hrequest, hresponse, List.reverse_cons, List.find?_append, List.find?_append]
    constructor
    · cases entries.reverse.find? (·.1.name = "request") <;>
        rcases hentry with hname | hname <;> simp [Sections.put, hname]
    · cases entries.reverse.find? (·.1.name = "response") <;>
        rcases hentry with hname | hname <;> simp [Sections.put, hname]

/-! ## Definitions -/

/-- A definition with an end tag is read from its element. -/
theorem exists_denotesDefinition_of_openDefinition {known : Known} {tag : Tag}
    {events rest : List Event} {found : Definition}
    (h : openDefinition known tag events = .ok (found, rest)) :
    ∃ content, events = eventsOf content ++ .closing :: rest ∧
      DenotesDefinition known (.closed tag content) found := by
  unfold openDefinition at h
  split_ifs at h with hmessage hservice
  · obtain ⟨⟨fullName, portId, isUnion⟩, hheading, h⟩ := bind_eq_ok h
    obtain ⟨⟨contained, after⟩, hbody, h⟩ := bind_eq_ok h
    obtain ⟨rfl, rfl⟩ := Prod.mk.inj (Except.ok.inj h)
    obtain ⟨content, rfl, hcontent, rfl⟩ := exists_denoteBody_of_body hbody
    exact ⟨content, rfl, .message hmessage hheading hcontent⟩
  · obtain ⟨⟨fullName, portId, isUnion⟩, hheading, h⟩ := bind_eq_ok h
    obtain ⟨⟨sections, after⟩, hsections, h⟩ := bind_eq_ok h
    obtain ⟨rfl, rfl⟩ := Prod.mk.inj (Except.ok.inj h)
    obtain ⟨entries, rfl, hentries, rfl⟩ := exists_denotesSection_of_sectionsFrom hsections
    obtain ⟨hrequest, hresponse⟩ :=
      Sections.putAll_eq (fun entry hentry => (hentries entry hentry).name) ⟨none, none⟩
    rw [Option.or_none] at hrequest hresponse
    refine ⟨entries.map Prod.fst, rfl, ?_⟩
    dsimp only
    rw [hrequest, hresponse]
    exact .service hservice hheading rfl hentries

/-- A definition without an end tag is read from its element. -/
theorem denotesDefinition_of_emptyDefinition {known : Known} {tag : Tag} {found : Definition}
    (h : emptyDefinition tag = .ok found) : DenotesDefinition known (.empty tag) found := by
  unfold emptyDefinition at h
  split_ifs at h with hmessage hservice
  · obtain ⟨⟨fullName, portId, isUnion⟩, hheading, h⟩ := bind_eq_ok h
    obtain rfl := Except.ok.inj h
    exact .message hmessage hheading ⟨[], .nil, rfl, rfl⟩
  · obtain ⟨⟨fullName, portId, isUnion⟩, hheading, h⟩ := bind_eq_ok h
    obtain rfl := Except.ok.inj h
    have hdenotes : DenotesDefinition known (.empty tag)
        (.service fullName portId (latestSection "request" []) (latestSection "response" [])) :=
      .service hservice hheading rfl (by simp)
    exact hdenotes

/-- Accepted events have an outline that gives the definitions. -/
theorem exists_reads_of_definitionsFrom {rooted : Bool} {known : Known} {events : List Event}
    {types : List Definition} (h : definitionsFrom rooted known events = .ok types) :
    ∃ items readings, events = items.flatMap Item.events ∧ Reads rooted known items readings ∧
      types = known.reverse ++ readings.map Prod.snd := by
  fun_induction definitionsFrom rooted known events with
  | case1 known =>
    obtain rfl := Except.ok.inj h
    exact ⟨[], [], rfl, .nil, by rw [List.map_nil, List.append_nil]⟩
  | case4 rooted known tail ih =>
    obtain ⟨items, readings, rfl, hreads, rfl⟩ := ih h
    exact ⟨.leave :: items, readings, rfl, .leave hreads, rfl⟩
  | case5 rooted known tag tail hroot ih =>
    obtain ⟨items, readings, rfl, hreads, rfl⟩ := ih h
    exact ⟨.element (.empty tag) :: items, readings, rfl, .root hroot hreads, rfl⟩
  | case8 rooted known tag tail _ hrooted found hfound ih =>
    obtain ⟨items, readings, rfl, hreads, rfl⟩ := ih h
    obtain rfl : rooted = true := by simpa using hrooted
    exact ⟨.element (.empty tag) :: items, (.empty tag, found) :: readings, rfl,
      .definition (denotesDefinition_of_emptyDefinition hfound) hreads, by simp⟩
  | case9 rooted known tag tail hroot ih =>
    obtain ⟨items, readings, rfl, hreads, rfl⟩ := ih h
    exact ⟨.enter tag :: items, readings, rfl, .enter hroot hreads, rfl⟩
  | case12 rooted known tag tail _ hrooted found rest hfound _ ih =>
    obtain ⟨content, rfl, hdenotes⟩ := exists_denotesDefinition_of_openDefinition hfound
    obtain ⟨items, readings, rfl, hreads, rfl⟩ := ih h
    obtain rfl : rooted = true := by simpa using hrooted
    exact ⟨.element (.closed tag content) :: items, (.closed tag content, found) :: readings,
      by simp [Item.events, Element.events], .definition hdenotes hreads, by simp⟩
  | _ => exact absurd h (by simp)

/-- An accepted document has an outline that gives the accepted definitions. -/
theorem parse_reads {document : String} {types : List Definition}
    (h : parse document = .ok types) :
    ∃ items readings, events document = items.flatMap Item.events ∧
      Reads false [] items readings ∧ types = readings.map Prod.snd :=
  exists_reads_of_definitionsFrom h

/-- Each definition was read from an item of the outline, after the definitions before it. -/
theorem Reads.denotes {rooted : Bool} {known : Known} {items : List Item}
    {readings before after : List (Element × Definition)} {element : Element} {found : Definition}
    (h : Reads rooted known items readings) (heq : readings = before ++ (element, found) :: after) :
    .element element ∈ items ∧
      DenotesDefinition ((before.map Prod.snd).reverse ++ known) element found := by
  induction h generalizing before with
  | nil => exact absurd heq (by simp)
  | enter _ _ ih => exact ⟨List.mem_cons_of_mem _ (ih heq).1, (ih heq).2⟩
  | leave _ ih => exact ⟨List.mem_cons_of_mem _ (ih heq).1, (ih heq).2⟩
  | root _ _ ih => exact ⟨List.mem_cons_of_mem _ (ih heq).1, (ih heq).2⟩
  | definition hfirst _ ih =>
    cases before with
    | nil =>
      obtain ⟨hpair, -⟩ := List.cons.inj heq
      obtain ⟨rfl, rfl⟩ := Prod.mk.inj hpair
      exact ⟨List.mem_cons_self, hfirst⟩
    | cons first before =>
      obtain ⟨rfl, htail⟩ := List.cons.inj heq
      obtain ⟨hmem, hdenotes⟩ := ih htail
      refine ⟨List.mem_cons_of_mem _ hmem, ?_⟩
      rw [List.map_cons, List.reverse_cons, List.append_assoc]
      exact hdenotes

/-! ## Fields -/

/-- What holds of the fields of all members holds of the fields of a body. -/
theorem DenoteBody.forall_fields {known : Known} {P : Field → Prop}
    (hP : ∀ element field, DenotesMember known element (.field field) → P field)
    {children : List Element} {found : Body} (h : DenoteBody known children found) :
    ∀ field ∈ found.fields, P field := by
  obtain ⟨members, hmembers, hfields, -⟩ := h
  rw [hfields]
  clear hfields
  induction hmembers with
  | nil => simp [fieldsOf]
  | @cons element member _ _ hfirst _ ih =>
    cases member with
    | field field => exact List.forall_mem_cons.mpr ⟨hP element field hfirst, ih⟩
    | constant constant => exact ih

/-- What holds of the fields of all members holds of the fields of the latest section. -/
theorem forall_fields_latestSection {known : Known} {P : Field → Prop}
    (hP : ∀ element field, DenotesMember known element (.field field) → P field)
    {sections : List (Element × Body)}
    (h : ∀ entry ∈ sections, DenotesSection known entry.1 entry.2) (name : String) :
    ∀ field ∈ (latestSection name sections).fields, P field := by
  unfold latestSection
  cases hfound : sections.reverse.find? (·.1.name = name) with
  | none =>
    intro field hfield
    exact absurd hfield (by simp [Body.empty, Body.fields])
  | some entry =>
    have hentry : entry ∈ sections := List.mem_reverse.mp (List.mem_of_find?_eq_some hfound)
    exact (h entry hentry).body.forall_fields hP

/-- What holds of the fields of all members holds of the fields of a definition. -/
theorem DenotesDefinition.forall_fields {known : Known} {P : Field → Prop}
    (hP : ∀ element field, DenotesMember known element (.field field) → P field)
    {element : Element} {found : Definition} (h : DenotesDefinition known element found) :
    ∀ body ∈ found.bodies, ∀ field ∈ body.fields, P field := by
  cases h with
  | message _ _ hbody => exact List.forall_mem_singleton.mpr (hbody.forall_fields hP)
  | service _ _ _ hsections =>
    exact List.forall_mem_cons.mpr ⟨forall_fields_latestSection hP hsections "request",
      List.forall_mem_singleton.mpr (forall_fields_latestSection hP hsections "response")⟩

/-- Each accepted definition was read when those before it were known. -/
theorem exists_denotesDefinition_of_parse {document : String} {types : List Definition}
    (h : parse document = .ok types) {position : Nat} {definition : Definition}
    (hdefinition : types[position]? = some definition) :
    ∃ element, DenotesDefinition (types.take position).reverse element definition := by
  obtain ⟨items, readings, -, hreads, rfl⟩ := parse_reads h
  rw [List.getElem?_map, Option.map_eq_some_iff] at hdefinition
  obtain ⟨⟨element, found⟩, hreading, rfl⟩ := hdefinition
  obtain ⟨hlt, hget⟩ := List.getElem?_eq_some_iff.mp hreading
  have hsplit : readings = readings.take position ++ (element, found) ::
      readings.drop (position + 1) := by
    rw [← hget, List.getElem_cons_drop, List.take_append_drop]
  have hdenotes := (hreads.denotes hsplit).2
  rw [List.append_nil, List.map_take] at hdenotes
  exact ⟨element, hdenotes⟩

end DsdlHeaders.Document

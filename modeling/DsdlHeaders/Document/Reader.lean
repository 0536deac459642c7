import DsdlHeaders.Document.Attributes
import DsdlHeaders.Header.TypeExpr

/-!
# Reading type-model documents

A document has a root element `dsdl` with messages and services. The body of a message, and of each
section of a service, lists fields and constants, and each of those wraps exactly one type element.

Reading goes along the events of the document. Every reader takes the events that are left and
returns what it read together with the events that are left after it; an element's reader consumes
the element's own closing event. A compound type stands for the latest definition of its name that
was read before, or for a reference if there is none; a definition is known only after its own
closing event.
-/

namespace DsdlHeaders.Document

open Markup

/-- The definitions read so far, latest first. -/
abbrev Known := List Definition

/-- The definition that a compound type stands for. -/
def Known.resolve (known : Known) (fullName : String) : Definition :=
  (known.find? (·.fullName = fullName)).getD (.reference fullName)

/-! ## Types -/

/-- Passes over the content of an element inside which `depth` further elements are open. -/
def skipContent : (depth : Nat) → List Event → Except DocumentError (List Event)
  | _, [] => .error (.shape .endsEarly)
  | _, .fault fault :: _ => .error (.markup fault)
  | depth, .opening _ :: events => skipContent (depth + 1) events
  | depth, .empty _ :: events => skipContent depth events
  | 0, .closing :: events => .ok events
  | depth + 1, .closing :: events => skipContent depth events

/-- The type that an element other than an array stands for. -/
def leafType (known : Known) (tag : Tag) : Except DocumentError DataType :=
  match tag.name with
  | "bool" => (scalar .boolean tag).map .primitive
  | "uint" => (scalar .unsigned tag).map .primitive
  | "int" => (scalar .signed tag).map .primitive
  | "float" => (scalar .floating tag).map .primitive
  | "void" => (voidWidth tag).map .void
  | "compound" => (required tag "compound" "name").map fun name => .compound (known.resolve name)
  | other => .error (.unknownElement other "type")

/-- Reads the closing event of an element whose type was read. -/
def closeWrapper (element : String) (events : List Event) : Except DocumentError (List Event) :=
  match events with
  | [] => .error (.shape (.endsInside element))
  | .fault fault :: _ => .error (.markup fault)
  | .closing :: rest => .ok rest
  | .opening _ :: _ => .error (.shape (.manyTypes element))
  | .empty _ :: _ => .error (.shape (.manyTypes element))

/-- Reads the type inside an element and the element's closing event, when arrays may still nest
`levels` deep. -/
def wrappedType (known : Known) : (levels : Nat) → (element : String) → List Event →
    Except DocumentError (DataType × List Event)
  | 0, _, _ => .error (.shape (.nestedTooDeep maxArrayDepth))
  | _ + 1, element, [] => .error (.shape (.endsInside element))
  | _ + 1, _, .fault fault :: _ => .error (.markup fault)
  | _ + 1, element, .closing :: _ => .error (.shape (.noType element))
  | _ + 1, element, .empty tag :: events =>
    let found : Except DocumentError DataType :=
      if tag.name = "array" then do
        let _ ← arraySizing tag
        .error (.shape .noElementType)
      else leafType known tag
    found >>= fun type => (closeWrapper element events).map fun rest => (type, rest)
  | levels + 1, element, .opening tag :: events =>
    let found : Except DocumentError (DataType × List Event) :=
      if tag.name = "array" then do
        let sizing ← arraySizing tag
        let (inner, rest) ← wrappedType known levels "array" events
        .ok (.array inner sizing, rest)
      else do
        let type ← leafType known tag
        let rest ← skipContent 0 events
        .ok (type, rest)
    found >>= fun read => (closeWrapper element read.2).map fun rest => (read.1, rest)

/-! ## Reading makes progress -/

/-- A bind that succeeds succeeds in both parts. -/
theorem bind_eq_ok {α β ε : Type} {x : Except ε α} {f : α → Except ε β} {b : β}
    (h : (x >>= f) = .ok b) : ∃ a, x = .ok a ∧ f a = .ok b := by
  cases x with
  | error e => simp [bind, Except.bind] at h
  | ok a => exact ⟨a, rfl, h⟩

/-- A map that succeeds succeeds in its argument. -/
theorem map_eq_ok {α β ε : Type} {x : Except ε α} {f : α → β} {b : β}
    (h : x.map f = .ok b) : ∃ a, x = .ok a ∧ f a = b := by
  cases x with
  | error e => simp [Except.map] at h
  | ok a => exact ⟨a, rfl, by simpa [Except.map] using h⟩

/-- Passing over content consumes an event. -/
theorem skipContent_length_lt {depth : Nat} {events rest : List Event}
    (h : skipContent depth events = .ok rest) : rest.length < events.length := by
  induction events generalizing depth with
  | nil => simp [skipContent] at h
  | cons event events ih =>
    cases event with
    | fault fault => simp [skipContent] at h
    | opening tag => simp only [skipContent] at h; exact Nat.lt_succ_of_lt (ih h)
    | empty tag => simp only [skipContent] at h; exact Nat.lt_succ_of_lt (ih h)
    | closing =>
      cases depth with
      | zero => simp [skipContent] at h; simp [h]
      | succ depth => simp only [skipContent] at h; exact Nat.lt_succ_of_lt (ih h)

/-- Closing an element consumes an event. -/
theorem closeWrapper_length_lt {element : String} {events rest : List Event}
    (h : closeWrapper element events = .ok rest) : rest.length < events.length := by
  unfold closeWrapper at h
  split at h <;> simp at h
  simp [h]

/-- Reading a wrapped type consumes an event. -/
theorem wrappedType_length_lt {known : Known} {levels : Nat} {element : String}
    {events rest : List Event} {type : DataType}
    (h : wrappedType known levels element events = .ok (type, rest)) :
    rest.length < events.length := by
  induction levels generalizing element events rest type with
  | zero => simp [wrappedType] at h
  | succ levels ih =>
    cases events with
    | nil => simp [wrappedType] at h
    | cons event events =>
      cases event with
      | fault fault => simp [wrappedType] at h
      | closing => simp [wrappedType] at h
      | empty tag =>
        simp only [wrappedType] at h
        obtain ⟨found, _, h⟩ := bind_eq_ok h
        obtain ⟨last, hlast, h⟩ := map_eq_ok h
        simp only [Prod.mk.injEq] at h
        obtain ⟨_, rfl⟩ := h
        exact Nat.lt_succ_of_lt (closeWrapper_length_lt hlast)
      | opening tag =>
        simp only [wrappedType] at h
        obtain ⟨⟨found, middle⟩, hfound, h⟩ := bind_eq_ok h
        obtain ⟨last, hlast, h⟩ := map_eq_ok h
        simp only [Prod.mk.injEq] at h
        obtain ⟨_, rfl⟩ := h
        have shrinks : middle.length < events.length := by
          split at hfound
          · obtain ⟨_, _, hfound⟩ := bind_eq_ok hfound
            obtain ⟨⟨_, _⟩, hinner, hfound⟩ := bind_eq_ok hfound
            simp only [Except.ok.injEq, Prod.mk.injEq] at hfound
            obtain ⟨_, rfl⟩ := hfound
            exact ih hinner
          · obtain ⟨_, _, hfound⟩ := bind_eq_ok hfound
            obtain ⟨_, hskip, hfound⟩ := bind_eq_ok hfound
            simp only [Except.ok.injEq, Prod.mk.injEq] at hfound
            obtain ⟨_, rfl⟩ := hfound
            exact skipContent_length_lt hskip
        have closes : last.length < middle.length := closeWrapper_length_lt hlast
        simp only [List.length_cons]
        omega

/-! ## Bodies -/

/-- A field or a constant. -/
inductive Member where
  | field (field : Field)
  | constant (constant : Constant)

/-- Reads a field or a constant from after its opening event. -/
def member (known : Known) (parent : String) (tag : Tag) (events : List Event) :
    Except DocumentError (Member × List Event) :=
  if tag.name = "field" then do
    let (type, rest) ← wrappedType known maxArrayDepth "field" events
    .ok (.field (.mk (tag.get? "name") type), rest)
  else if tag.name = "constant" then do
    let name ← required tag "constant" "name"
    let literal ← required tag "constant" "value"
    let (type, rest) ← wrappedType known maxArrayDepth "constant" events
    match type with
    | .primitive scalar => .ok (.constant ⟨name, scalar, literal⟩, rest)
    | other => .error (.invalidAttribute "constant" "type" other.describe)
  else .error (.unknownElement tag.name parent)

/-- Reading a member consumes an event. -/
theorem member_length_lt {known : Known} {parent : String} {tag : Tag} {events rest : List Event}
    {found : Member} (h : member known parent tag events = .ok (found, rest)) :
    rest.length < events.length := by
  unfold member at h
  split at h
  · obtain ⟨⟨_, _⟩, htype, h⟩ := bind_eq_ok h
    simp only [Except.ok.injEq, Prod.mk.injEq] at h
    obtain ⟨_, rfl⟩ := h
    exact wrappedType_length_lt htype
  · split at h
    · obtain ⟨_, _, h⟩ := bind_eq_ok h
      obtain ⟨_, _, h⟩ := bind_eq_ok h
      obtain ⟨⟨type, _⟩, htype, h⟩ := bind_eq_ok h
      cases type <;> simp only [Except.ok.injEq, Prod.mk.injEq, reduceCtorEq] at h
      obtain ⟨_, rfl⟩ := h
      exact wrappedType_length_lt htype
    · simp at h

/-- Reads the members of a body and the closing event of the element around them. -/
def membersFrom (known : Known) (parent : String) (events : List Event) :
    Except DocumentError (List Member × List Event) :=
  match events with
  | [] => .error (.shape (.endsInside parent))
  | .fault fault :: _ => .error (.markup fault)
  | .closing :: rest => .ok ([], rest)
  | .empty tag :: _ =>
    if tag.name = "field" || tag.name = "constant" then
      .error (.shape (.emptyMember tag.name parent))
    else .error (.unknownElement tag.name parent)
  | .opening tag :: events =>
    match h : member known parent tag events with
    | .error error => .error error
    | .ok (first, rest) =>
      have : rest.length < events.length := member_length_lt h
      match membersFrom known parent rest with
      | .error error => .error error
      | .ok (others, rest) => .ok (first :: others, rest)
termination_by events.length

/-- The fields among the members. -/
def fieldsOf (members : List Member) : List Field :=
  members.filterMap fun
    | .field field => some field
    | .constant _ => none

/-- The constants among the members. -/
def constantsOf (members : List Member) : List Constant :=
  members.filterMap fun
    | .field _ => none
    | .constant constant => some constant

/-- Reads a body and the closing event of the element around it. -/
def body (known : Known) (parent : String) (isUnion : Bool) (events : List Event) :
    Except DocumentError (Body × List Event) := do
  let (members, rest) ← membersFrom known parent events
  .ok (.mk (fieldsOf members) (constantsOf members) isUnion, rest)

/-- Reading members consumes an event. -/
theorem membersFrom_length_lt {known : Known} {parent : String} {events rest : List Event}
    {members : List Member} (h : membersFrom known parent events = .ok (members, rest)) :
    rest.length < events.length := by
  fun_induction membersFrom known parent events generalizing members rest <;> simp_all
  omega

/-- Reading a body consumes an event. -/
theorem body_length_lt {known : Known} {parent : String} {isUnion : Bool}
    {events rest : List Event} {found : Body}
    (h : body known parent isUnion events = .ok (found, rest)) :
    rest.length < events.length := by
  obtain ⟨⟨_, _⟩, hmembers, h⟩ := bind_eq_ok h
  simp only [Except.ok.injEq, Prod.mk.injEq] at h
  obtain ⟨_, rfl⟩ := h
  exact membersFrom_length_lt hmembers

/-! ## Services -/

/-- The sections of a service read so far. -/
structure Sections where
  request : Option Body
  response : Option Body

/-- Files a section under its name. A later section of the same name takes the place of an earlier
one. -/
def Sections.put (sections : Sections) (name : String) (found : Body) : Sections :=
  if name = "request" then { sections with request := some found }
  else { sections with response := some found }

/-- Reads a section from after its opening event. The union flag is looked at before the name. -/
def openSection (known : Known) (tag : Tag) (events : List Event) :
    Except DocumentError (Body × List Event) := do
  let isUnion ← sectionUnion tag
  if tag.name = "request" || tag.name = "response" then
    body known tag.name isUnion events
  else .error (.unknownElement tag.name "service")

/-- Reads an empty section. -/
def emptySection (tag : Tag) : Except DocumentError Body := do
  let isUnion ← sectionUnion tag
  if tag.name = "request" || tag.name = "response" then .ok (.empty isUnion)
  else .error (.unknownElement tag.name "service")

/-- Reading a section consumes an event. -/
theorem openSection_length_lt {known : Known} {tag : Tag} {events rest : List Event}
    {found : Body} (h : openSection known tag events = .ok (found, rest)) :
    rest.length < events.length := by
  obtain ⟨_, _, h⟩ := bind_eq_ok h
  split at h
  · exact body_length_lt h
  · simp at h

/-- Reads the sections of a service and the closing event of the service. -/
def sectionsFrom (known : Known) (fullName : String) (sections : Sections)
    (events : List Event) : Except DocumentError (Sections × List Event) :=
  match events with
  | [] => .error (.shape (.endsInsideService fullName))
  | .fault fault :: _ => .error (.markup fault)
  | .closing :: rest => .ok (sections, rest)
  | .empty tag :: rest =>
    match emptySection tag with
    | .error error => .error error
    | .ok found => sectionsFrom known fullName (sections.put tag.name found) rest
  | .opening tag :: events =>
    match h : openSection known tag events with
    | .error error => .error error
    | .ok (found, rest) =>
      have : rest.length < events.length := openSection_length_lt h
      sectionsFrom known fullName (sections.put tag.name found) rest
termination_by events.length

/-- Reading sections consumes an event. -/
theorem sectionsFrom_length_lt {known : Known} {fullName : String} {sections found : Sections}
    {events rest : List Event}
    (h : sectionsFrom known fullName sections events = .ok (found, rest)) :
    rest.length < events.length := by
  fun_induction sectionsFrom known fullName sections events <;> simp_all
  all_goals omega

/-! ## Definitions -/

/-- Reads a message or a service from after its opening event. -/
def openDefinition (known : Known) (tag : Tag) (events : List Event) :
    Except DocumentError (Definition × List Event) :=
  if tag.name = "message" then do
    let (fullName, portId, isUnion) ← heading "message" tag
    let (found, rest) ← body known "message" isUnion events
    .ok (.message fullName portId found, rest)
  else if tag.name = "service" then do
    let (fullName, portId, _) ← heading "service" tag
    let (found, rest) ← sectionsFrom known fullName ⟨none, none⟩ events
    let section? := fun (part : Option Body) => part.getD (.empty false)
    .ok (.service fullName portId (section? found.request) (section? found.response), rest)
  else .error (.unknownElement tag.name "dsdl")

/-- Reads a message or a service that is an empty element. -/
def emptyDefinition (tag : Tag) : Except DocumentError Definition :=
  if tag.name = "message" then do
    let (fullName, portId, isUnion) ← heading "message" tag
    .ok (.message fullName portId (.empty isUnion))
  else if tag.name = "service" then do
    let (fullName, portId, _) ← heading "service" tag
    .ok (.service fullName portId (.empty false) (.empty false))
  else .error (.unknownElement tag.name "dsdl")

/-- Reading a definition consumes an event. -/
theorem openDefinition_length_lt {known : Known} {tag : Tag} {events rest : List Event}
    {found : Definition} (h : openDefinition known tag events = .ok (found, rest)) :
    rest.length < events.length := by
  unfold openDefinition at h
  split at h
  · obtain ⟨⟨_, _, _⟩, _, h⟩ := bind_eq_ok h
    obtain ⟨⟨_, _⟩, hbody, h⟩ := bind_eq_ok h
    simp only [Except.ok.injEq, Prod.mk.injEq] at h
    obtain ⟨_, rfl⟩ := h
    exact body_length_lt hbody
  · split at h
    · obtain ⟨⟨_, _, _⟩, _, h⟩ := bind_eq_ok h
      obtain ⟨⟨_, _⟩, hsections, h⟩ := bind_eq_ok h
      simp only [Except.ok.injEq, Prod.mk.injEq] at h
      obtain ⟨_, rfl⟩ := h
      exact sectionsFrom_length_lt hsections
    · simp at h

/-- Reads definitions to the end of the document. Before the root element was seen no definition is
allowed; closing events at this level say nothing. -/
def definitionsFrom (rooted : Bool) (known : Known) (events : List Event) :
    Except DocumentError (List Definition) :=
  match events with
  | [] => if rooted then .ok known.reverse else .error (.shape .noRoot)
  | .fault fault :: _ => .error (.markup fault)
  | .closing :: rest => definitionsFrom rooted known rest
  | .empty tag :: rest =>
    if tag.name = "dsdl" then definitionsFrom true known rest
    else if !rooted then .error (.unknownElement tag.name "dsdl")
    else
      match emptyDefinition tag with
      | .error error => .error error
      | .ok found => definitionsFrom rooted (found :: known) rest
  | .opening tag :: events =>
    if tag.name = "dsdl" then definitionsFrom true known events
    else if !rooted then .error (.unknownElement tag.name "dsdl")
    else
      match h : openDefinition known tag events with
      | .error error => .error error
      | .ok (found, rest) =>
        have : rest.length < events.length := openDefinition_length_lt h
        definitionsFrom rooted (found :: known) rest
termination_by events.length

/-- The definitions of a document, in document order. -/
def parse (document : String) : Except DocumentError (List Definition) :=
  definitionsFrom false [] (events document)

end DsdlHeaders.Document

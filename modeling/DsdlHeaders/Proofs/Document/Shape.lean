import DsdlHeaders.Proofs.Document.Outline

/-!
# The documented shape of documents

A document has the **documented shape** (`Documented`) when every definition stands inside a root
element that is open there and closed before the end, no service repeats a section, and every field
and constant of the document is one entry of the definitions read from it.

The reader asks for less. Which of the documents that it accepts have the documented shape is
decided by one pass over the tags (`isStrict`), which remembers for each open root element whether a
definition stands in it and for each open service which sections were seen:

* **Roots**: an item lies inside a closed root element exactly when a root element is open before it
  and the items after it close that element (`insideRoot_iff`).
* **One pass**: on an outline the pass succeeds exactly when every definition is guarded in this way
  and has each section at most once (`isStrict_iff`).
* **Members**: with each section at most once, the latest section of a name is the only one, so no
  field or constant is lost (`keepsMembers_of_sectionsOnce`).

Main statement: an accepted document has the documented shape if and only if the pass succeeds
(`documented_iff_isStrict`). Three accepted documents without that shape are in
`not_documented_of_accepted`.
-/

namespace DsdlHeaders.Document

open Markup
open Markup.Element (eventsOf)

/-! ## The documented shape -/

/-- Items that close all root elements that they open and no others. -/
inductive Balanced : List Item → Prop where
  | nil : Balanced []
  | element {found : Element} {items : List Item} (hitems : Balanced items) :
      Balanced (.element found :: items)
  | root {tag : Tag} {inner items : List Item} (hinner : Balanced inner)
      (hitems : Balanced items) : Balanced (.enter tag :: (inner ++ .leave :: items))

/-- Between these items a root element is open, and it is closed later. -/
def InsideRoot (before after : List Item) : Prop :=
  ∃ outer tag inner middle rest, before = outer ++ .enter tag :: inner ∧ Balanced inner ∧
    after = middle ++ .leave :: rest ∧ Balanced middle

/-- The fields and constants inside the sections of a name. -/
def sectionContent (name : String) (element : Element) : List Element :=
  (element.content.filter (·.name = name)).flatMap Element.content

/-- Every field and constant inside an element is one entry of the definition. -/
def KeepsMembers (known : Known) (element : Element) : Definition → Prop
  | .message _ _ found => DenoteBody known element.content found
  | .service _ _ request response =>
    DenoteBody known (sectionContent "request" element) request ∧
      DenoteBody known (sectionContent "response" element) response

/-- No section stands twice in a service. -/
def SectionsOnce (element : Element) : Prop :=
  element.name = "service" → element.content.countP (·.name = "request") ≤ 1 ∧
    element.content.countP (·.name = "response") ≤ 1

/-- An outline of the documented shape. -/
structure IsDocumented (items : List Item) (readings : List (Element × Definition)) : Prop where
  inside : ∀ before element after, items = before ++ .element element :: after →
    element.name ≠ "dsdl" → InsideRoot before after
  once : ∀ element, .element element ∈ items → SectionsOnce element
  kept : ∀ before element found after, readings = before ++ (element, found) :: after →
    KeepsMembers (before.map Prod.snd).reverse element found

/-- A document of the documented shape, with its definitions. -/
def Documented (document : String) (types : List Definition) : Prop :=
  ∃ items readings, events document = items.flatMap Item.events ∧
    Reads false [] items readings ∧ types = readings.map Prod.snd ∧ IsDocumented items readings

/-! ## The pass over the tags -/

/-- What is remembered about an open element. -/
inductive Frame where
  /-- A root element, and whether a definition stands in it. -/
  | root (filled : Bool)
  /-- A service, and which of its sections were seen. -/
  | service (request response : Bool)
  /-- Any other element. -/
  | other
deriving DecidableEq

/-- Notes that an element of this name starts, and what to remember about it; nothing if it may not
stand there. -/
def nest? : List Frame → (name : String) → Option (Frame × List Frame)
  | [], name => if name = "dsdl" then some (.root false, []) else none
  | .root filled :: outer, name =>
    if name = "dsdl" then some (.root false, .root filled :: outer)
    else if name = "service" then some (.service false false, .root true :: outer)
    else some (.other, .root true :: outer)
  | .service request response :: outer, name =>
    if name = "request" then
      if request then none else some (.other, .service true response :: outer)
    else if response then none
    else some (.other, .service request true :: outer)
  | .other :: outer, _ => some (.other, .other :: outer)

/-- Do the tags keep to the documented shape? A root element with definitions may not be left
open. -/
def isStrict : List Frame → List Event → Bool
  | frames, [] => frames.all (· ≠ .root true)
  | _, .fault _ :: _ => false
  | frames, .closing :: events => isStrict frames.tail events
  | frames, .empty tag :: events =>
    match nest? frames tag.name with
    | some (_, outer) => isStrict outer events
    | none => false
  | frames, .opening tag :: events =>
    match nest? frames tag.name with
    | some (frame, outer) => isStrict (frame :: outer) events
    | none => false

/-! ## Root elements -/

/-- How many root elements are open after some items. -/
def openRoots : (opened : Nat) → List Item → Nat
  | opened, [] => opened
  | opened, .enter _ :: items => openRoots (opened + 1) items
  | opened, .leave :: items => openRoots (opened - 1) items
  | opened, .element _ :: items => openRoots opened items

/-- Is the root element that is open `depth` levels further out closed by these items? -/
def closes : (depth : Nat) → List Item → Bool
  | _, [] => false
  | depth, .enter _ :: items => closes (depth + 1) items
  | 0, .leave :: _ => true
  | depth + 1, .leave :: items => closes depth items
  | depth, .element _ :: items => closes depth items

/-- Items one after the other. -/
theorem openRoots_append (opened : Nat) (first second : List Item) :
    openRoots opened (first ++ second) = openRoots (openRoots opened first) second := by
  induction first generalizing opened with
  | nil => rfl
  | cons item first ih => cases item <;> exact ih _

namespace Balanced

/-- Balanced items one after the other. -/
theorem append {first second : List Item} (hfirst : Balanced first) (hsecond : Balanced second) :
    Balanced (first ++ second) := by
  induction hfirst with
  | nil => exact hsecond
  | element _ ih => exact .element ih
  | root hinner _ _ ih =>
    rw [List.cons_append, List.append_assoc]
    exact .root hinner ih

/-- Balanced items leave the open root elements as they are. -/
theorem openRoots_eq {items : List Item} (h : Balanced items) (opened : Nat) :
    openRoots opened items = opened := by
  induction h generalizing opened with
  | nil => rfl
  | element _ ih => exact ih opened
  | root _ _ ihinner ih =>
    rw [openRoots, openRoots_append, ihinner, openRoots]
    exact ih opened

/-- Balanced items close none of the root elements around them. -/
theorem closes_append {items : List Item} (h : Balanced items) (depth : Nat) (rest : List Item) :
    closes depth (items ++ rest) = closes depth rest := by
  induction h generalizing depth rest with
  | nil => rfl
  | element _ ih => exact ih depth rest
  | root _ _ ihinner ih =>
    rw [List.cons_append, List.append_assoc, closes, ihinner, List.cons_append, closes]
    exact ih depth rest

end Balanced

/-- A root element is closed after balanced items, and then the ones around it. -/
theorem exists_balanced_of_closes {depth : Nat} {items : List Item}
    (h : closes depth items = true) :
    ∃ middle rest, items = middle ++ .leave :: rest ∧ Balanced middle ∧
      (depth ≠ 0 → closes (depth - 1) rest = true) := by
  induction hlength : items.length using Nat.strongRecOn generalizing depth items with
  | ind length ih =>
    subst hlength
    cases items with
    | nil => exact absurd h (by simp [closes])
    | cons item items =>
      cases item with
      | element found =>
        rw [closes] at h
        obtain ⟨middle, rest, rfl, hmiddle, hrest⟩ := ih items.length (by simp) h rfl
        exact ⟨.element found :: middle, rest, rfl, .element hmiddle, hrest⟩
      | leave =>
        refine ⟨[], items, rfl, .nil, fun hdepth => ?_⟩
        obtain ⟨depth, rfl⟩ := Nat.exists_eq_succ_of_ne_zero hdepth
        exact h
      | enter tag =>
        rw [closes] at h
        obtain ⟨inner, after, rfl, hinner, hafter⟩ := ih items.length (by simp) h rfl
        have hclose := hafter (Nat.succ_ne_zero depth)
        have hshort : after.length < (Item.enter tag :: (inner ++ .leave :: after)).length := by
          simp only [List.length_cons, List.length_append]
          omega
        obtain ⟨middle, rest, rfl, hmiddle, hrest⟩ := ih after.length hshort hclose rfl
        exact ⟨.enter tag :: (inner ++ .leave :: middle), rest, by simp, .root hinner hmiddle,
          hrest⟩

/-- Items after which a root element is open end with its start tag and balanced items. -/
theorem exists_balanced_of_openRoots {items : List Item} (h : 0 < openRoots 0 items) :
    ∃ outer tag inner, items = outer ++ .enter tag :: inner ∧ Balanced inner := by
  induction hlength : items.length using Nat.strongRecOn generalizing items with
  | ind length ih =>
    subst hlength
    rcases List.eq_nil_or_concat' items with rfl | ⟨init, item, rfl⟩
    · exact absurd h (by simp [openRoots])
    · rw [openRoots_append] at h
      cases item with
      | element found =>
        obtain ⟨outer, tag, inner, rfl, hinner⟩ := ih init.length (by simp) h rfl
        exact ⟨outer, tag, inner ++ [.element found], by simp, hinner.append (.element .nil)⟩
      | enter tag => exact ⟨init, tag, [], rfl, .nil⟩
      | leave =>
        -- two root elements are open before this end tag, one inside the other
        have hinit : 0 < openRoots 0 init - 1 := h
        obtain ⟨outer, tag, inner, rfl, hinner⟩ := ih init.length (by simp) (by omega) rfl
        rw [openRoots_append, openRoots, hinner.openRoots_eq] at hinit
        obtain ⟨outermost, around, before, rfl, hbefore⟩ :=
          ih outer.length (by simp) (by omega) rfl
        exact ⟨outermost, around, before ++ .enter tag :: (inner ++ [.leave]), by simp,
          hbefore.append (.root hinner .nil)⟩

/-- A root element around a place is one that is open before it and closed after it. -/
theorem insideRoot_iff {before after : List Item} :
    InsideRoot before after ↔ 0 < openRoots 0 before ∧ closes 0 after = true := by
  constructor
  · rintro ⟨outer, tag, inner, middle, rest, rfl, hinner, rfl, hmiddle⟩
    rw [openRoots_append, openRoots, hinner.openRoots_eq, hmiddle.closes_append]
    exact ⟨Nat.succ_pos _, rfl⟩
  · rintro ⟨hbefore, hafter⟩
    obtain ⟨outer, tag, inner, rfl, hinner⟩ := exists_balanced_of_openRoots hbefore
    obtain ⟨middle, rest, rfl, hmiddle, -⟩ := exists_balanced_of_closes hafter
    exact ⟨outer, tag, inner, middle, rest, rfl, hinner, rfl, hmiddle⟩

/-! ## The pass over an outline -/

mutual

/-- Nothing is asked of an element inside an element of no interest. -/
theorem isStrict_other_events (frames : List Frame) (rest : List Event) :
    (element : Element) → isStrict (.other :: frames) (element.events ++ rest) =
      isStrict (.other :: frames) rest
  | .empty tag => rfl
  | .closed tag content => by
    rw [Element.events, List.cons_append, List.append_assoc]
    exact isStrict_other_eventsOf (.other :: frames) ([.closing] ++ rest) content

/-- Nothing is asked of the elements inside an element of no interest. -/
theorem isStrict_other_eventsOf (frames : List Frame) (rest : List Event) :
    (content : List Element) → isStrict (.other :: frames) (eventsOf content ++ rest) =
      isStrict (.other :: frames) rest
  | [] => rfl
  | element :: content => by
    rw [eventsOf, List.append_assoc, isStrict_other_events frames _ element]
    exact isStrict_other_eventsOf frames rest content

end

/-- An element of no interest is passed over. -/
theorem isStrict_element {frames outer : List Frame} {element : Element}
    (h : nest? frames element.name = some (.other, outer)) (rest : List Event) :
    isStrict frames (element.events ++ rest) = isStrict outer rest := by
  cases element with
  | empty tag =>
    show isStrict frames (.empty tag :: rest) = _
    rw [isStrict, show nest? frames tag.name = _ from h]
  | closed tag content =>
    rw [Element.events, List.cons_append, List.append_assoc, isStrict,
      show nest? frames tag.name = _ from h]
    exact isStrict_other_eventsOf outer (.closing :: rest) content

/-- An element that may not stand there is turned down. -/
theorem isStrict_of_nest?_eq_none {frames : List Frame} {element : Element}
    (h : nest? frames element.name = none) (rest : List Event) :
    isStrict frames (element.events ++ rest) = false := by
  cases element with
  | empty tag =>
    show isStrict frames (.empty tag :: rest) = _
    rw [isStrict, show nest? frames tag.name = _ from h]
  | closed tag content =>
    rw [Element.events, List.cons_append, isStrict, show nest? frames tag.name = _ from h]

/-- The sections of a service pass if none of them stands twice. -/
theorem isStrict_sections {content : List Element}
    (h : ∀ element ∈ content, element.name = "request" ∨ element.name = "response")
    (request response : Bool) (frames : List Frame) (rest : List Event) :
    isStrict (.service request response :: frames) (eventsOf content ++ .closing :: rest) = true ↔
      (content.countP (·.name = "request") + request.toNat ≤ 1 ∧
        content.countP (·.name = "response") + response.toNat ≤ 1) ∧
          isStrict frames rest = true := by
  induction content generalizing request response with
  | nil =>
    have hflags : request.toNat ≤ 1 ∧ response.toNat ≤ 1 :=
      ⟨Bool.toNat_le request, Bool.toNat_le response⟩
    show isStrict frames rest = true ↔ _
    simp [hflags]
  | cons element content ih =>
    obtain ⟨hname, hcontent⟩ := List.forall_mem_cons.mp h
    rw [eventsOf, List.append_assoc]
    rcases hname with hname | hname
    · cases request with
      | false =>
        have hnest : nest? (.service false response :: frames) element.name =
            some (.other, .service true response :: frames) := by
          simp [nest?, hname]
        rw [isStrict_element hnest, ih hcontent]
        simp [hname]
      | true =>
        have hnest : nest? (.service true response :: frames) element.name = none := by
          simp [nest?, hname]
        rw [isStrict_of_nest?_eq_none hnest]
        simp [hname]
    · cases response with
      | false =>
        have hnest : nest? (.service request false :: frames) element.name =
            some (.other, .service request true :: frames) := by
          simp [nest?, hname]
        rw [isStrict_element hnest, ih hcontent]
        simp [hname]
      | true =>
        have hnest : nest? (.service request true :: frames) element.name = none := by
          simp [nest?, hname]
        rw [isStrict_of_nest?_eq_none hnest]
        simp [hname]

/-- A definition passes if a root element is open around it and no section stands twice in it. -/
theorem isStrict_definition {known : Known} {element : Element} {found : Definition}
    (h : DenotesDefinition known element found) (roots : List Bool) (rest : List Event) :
    isStrict (roots.map .root) (element.events ++ rest) = true ↔
      roots ≠ [] ∧ SectionsOnce element ∧
        isStrict ((true :: roots.tail).map .root) rest = true := by
  cases roots with
  | nil =>
    have hnest : nest? [] element.name = none := by
      cases h with
      | message hname => simp [nest?, hname]
      | service hname => simp [nest?, hname]
    rw [List.map_nil, isStrict_of_nest?_eq_none hnest]
    simp
  | cons filled roots =>
    cases h with
    | message hname =>
      have hnest : nest? ((filled :: roots).map .root) element.name =
          some (.other, (true :: roots).map .root) := by
        simp [nest?, hname]
      rw [isStrict_element hnest]
      simp [SectionsOnce, hname]
    | service hname _ hcontent hsections =>
      have hsection : ∀ child ∈ element.content,
          child.name = "request" ∨ child.name = "response" := by
        intro child hchild
        rw [hcontent] at hchild
        obtain ⟨entry, hentry, rfl⟩ := List.mem_map.mp hchild
        exact (hsections entry hentry).name
      have hnest : nest? ((filled :: roots).map .root) element.name =
          some (.service false false, (true :: roots).map .root) := by
        simp [nest?, hname]
      cases element with
      | empty tag =>
        show isStrict _ (.empty tag :: rest) = true ↔ _
        rw [isStrict, show nest? _ tag.name = _ from hnest]
        simp [SectionsOnce, Element.content]
      | closed tag content =>
        rw [Element.events, List.cons_append, List.append_assoc, List.singleton_append, isStrict,
          show nest? _ tag.name = _ from hnest]
        have hpass : isStrict (.service false false :: (true :: roots).map .root)
            (eventsOf content ++ .closing :: rest) = true ↔ _ :=
          isStrict_sections hsection false false _ rest
        refine hpass.trans ?_
        simp [SectionsOnce, hname, Element.content]

/-- Every definition has an open root element around it, which is closed later, and no section
twice, when `opened` root elements are open at the start. -/
def Guarded (opened : Nat) (items : List Item) : Prop :=
  ∀ before element after, items = before ++ .element element :: after → element.name ≠ "dsdl" →
    (0 < openRoots opened before ∧ closes 0 after = true) ∧ SectionsOnce element

/-- A first item and the others. -/
theorem guarded_cons {opened : Nat} {item : Item} {items : List Item} :
    Guarded opened (item :: items) ↔
      (∀ element, item = .element element → element.name ≠ "dsdl" →
        (0 < opened ∧ closes 0 items = true) ∧ SectionsOnce element) ∧
          Guarded (openRoots opened [item]) items := by
  constructor
  · intro h
    constructor
    · rintro element rfl hname
      exact h [] element items rfl hname
    · rintro before element after rfl hname
      have hall := h (item :: before) element after rfl hname
      rwa [← List.singleton_append, openRoots_append] at hall
  · rintro ⟨hfirst, hothers⟩ before element after heq hname
    cases before with
    | nil =>
      obtain ⟨rfl, rfl⟩ := List.cons.inj heq
      exact hfirst element rfl hname
    | cons first before =>
      obtain ⟨rfl, rfl⟩ := List.cons.inj heq
      rw [← List.singleton_append, openRoots_append]
      exact hothers before element after rfl hname

/-- A definition has the name of one. -/
theorem DenotesDefinition.name_ne_dsdl {known : Known} {element : Element} {found : Definition}
    (h : DenotesDefinition known element found) : element.name ≠ "dsdl" := by
  cases h with
  | message hname => simp [hname]
  | service hname => simp [hname]

/-- Nothing follows at the end. -/
theorem guarded_nil {opened : Nat} : Guarded opened [] := by
  intro before element after heq
  exact absurd heq (by simp)

/-- A definition and what follows it. -/
theorem guarded_definition {opened : Nat} {known : Known} {element : Element}
    {found : Definition} {items : List Item} (h : DenotesDefinition known element found) :
    Guarded opened (.element element :: items) ↔
      ((0 < opened ∧ closes 0 items = true) ∧ SectionsOnce element) ∧ Guarded opened items := by
  rw [guarded_cons]
  refine and_congr_left fun _ => ⟨fun hfirst => hfirst element rfl h.name_ne_dsdl, ?_⟩
  rintro hguards other heq -
  obtain rfl := Item.element.inj heq
  exact hguards

/-- A root element may start inside root elements and at the top. -/
theorem nest?_dsdl (roots : List Bool) :
    nest? (roots.map .root) "dsdl" = some (.root false, roots.map .root) := by
  cases roots <;> rfl

/-- The start of a root element opens one without definitions. -/
theorem isStrict_enter {tag : Tag} (hname : tag.name = "dsdl") (roots : List Bool)
    (items : List Item) :
    isStrict (roots.map .root) ((Item.enter tag :: items).flatMap Item.events) =
      isStrict ((false :: roots).map .root) (items.flatMap Item.events) := by
  show isStrict _ (.opening tag :: items.flatMap Item.events) = _
  rw [isStrict, hname, nest?_dsdl]
  rfl

/-- The end of a root element leaves the innermost one. -/
theorem isStrict_leave (roots : List Bool) (items : List Item) :
    isStrict (roots.map .root) ((Item.leave :: items).flatMap Item.events) =
      isStrict (roots.tail.map .root) (items.flatMap Item.events) := by
  rw [List.map_tail]
  rfl

/-- A root element without content is passed over. -/
theorem isStrict_root {tag : Tag} (hname : tag.name = "dsdl") (roots : List Bool)
    (items : List Item) :
    isStrict (roots.map .root) ((Item.element (.empty tag) :: items).flatMap Item.events) =
      isStrict (roots.map .root) (items.flatMap Item.events) := by
  show isStrict _ (.empty tag :: items.flatMap Item.events) = _
  rw [isStrict, hname, nest?_dsdl]

/-- At the end no root element with definitions may be open. -/
theorem isStrict_end (roots : List Bool) :
    isStrict (roots.map .root) [] = true ↔ true ∉ roots := by
  rw [isStrict, List.all_map, List.all_eq_true]
  constructor
  · intro hall htrue
    exact absurd (hall true htrue) (by simp)
  · intro hnone filled hfilled
    cases filled with
    | false => rfl
    | true => exact absurd hfilled hnone

/-- Every open root element with definitions is closed by these items. -/
def ClosesFilled (roots : List Bool) (items : List Item) : Prop :=
  ∀ depth : Nat, roots[depth]? = some true → closes depth items = true

/-- Without open root elements there is none to close. -/
theorem closesFilled_nil (items : List Item) : ClosesFilled [] items :=
  fun _ hdepth => absurd hdepth (by simp)

/-- Nothing is closed at the end. -/
theorem closesFilled_end {roots : List Bool} : ClosesFilled roots [] ↔ true ∉ roots := by
  constructor
  · intro hclosed htrue
    obtain ⟨depth, hdepth⟩ := List.mem_iff_getElem?.mp htrue
    exact absurd (hclosed depth hdepth) (by simp [closes])
  · intro hnone depth hdepth
    exact absurd (List.mem_of_getElem? hdepth) hnone

/-- The innermost root element and those around it. -/
theorem closesFilled_cons {filled : Bool} {roots : List Bool} {items : List Item} :
    ClosesFilled (filled :: roots) items ↔ (filled = true → closes 0 items = true) ∧
      ∀ depth : Nat, roots[depth]? = some true → closes (depth + 1) items = true := by
  constructor
  · intro hclosed
    exact ⟨fun hfilled => hclosed 0 (congrArg some hfilled), fun depth => hclosed (depth + 1)⟩
  · rintro ⟨hinner, houter⟩ depth hdepth
    cases depth with
    | zero => exact hinner (Option.some.inj hdepth)
    | succ depth => exact houter depth hdepth

/-- A root element that starts has no definitions yet. -/
theorem closesFilled_enter {roots : List Bool} {tag : Tag} {items : List Item} :
    ClosesFilled roots (.enter tag :: items) ↔ ClosesFilled (false :: roots) items := by
  rw [closesFilled_cons]
  exact ⟨fun hclosed => ⟨by simp, hclosed⟩, And.right⟩

/-- An end tag closes the innermost root element. -/
theorem closesFilled_leave {roots : List Bool} {items : List Item} :
    ClosesFilled roots (.leave :: items) ↔ ClosesFilled roots.tail items := by
  cases roots with
  | nil => exact ⟨fun _ => closesFilled_nil _, fun _ => closesFilled_nil _⟩
  | cons filled roots =>
    rw [closesFilled_cons]
    exact ⟨And.right, fun hclosed => ⟨fun _ => rfl, hclosed⟩⟩

/-- On an outline the pass succeeds exactly when the root elements with definitions are closed and
the definitions that follow are guarded. -/
theorem isStrict_iff {rooted : Bool} {known : Known} {items : List Item}
    {readings : List (Element × Definition)} (h : Reads rooted known items readings)
    (roots : List Bool) :
    isStrict (roots.map .root) (items.flatMap Item.events) = true ↔
      ClosesFilled roots items ∧ Guarded roots.length items := by
  induction h generalizing roots with
  | nil =>
    rw [List.flatMap_nil, isStrict_end, closesFilled_end]
    exact ⟨fun hnone => ⟨hnone, guarded_nil⟩, And.left⟩
  | enter hname _ ih =>
    rw [isStrict_enter hname, ih, closesFilled_enter, guarded_cons]
    simp only [reduceCtorEq, false_implies, implies_true, true_and]
    rfl
  | leave _ ih =>
    have hlength : roots.tail.length = openRoots roots.length [.leave] := List.length_tail
    rw [isStrict_leave, ih, closesFilled_leave, guarded_cons, hlength]
    simp only [reduceCtorEq, false_implies, implies_true, true_and]
  | @root rooted known tag items readings hname _ ih =>
    have hfirst : ∀ element, Item.element (.empty tag) = .element element →
        element.name ≠ "dsdl" →
          (0 < roots.length ∧ closes 0 items = true) ∧ SectionsOnce element := by
      rintro element heq hother
      obtain rfl := Item.element.inj heq
      exact absurd hname hother
    rw [isStrict_root hname, ih, guarded_cons]
    exact ⟨fun ⟨hclosed, hguarded⟩ => ⟨hclosed, hfirst, hguarded⟩,
      fun ⟨hclosed, _, hguarded⟩ => ⟨hclosed, hguarded⟩⟩
  | @definition known element found items readings hfound _ ih =>
    rw [List.flatMap_cons, Item.events, isStrict_definition hfound, ih,
      guarded_definition hfound]
    cases roots with
    | nil => simp
    | cons filled roots =>
      have hopened : ClosesFilled (filled :: roots) (.element element :: items) ↔
          ClosesFilled (filled :: roots) items := .rfl
      rw [hopened, List.tail_cons, closesFilled_cons, closesFilled_cons]
      simp only [ne_eq, reduceCtorEq, not_false_eq_true, true_and, forall_const,
        List.length_cons, Nat.succ_pos]
      tauto

/-! ## Members -/

/-- When at most one section has a name, the body of that name has all members of the name. -/
theorem denoteBody_latestSection {known : Known} {name : String}
    {sections : List (Element × Body)}
    (hsections : ∀ entry ∈ sections, DenotesSection known entry.1 entry.2)
    (honce : (sections.map Prod.fst).countP (·.name = name) ≤ 1) :
    DenoteBody known (((sections.map Prod.fst).filter (·.name = name)).flatMap Element.content)
      (latestSection name sections) := by
  rw [List.countP_eq_length_filter] at honce
  cases hfound : sections.reverse.find? (·.1.name = name) with
  | none =>
    have hnone : (sections.map Prod.fst).filter (·.name = name) = [] := by
      rw [List.filter_eq_nil_iff]
      intro child hchild
      obtain ⟨entry, hentry, rfl⟩ := List.mem_map.mp hchild
      exact List.find?_eq_none.mp hfound entry (List.mem_reverse.mpr hentry)
    rw [hnone, latestSection, hfound]
    exact ⟨[], .nil, rfl, rfl⟩
  | some entry =>
    have hentry : entry ∈ sections := List.mem_reverse.mp (List.mem_of_find?_eq_some hfound)
    have hname : decide (entry.1.name = name) = true := by
      simpa using List.find?_some hfound
    have hmem : entry.1 ∈ (sections.map Prod.fst).filter (·.name = name) :=
      List.mem_filter.mpr ⟨List.mem_map_of_mem hentry, hname⟩
    have honly : (sections.map Prod.fst).filter (·.name = name) = [entry.1] := by
      obtain ⟨only, honly⟩ := List.length_eq_one_iff.mp
        (Nat.le_antisymm honce (List.length_pos_of_mem hmem))
      rw [honly] at hmem ⊢
      rw [List.mem_singleton.mp hmem]
    rw [honly, latestSection, hfound, List.flatMap_singleton]
    exact (hsections entry hentry).body

/-- A definition in which no section stands twice keeps all members of its element. -/
theorem keepsMembers_of_sectionsOnce {known : Known} {element : Element} {found : Definition}
    (h : DenotesDefinition known element found) (honce : SectionsOnce element) :
    KeepsMembers known element found := by
  cases h with
  | message _ _ hbody => exact hbody
  | service hname _ hcontent hsections =>
    obtain ⟨hrequest, hresponse⟩ := honce hname
    unfold KeepsMembers sectionContent
    rw [hcontent] at hrequest hresponse ⊢
    exact ⟨denoteBody_latestSection hsections hrequest,
      denoteBody_latestSection hsections hresponse⟩

/-! ## Accepted documents -/

/-- A document of the documented shape passes. -/
theorem isStrict_of_documented {document : String} {types : List Definition}
    (h : Documented document types) : isStrict [] (events document) = true := by
  obtain ⟨items, readings, hevents, hreads, -, hinside, honce, -⟩ := h
  rw [hevents]
  refine (isStrict_iff hreads []).mpr ⟨closesFilled_nil items, ?_⟩
  rintro before element after rfl hname
  exact ⟨insideRoot_iff.mp (hinside before element after rfl hname), honce element (by simp)⟩

/-- A check for acceptance that can be evaluated. -/
theorem exists_types_of_isOk {document : String} (h : (parse document).isOk = true) :
    ∃ types, parse document = .ok types := by
  cases hparse : parse document with
  | error error =>
    rw [hparse] at h
    exact absurd h (by simp [Except.isOk, Except.toBool])
  | ok types => exact ⟨types, rfl⟩

/-- An accepted document has the documented shape if and only if its tags pass. -/
theorem documented_iff_isStrict {document : String} {types : List Definition}
    (h : parse document = .ok types) :
    Documented document types ↔ isStrict [] (events document) = true := by
  refine ⟨isStrict_of_documented, fun hstrict => ?_⟩
  obtain ⟨items, readings, hevents, hreads, htypes⟩ := parse_reads h
  rw [hevents] at hstrict
  obtain ⟨-, hguarded⟩ := (isStrict_iff hreads []).mp hstrict
  have honce : ∀ element, .element element ∈ items → SectionsOnce element := by
    intro element helement hname
    obtain ⟨before, after, rfl⟩ := List.append_of_mem helement
    exact (hguarded before element after rfl (by simp [hname])).2 hname
  refine ⟨items, readings, hevents, hreads, htypes, ?_, honce, ?_⟩
  · intro before element after heq hname
    exact insideRoot_iff.mpr (hguarded before element after heq hname).1
  · intro before element found after heq
    obtain ⟨hmem, hdenotes⟩ := hreads.denotes heq
    rw [List.append_nil] at hdenotes
    exact keepsMembers_of_sectionsOnce hdenotes (honce element hmem)

/-- A service with its sections in the other order, one of them empty. -/
def bothSections : String :=
  "<dsdl>\n  <service name=\"a.S\">\n    <response union=\"1\"><field><void bits=\"3\"/></field>" ++
    "</response>\n    <request></request>\n  </service>\n</dsdl>\n"

/-- A document whose root element is left open. -/
def unclosedRoot : String :=
  "<dsdl><message name=\"a.B\"/>"

/-- A document with a definition after its root element. -/
def closedRoot : String :=
  "<dsdl/><message name=\"a.B\"/>"

/-- A service with two requests, the first of which has a field. -/
def repeatedSection : String :=
  "<dsdl><service name=\"a.S\"><request><field name=\"x\"><bool/></field></request><request/>" ++
    "</service></dsdl>"

/-- The service with both sections is accepted and has the documented shape. -/
theorem documented_bothSections :
    ∃ types, parse bothSections = .ok types ∧ Documented bothSections types := by
  have hok : (parse bothSections).isOk = true := by decide +kernel
  obtain ⟨types, htypes⟩ := exists_types_of_isOk hok
  exact ⟨types, htypes, (documented_iff_isStrict htypes).mpr (by decide +kernel)⟩

/-- A root element that is never closed, a definition after the end of the root element, and a
request that is replaced by a second one, together with its field: the three documents are accepted
and do not have the documented shape. -/
theorem not_documented_of_accepted :
    (∀ document ∈ [unclosedRoot, closedRoot, repeatedSection],
      ∃ types, parse document = .ok types ∧ ¬ Documented document types) ∧
        ((parse repeatedSection).toOption.map fun types =>
          types.map fun found => found.bodies.map fun part => part.fields.length) =
            some [[0, 0]] := by
  have hrefuted : ∀ document, (parse document).isOk = true →
      isStrict [] (events document) = false →
        ∃ types, parse document = .ok types ∧ ¬ Documented document types := by
    intro document hok hstrict
    obtain ⟨types, htypes⟩ := exists_types_of_isOk hok
    refine ⟨types, htypes, fun h => ?_⟩
    rw [isStrict_of_documented h] at hstrict
    exact absurd hstrict (by simp)
  refine ⟨?_, by decide +kernel⟩
  simp only [List.forall_mem_cons]
  exact ⟨hrefuted _ (by decide +kernel) (by decide +kernel),
    hrefuted _ (by decide +kernel) (by decide +kernel),
    hrefuted _ (by decide +kernel) (by decide +kernel), by simp⟩

end DsdlHeaders.Document

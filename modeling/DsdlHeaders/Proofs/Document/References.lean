import Mathlib.Logic.Relation
import DsdlHeaders.Proofs.Document.Outline
import DsdlHeaders.Proofs.Document.RoundTrip
import DsdlHeaders.Proofs.Header.Independence

/-!
# References point backwards

A compound type in a document names a definition, and the reader puts a definition in its place.

* **What a name stands for**: among the definitions before it the latest of that name, and a bare
  reference if there is none (`standsFor_resolve`). This holds at every position of what was read
  (`standsFor_of_parse`), whatever names the document repeats or uses too early.
* **What a definition contains** (`Definition.Contains`): the definitions that its fields refer to,
  those that their fields refer to, and so on. All of it was read before, or is a bare reference
  (`contains_cases`), and therefore no definition contains itself.

Main statement: `references_of_parse`.
-/

namespace DsdlHeaders

/-- The definitions that stand in the fields of a definition, and in the fields of those, at any
depth. -/
def Definition.Contains : Definition → Definition → Prop :=
  Relation.TransGen fun outer inner => inner ∈ outer.referenced

/-- A bare reference contains nothing. -/
theorem Definition.not_contains_reference {fullName : String} {inner : Definition} :
    ¬ (Definition.reference fullName).Contains inner := by
  intro h
  obtain ⟨first, hfirst, -⟩ := Relation.TransGen.head'_iff.mp h
  exact absurd hfirst (by simp [referenced, reference, bodies, Body.empty, Body.fields])

namespace Document

open Markup

/-! ## Names -/

/-- A name is resolved to what it stands for. -/
theorem standsFor_resolve (earlier : List Definition) (fullName : String) :
    StandsFor earlier (Known.resolve earlier.reverse fullName) := by
  rw [Known.resolve]
  cases hfound : earlier.reverse.find? (·.fullName = fullName) with
  | none =>
    rw [Option.getD_none]
    refine .external fun other hother => ?_
    have hne := List.find?_eq_none.mp hfound other (List.mem_reverse.mpr hother)
    simpa using hne
  | some target =>
    rw [Option.getD_some]
    obtain ⟨hname, later, before, hsplit, hlater⟩ := List.find?_eq_some_iff_append.mp hfound
    obtain rfl : target.fullName = fullName := by simpa using hname
    rw [List.reverse_eq_iff] at hsplit
    rw [hsplit, List.reverse_append, List.reverse_cons, List.append_assoc, List.singleton_append]
    refine .latest fun other hother => ?_
    simpa using hlater other (List.mem_reverse.mp hother)

/-! ## Types and fields -/

/-- An element other than an array holds only what its name resolves to. -/
theorem exists_resolve_of_leafType {known : Known} {tag : Tag} {target : Definition}
    (h : leafType known tag = .ok (.compound target)) :
    ∃ fullName, target = known.resolve fullName := by
  unfold leafType at h
  split at h
  case h_6 =>
    obtain ⟨fullName, -, hname⟩ := map_eq_ok h
    exact ⟨fullName, (DataType.compound.inj hname).symm⟩
  case h_7 => exact absurd h (by simp)
  all_goals
    obtain ⟨_, _, hother⟩ := map_eq_ok h
    exact absurd hother (by simp)

/-- Inside all its arrays, a type holds only what a name resolves to. -/
theorem DenotesType.exists_resolve {known : Known} {element : Element} {type : DataType}
    (h : DenotesType known element type) {target : Definition}
    (htarget : type.innermost = .compound target) :
    ∃ fullName, target = known.resolve fullName := by
  induction h with
  | @leaf element type _ htype =>
    have hshallow := arrayDepth_of_leafType htype
    cases type with
    | array element sizing => exact absurd hshallow (by simp [DataType.arrayDepth])
    | primitive scalar => exact absurd htarget (by simp [DataType.innermost])
    | void bits => exact absurd htarget (by simp [DataType.innermost])
    | compound found =>
      obtain rfl := DataType.compound.inj htarget
      exact exists_resolve_of_leafType htype
  | array _ _ _ ih => exact ih htarget

/-- A definition refers only to what names resolve to. -/
theorem DenotesDefinition.exists_resolve {known : Known} {element : Element} {found : Definition}
    (h : DenotesDefinition known element found) :
    ∀ target ∈ found.referenced, ∃ fullName, target = known.resolve fullName := by
  have hfields := h.forall_fields
    (P := fun field => ∀ target, field.type.innermost = .compound target →
      ∃ fullName, target = known.resolve fullName) ?_
  · intro target htarget
    obtain ⟨body, hbody, field, hfield, htype⟩ := Definition.mem_referenced.mp htarget
    exact hfields body hbody field hfield target htype
  · intro element field hmember target htarget
    cases hmember with
    | field _ hchild _ => exact hchild.exists_resolve htarget

/-! ## Positions -/

/-- What a definition refers to stands for its name after the definitions before it. -/
theorem standsFor_of_parse {document : String} {types : List Definition}
    (h : parse document = .ok types) {position : Nat} {definition target : Definition}
    (hdefinition : types[position]? = some definition) (htarget : target ∈ definition.referenced) :
    StandsFor (types.take position) target := by
  obtain ⟨element, hdenotes⟩ := exists_denotesDefinition_of_parse h hdefinition
  obtain ⟨fullName, rfl⟩ := hdenotes.exists_resolve target htarget
  exact standsFor_resolve _ _

/-- What a definition stands for after the first definitions of a list, by position: the latest of
its name is there, or its name is not and it is a bare reference. -/
theorem position_of_standsFor {types : List Definition} {position : Nat} {target : Definition}
    (h : StandsFor (types.take position) target) :
    (∃ index < position, types[index]? = some target ∧ ∀ later other, index < later →
      later < position → types[later]? = some other → other.fullName ≠ target.fullName) ∨
    (∀ index other, index < position → types[index]? = some other →
      other.fullName ≠ target.fullName) ∧ target = .reference target.fullName := by
  have hbefore : ∀ {index}, index < position → types[index]? = (types.take position)[index]? :=
    fun hlt => (List.getElem?_take_of_lt hlt).symm
  generalize htake : types.take position = earlier at h hbefore
  cases h with
  | @latest before after _ h =>
    have hlt : before.length < position := by
      have hlength := congrArg List.length htake
      simp only [List.length_take, List.length_append, List.length_cons] at hlength
      omega
    refine .inl ⟨before.length, hlt, by rw [hbefore hlt]; simp, ?_⟩
    intro later other hlate hlater hother
    rw [hbefore hlater, List.getElem?_append_right hlate.le,
      List.getElem?_cons, if_neg (by omega)] at hother
    exact h other (List.mem_of_getElem? hother)
  | external h =>
    refine .inr ⟨fun index other hlt hother => ?_, rfl⟩
    rw [hbefore hlt] at hother
    exact h other (List.mem_of_getElem? hother)

/-- All that a definition contains was read before it, or is a bare reference. -/
theorem contains_cases {document : String} {types : List Definition}
    (h : parse document = .ok types) {position : Nat} {definition inner : Definition}
    (hdefinition : types[position]? = some definition) (hinner : definition.Contains inner) :
    (∃ index < position, types[index]? = some inner) ∨ inner = .reference inner.fullName := by
  induction position using Nat.strongRecOn generalizing definition with
  | ind position ih =>
    obtain ⟨first, hfirst, hpath⟩ := Relation.TransGen.head'_iff.mp hinner
    rcases position_of_standsFor (standsFor_of_parse h hdefinition hfirst) with
      ⟨index, hlt, hindex, -⟩ | ⟨-, hbare⟩
    · rcases Relation.reflTransGen_iff_eq_or_transGen.mp hpath with rfl | hdeeper
      · exact .inl ⟨index, hlt, hindex⟩
      · rcases ih index hlt hindex hdeeper with ⟨earlier, hearlier, hfound⟩ | hbare
        · exact .inl ⟨earlier, hearlier.trans hlt, hfound⟩
        · exact .inr hbare
    · rcases Relation.reflTransGen_iff_eq_or_transGen.mp hpath with rfl | hdeeper
      · exact .inr hbare
      · rw [hbare] at hdeeper
        exact absurd hdeeper Definition.not_contains_reference

/-- No definition that was read contains itself. -/
theorem not_contains_self {document : String} {types : List Definition}
    (h : parse document = .ok types) {position : Nat} {definition : Definition}
    (hdefinition : types[position]? = some definition) : ¬ definition.Contains definition := by
  induction position using Nat.strongRecOn with
  | ind position ih =>
    intro hself
    rcases contains_cases h hdefinition hself with ⟨index, hlt, hindex⟩ | hbare
    · -- the definition is also there at an earlier position
      exact ih index hlt hindex hself
    · rw [hbare] at hself
      exact Definition.not_contains_reference hself

/-! ## Documents -/

/-- **References point backwards.** Let a definition of an accepted document refer to another one,
inside all arrays of a field. Then that one is the latest of its name among the definitions before,
as it was read, or there is none of its name and it is a bare reference. Hence everything that a
definition contains at any depth was read before it or is a bare reference, and no definition
contains itself. -/
theorem references_of_parse {document : String} {types : List Definition}
    (h : parse document = .ok types) {position : Nat} {definition : Definition}
    (hdefinition : types[position]? = some definition) :
    (∀ target ∈ definition.referenced,
      (∃ index < position, types[index]? = some target ∧ ∀ later other, index < later →
        later < position → types[later]? = some other → other.fullName ≠ target.fullName) ∨
      (∀ index other, index < position → types[index]? = some other →
        other.fullName ≠ target.fullName) ∧ target = .reference target.fullName) ∧
    (∀ inner, definition.Contains inner →
      (∃ index < position, types[index]? = some inner) ∨ inner = .reference inner.fullName) ∧
    ¬ definition.Contains definition :=
  ⟨fun _ htarget => position_of_standsFor (standsFor_of_parse h hdefinition htarget),
    fun _ hinner => contains_cases h hdefinition hinner, not_contains_self h hdefinition⟩

/-- A document in which a name is defined twice and referred to from the second of its definitions
and after it. -/
def repeatedNames : String :=
  "<dsdl><message name=\"B\"/>" ++
    "<message name=\"B\"><field name=\"y\"><array size=\"2\"><compound name=\"B\"/></array></field>" ++
    "</message><message name=\"C\"><field name=\"z\"><compound name=\"B\"/></field></message></dsdl>"

/-- The last message of the document refers to the second of the two messages of one name. -/
theorem references_of_repeatedNames : ∃ types last, parse repeatedNames = .ok types ∧
    types.map Definition.fullName = ["B", "B", "C"] ∧ types[2]? = some last ∧
    last.referenced.map Definition.fullName = ["B"] ∧
    (∀ target ∈ last.referenced, types[1]? = some target) ∧ ¬ last.Contains last := by
  have hreport : ((parse repeatedNames).toOption.map fun types => (types.map Definition.fullName,
      types.map fun definition => definition.referenced.map Definition.fullName)) =
      some (["B", "B", "C"], [[], ["B"], ["B"]]) := by
    decide +kernel
  cases hparse : parse repeatedNames with
  | error error =>
    rw [hparse] at hreport
    exact absurd hreport (by simp [Except.toOption])
  | ok types =>
    rw [hparse] at hreport
    obtain ⟨hnames, htargets⟩ := Prod.mk.inj (Option.some.inj hreport)
    have hname : ∀ index, (types[index]?).map Definition.fullName =
        ["B", "B", "C"][index]? := fun index => by rw [← hnames, List.getElem?_map]
    have htarget : (types[2]?).map (fun found => found.referenced.map Definition.fullName) =
        some ["B"] := by
      rw [← List.getElem?_map, htargets]
      rfl
    obtain ⟨last, hlast, hreferred⟩ := Option.map_eq_some_iff.mp htarget
    obtain ⟨hreferences, -, hself⟩ := references_of_parse hparse hlast
    refine ⟨types, last, rfl, hnames, hlast, hreferred, fun target hmem => ?_, hself⟩
    obtain ⟨second, hsecond, hsame⟩ := Option.map_eq_some_iff.mp (hname 1)
    have hrepeated : target.fullName = second.fullName := by
      have hin := List.mem_map_of_mem (f := Definition.fullName) hmem
      rw [hreferred, List.mem_singleton] at hin
      exact hin.trans hsame.symm
    rcases hreferences target hmem with ⟨index, hlt, hindex, hlatest⟩ | ⟨hnone, -⟩
    · -- the first of the two is not the latest one
      have hnot : ¬ index < 1 := fun hless =>
        absurd hrepeated.symm (hlatest 1 second hless (by omega) hsecond)
      obtain rfl : index = 1 := by omega
      exact hindex
    · exact absurd hrepeated.symm (hnone 1 second (by omega) hsecond)

end Document

end DsdlHeaders

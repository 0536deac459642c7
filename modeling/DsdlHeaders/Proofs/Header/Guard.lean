import Mathlib.Data.List.Forall2
import DsdlHeaders.Header.Context
import DsdlHeaders.Proofs.Model.Validation

/-!
# Include guards

The guard of a header is made from the full name of its definition: letters become capitals and dots
become underscores. Both steps merge characters that a full name may hold, so different names may
have the same guard, and then the second of two included headers is empty.

* **`NamesCollide`** says when this happens, without any spelling: the names are of the same length
  and hold at every position the same letter in some case, the same other character, or two marks
  out of dot and underscore.
* **`uniqueId_eq_iff`**: the identifiers of proper full names are equal exactly when the names
  collide.
* **`guard_eq_iff_namesCollide`** says the same of the contexts of a valid model, and
  `guards_not_distinct` gives a valid model in which two headers share a guard.
-/

namespace DsdlHeaders

/-! ## Names that collide -/

/-- The two marks that a guard does not tell apart. -/
def IsMark (c : Char) : Prop :=
  c = '.' ∨ c = '_'

/-- The same character up to case, or two marks. -/
def SpelledAlike (c d : Char) : Prop :=
  c.toLower = d.toLower ∨ IsMark c ∧ IsMark d

instance (c d : Char) : Decidable (SpelledAlike c d) :=
  inferInstanceAs (Decidable (_ ∨ (_ ∨ _) ∧ (_ ∨ _)))

/-- Names that are spelled alike character by character. -/
def NamesCollide (name other : String) : Prop :=
  List.Forall₂ SpelledAlike name.toList other.toList

instance (name other : String) : Decidable (NamesCollide name other) :=
  inferInstanceAs (Decidable (List.Forall₂ _ _ _))

/-! ## Characters -/

/-- The character of an identifier that stands for a character of a full name. -/
def guardChar (c : Char) : Char :=
  if c = '.' then '_' else if 'a' ≤ c && c ≤ 'z' then Char.ofNat (c.toNat - 32) else c

/-- A property of all ASCII characters, checked one by one. -/
theorem ascii_forall {P : Char → Prop} (h : ∀ n, n < 128 → P (Char.ofNat n)) {c : Char}
    (hc : c.toNat < 128) : P c := by
  have hcode := h c.toNat hc
  rwa [Char.ofNat_toNat] at hcode

/-- The code of the character that stands for an ASCII character. -/
theorem toNat_guardChar {c : Char} (hc : c.toNat < 128) :
    (guardChar c).toNat = if c.toNat = 46 then 95 else
      if 97 ≤ c.toNat ∧ c.toNat ≤ 122 then c.toNat - 32 else c.toNat := by
  apply ascii_forall (P := fun c => (guardChar c).toNat = if c.toNat = 46 then 95 else
    if 97 ≤ c.toNat ∧ c.toNat ≤ 122 then c.toNat - 32 else c.toNat) _ hc
  decide +kernel

/-- The code of an ASCII character in lower case. -/
theorem toNat_toLower {c : Char} (hc : c.toNat < 128) :
    c.toLower.toNat = if 65 ≤ c.toNat ∧ c.toNat ≤ 90 then c.toNat + 32 else c.toNat := by
  apply ascii_forall (P := fun c => c.toLower.toNat =
    if 65 ≤ c.toNat ∧ c.toNat ≤ 90 then c.toNat + 32 else c.toNat) _ hc
  decide +kernel

/-- The same character stands for two ASCII characters exactly when they are spelled alike. -/
theorem guardChar_eq_iff {c d : Char} (hc : c.toNat < 128) (hd : d.toNat < 128) :
    guardChar c = guardChar d ↔ SpelledAlike c d := by
  have hmark : ∀ e : Char, IsMark e ↔ e.toNat = 46 ∨ e.toNat = 95 := by
    intro e
    rw [IsMark, ← Char.toNat_inj, ← Char.toNat_inj]
    rfl
  rw [SpelledAlike, hmark, hmark, ← Char.toNat_inj, ← Char.toNat_inj, toNat_guardChar hc,
    toNat_guardChar hd, toNat_toLower hc, toNat_toLower hd]
  split_ifs <;> omega

/-! ## Identifiers of definitions -/

/-- A full name holds ASCII characters only. -/
theorem toNat_of_mem_fullName {name : String} (h : isFullName name = true) {c : Char}
    (hc : c ∈ name.toList) : c.toNat < 128 := by
  by_cases hdot : c = '.'
  · subst hdot
    decide
  · obtain ⟨part, hpart, hin⟩ := Text.exists_part_of_mem hdot hc
    have hidentifier := List.all_eq_true.mp h part hpart
    have hrange := Text.toNat_of_isNamePart (Text.isNamePart_of_mem hidentifier hin)
    omega

/-- An ASCII text in capitals and with underscores for dots, character by character. -/
theorem upper_replaceChar {s : List Char} (h : ∀ c ∈ s, c.toNat < 128) :
    Text.upper (Text.replaceChar '.' ['_'] s) = s.map guardChar := by
  induction s with
  | nil => rfl
  | cons c s ih =>
    have hrest := ih fun d hd => h d (List.mem_cons_of_mem _ hd)
    have hc : c.toNat < 128 := h c List.mem_cons_self
    rw [Text.upper] at hrest
    rw [Text.upper, Text.replaceChar, List.flatMap_append, hrest, List.map_cons]
    by_cases hdot : c = '.'
    · subst hdot
      rfl
    · simp [hdot, guardChar, Text.upperChar, hc]

/-- Texts whose characters are stood for alike are spelled alike. -/
theorem map_guardChar_eq_iff {s t : List Char} (hs : ∀ c ∈ s, c.toNat < 128)
    (ht : ∀ c ∈ t, c.toNat < 128) :
    s.map guardChar = t.map guardChar ↔ List.Forall₂ SpelledAlike s t := by
  induction s generalizing t with
  | nil => cases t <;> simp
  | cons c s ih =>
    cases t with
    | nil => simp
    | cons d t =>
      rw [List.forall_mem_cons] at hs ht
      rw [List.map_cons, List.map_cons, List.cons.injEq, List.forall₂_cons,
        guardChar_eq_iff hs.1 ht.1, ih hs.2 ht.2]

/-- The identifiers of two definitions are equal exactly when their names collide. -/
theorem Definition.uniqueId_eq_iff {first second : Definition}
    (hfirst : isFullName first.fullName = true) (hsecond : isFullName second.fullName = true) :
    first.uniqueId = second.uniqueId ↔ NamesCollide first.fullName second.fullName := by
  have hs : ∀ c ∈ first.fullName.toList, c.toNat < 128 := fun c => toNat_of_mem_fullName hfirst
  have ht : ∀ c ∈ second.fullName.toList, c.toNat < 128 := fun c => toNat_of_mem_fullName hsecond
  rw [uniqueId, uniqueId, String.ofList_inj, upper_replaceChar hs, upper_replaceChar ht,
    map_guardChar_eq_iff hs ht, NamesCollide]

/-! ## Guards of headers -/

/-- The names in a context are those of its definition. -/
theorem Definition.names_of_context {definition : Definition} {extension : String}
    {context : Context} (h : definition.context extension = .ok context) :
    context.names = definition.nameContext extension := by
  cases definition with
  | message fullName portId body =>
    obtain ⟨found, -, hcontext⟩ := bind_eq_ok_iff.mp h
    obtain rfl := Except.ok.inj hcontext
    rfl
  | service fullName portId request response =>
    obtain ⟨found, -, hrest⟩ := bind_eq_ok_iff.mp h
    obtain ⟨found', -, hcontext⟩ := bind_eq_ok_iff.mp hrest
    obtain rfl := Except.ok.inj hcontext
    rfl

/-- **When headers share a guard.** The contexts of two definitions of a valid model have the same
identifier, and the same guard, exactly when the full names collide. -/
theorem guard_eq_iff_namesCollide {definitions : List Definition} {first second : Definition}
    {extension : String} {context other : Context} (h : validate definitions = .ok ())
    (hfirst : first ∈ definitions) (hsecond : second ∈ definitions)
    (hcontext : first.context extension = .ok context)
    (hother : second.context extension = .ok other) :
    (context.names.uniqueId = other.names.uniqueId ↔
      NamesCollide first.fullName second.fullName) ∧
    (context.names.guard = other.names.guard ↔ NamesCollide first.fullName second.fullName) := by
  have hvalid := validate_eq_ok_iff.mp h
  have hids := Definition.uniqueId_eq_iff (hvalid.each first hfirst).name
    (hvalid.each second hsecond).name
  rw [Definition.names_of_context hcontext, Definition.names_of_context hother]
  refine ⟨hids, ?_⟩
  have hsuffix : first.uniqueId ++ "_HPP_INCLUDED" = second.uniqueId ++ "_HPP_INCLUDED" ↔
      first.uniqueId = second.uniqueId := by
    rw [← String.toList_inj, ← String.toList_inj, String.toList_append, String.toList_append,
      List.append_left_inj]
  exact hsuffix.trans hids

/-- Definitions without fields whose names differ in a mark, in case, and in a letter. -/
def similarDefinitions : List Definition :=
  [.reference "a.b_c", .reference "a_b.c", .reference "A.b_C", .reference "a.b_d"]

/-- Of the similar names, the first and the second share a guard, and the first and the last do
not. -/
theorem guard_of_similarDefinitions : ∃ context other last,
    validate similarDefinitions = .ok () ∧
    (Definition.reference "a.b_c").context defaultExtension = .ok context ∧
    (Definition.reference "a_b.c").context defaultExtension = .ok other ∧
    (Definition.reference "a.b_d").context defaultExtension = .ok last ∧
    context.names.guard = other.names.guard ∧ context.names.guard ≠ last.names.guard := by
  have hvalid : validate similarDefinitions = .ok () := by decide +kernel
  have hmember : ∀ name ∈ ["a.b_c", "a_b.c", "a.b_d"],
      Definition.reference name ∈ similarDefinitions := by
    simp [similarDefinitions]
  obtain ⟨context, hcontext⟩ : ∃ context,
    (Definition.reference "a.b_c").context defaultExtension = .ok context := ⟨_, rfl⟩
  obtain ⟨other, hother⟩ : ∃ context,
    (Definition.reference "a_b.c").context defaultExtension = .ok context := ⟨_, rfl⟩
  obtain ⟨last, hlast⟩ : ∃ context,
    (Definition.reference "a.b_d").context defaultExtension = .ok context := ⟨_, rfl⟩
  have hshared := (guard_eq_iff_namesCollide hvalid (hmember "a.b_c" (by simp))
    (hmember "a_b.c" (by simp)) hcontext hother).2
  have hapart := (guard_eq_iff_namesCollide hvalid (hmember "a.b_c" (by simp))
    (hmember "a.b_d" (by simp)) hcontext hlast).2
  refine ⟨context, other, last, hvalid, hcontext, hother, hlast, ?_, ?_⟩
  · exact hshared.mpr (by decide +kernel)
  · intro hguard
    exact absurd (hapart.mp hguard) (by decide +kernel)

/-- Guards of a valid model need not be distinct: `a.b_c` and `a_b.c` have the same one. -/
theorem guards_not_distinct : ¬ ∀ definitions : List Definition, validate definitions = .ok () →
    ∀ first ∈ definitions, ∀ second ∈ definitions, first.fullName ≠ second.fullName →
    ∀ extension context other, first.context extension = .ok context →
      second.context extension = .ok other → context.names.uniqueId ≠ other.names.uniqueId := by
  intro h
  have hvalid : validate [.reference "a.b_c", .reference "a_b.c"] = .ok () := by decide +kernel
  have hdistinct : (Definition.reference "a.b_c").fullName ≠
      (Definition.reference "a_b.c").fullName := by decide +kernel
  have hdiffer := h _ hvalid _ List.mem_cons_self _ (List.mem_cons_of_mem _ List.mem_cons_self)
    hdistinct defaultExtension _ _ rfl rfl
  exact hdiffer (by decide +kernel)

end DsdlHeaders

import Mathlib.Data.List.Sort
import DsdlHeaders.Proofs.Header.Location
import DsdlHeaders.Proofs.Header.Names
import DsdlHeaders.Proofs.Text.ByteOrder

/-!
# Include lists

The include list of a definition is the ascending list of the header paths of the compound types
inside its fields.

* **Ascending**: `insertAscending` keeps a list ascending, in the order of characters and hence in
  the order of bytes (`pairwise_includes`).
* **Exact**: an ascending list is determined by its members, so the list depends only on which
  fields there are (`includes_eq_of_perm`), not on their order or their bodies.
* **Spelling**: an include path is the path of a header below the output directory
  (`includePath_eq`). Only without an extension they differ, by the dot at the end.
-/

namespace DsdlHeaders

/-! ## Ascending lists -/

/-- A text that is put into an ascending list leaves it ascending. -/
theorem pairwise_insertAscending {text : String} {texts : List String}
    (h : texts.Pairwise (· < ·)) : (insertAscending text texts).Pairwise (· < ·) := by
  induction texts with
  | nil => exact List.pairwise_singleton _ text
  | cons head tail ih =>
    obtain ⟨hhead, htail⟩ := List.pairwise_cons.mp h
    unfold insertAscending
    split_ifs with hless hsame
    · refine List.pairwise_cons.mpr ⟨fun other hother => ?_, h⟩
      rcases List.mem_cons.mp hother with rfl | hother
      · exact hless
      · exact hless.trans (hhead other hother)
    · exact h
    · refine List.pairwise_cons.mpr ⟨fun other hother => ?_, ih htail⟩
      rcases mem_insertAscending.mp hother with rfl | hother
      · exact lt_of_le_of_ne (not_lt.mp hless) (Ne.symm hsame)
      · exact hhead other hother

namespace Definition

/-- Includes are ascending. -/
theorem pairwise_includes (definition : Definition) (extension : String) :
    (definition.includes extension).Pairwise (· < ·) := by
  unfold includes
  induction definition.referenced.map (·.includePath extension) with
  | nil => exact .nil
  | cons path paths ih => exact pairwise_insertAscending ih

/-- Includes are ascending in the order of their bytes. -/
theorem pairwise_bytes_includes (definition : Definition) (extension : String) :
    (definition.includes extension).Pairwise fun first second =>
      Text.bytes first < Text.bytes second :=
  (definition.pairwise_includes extension).imp Text.bytes_lt_of_lt

/-! ## Members -/

/-- Includes depend only on which fields there are, in whatever order and whichever body. -/
theorem includes_eq_of_perm {definition other : Definition}
    (h : (other.bodies.flatMap Body.fields).Perm (definition.bodies.flatMap Body.fields))
    (extension : String) : other.includes extension = definition.includes extension := by
  have hreferenced : ∀ target, target ∈ other.referenced ↔ target ∈ definition.referenced := by
    intro target
    have hmem : ∀ field, (∃ body ∈ other.bodies, field ∈ body.fields) ↔
        ∃ body ∈ definition.bodies, field ∈ body.fields := fun field => by
      rw [← List.mem_flatMap, ← List.mem_flatMap, h.mem_iff]
    rw [mem_referenced, mem_referenced]
    constructor
    · rintro ⟨body, hbody, field, hfield, htype⟩
      obtain ⟨found, hfound, hin⟩ := (hmem field).mp ⟨body, hbody, hfield⟩
      exact ⟨found, hfound, field, hin, htype⟩
    · rintro ⟨body, hbody, field, hfield, htype⟩
      obtain ⟨found, hfound, hin⟩ := (hmem field).mpr ⟨body, hbody, hfield⟩
      exact ⟨found, hfound, field, hin, htype⟩
  refine (other.pairwise_includes extension).eq_of_mem_iff
    (definition.pairwise_includes extension) fun path => ?_
  simp only [mem_includes, hreferenced]

/-! ## Spelling -/

/-- What follows the last part follows the joined parts. -/
theorem intercalate_append_suffix (mark : String) (parts : List String) (last suffix : String) :
    String.intercalate mark (parts ++ [last ++ suffix]) =
      String.intercalate mark (parts ++ [last]) ++ suffix := by
  cases parts with
  | nil =>
    rw [List.nil_append, List.nil_append, String.intercalate_singleton,
      String.intercalate_singleton]
  | cons part parts =>
    have hne : part :: parts ≠ [] := List.cons_ne_nil _ _
    rw [String.intercalate_append_of_ne_nil hne (List.cons_ne_nil _ _),
      String.intercalate_append_of_ne_nil hne (List.cons_ne_nil _ _),
      String.intercalate_singleton, String.intercalate_singleton, ← String.append_assoc]

/-- An include path is the path of a header, with a dot at the end if there is no extension. -/
theorem includePath_eq {definition : Definition} (extension : String)
    (h : isFullName definition.fullName = true) : definition.includePath extension =
      if extension = "" then definition.outputPath extension ++ "."
      else definition.outputPath extension := by
  rw [outputPath_eq extension h, includePath, components_eq, headerNames, fileName,
    intercalate_append_suffix]
  split_ifs with hext
  · rw [hext, String.append_empty, String.append_empty]
  · rw [String.append_assoc]

end Definition

end DsdlHeaders

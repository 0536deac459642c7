import Mathlib.Tactic.Common
import DsdlHeaders.Model.Validity

/-!
# Parts of texts

`splitOn` takes a text apart at a separator and `joinWith` puts it together again.

* **Splitting**: the parts of two texts with a separator in between are the parts of the one
  followed by the parts of the other (`splitOn_append_cons`).
* **Round trips**: joining the parts of a text gives the text (`joinWith_splitOn`), so a text is
  determined by its parts; parts without the separator are found again (`splitOn_joinWith`).
* **Replacing a separator** puts another text between the same parts (`replaceChar_eq_joinWith`),
  and what was replaced is found again (`eq_of_replaceChar_eq`).
* **The last separator**: `splitOn_eq_of_cutLast?` says that the part after the last separator is
  the last of all parts.
* **Identifiers** hold neither separators of paths nor dots (`not_mem_of_isIdentifier`).
-/

namespace DsdlHeaders.Text

variable {sep : Char}

/-! ## Splitting -/

/-- Every text has a part. -/
theorem splitOn_ne_nil (sep : Char) (s : List Char) : splitOn sep s ≠ [] := by
  cases s with
  | nil => simp [splitOn]
  | cons c s =>
    simp only [splitOn]
    split
    · simp
    · split <;> simp

/-- A character other than the separator goes to the first part. -/
theorem splitOn_cons_of_ne {c : Char} (h : c ≠ sep) (s : List Char) :
    ∃ part parts, splitOn sep s = part :: parts ∧
      splitOn sep (c :: s) = (c :: part) :: parts := by
  rcases hs : splitOn sep s with _ | ⟨part, parts⟩
  · exact absurd hs (splitOn_ne_nil sep s)
  · exact ⟨part, parts, rfl, by simp [splitOn, h, hs]⟩

/-- The parts of two texts with a separator in between. -/
theorem splitOn_append_cons (a b : List Char) :
    splitOn sep (a ++ sep :: b) = splitOn sep a ++ splitOn sep b := by
  induction a with
  | nil => exact splitOn_cons_self sep b
  | cons c a ih =>
    by_cases hc : c = sep
    · subst hc
      simp [splitOn_cons_self, ih]
    · obtain ⟨part, parts, ha, hca⟩ := splitOn_cons_of_ne hc a
      rw [hca, List.cons_append, splitOn, if_neg hc, ih, ha]
      rfl

/-- A text without the separator is its only part. -/
theorem splitOn_of_not_mem {s : List Char} (h : sep ∉ s) : splitOn sep s = [s] := by
  induction s with
  | nil => rfl
  | cons c s ih =>
    obtain ⟨hc, hs⟩ := not_or.mp (List.mem_cons.not.mp h)
    simp [splitOn, Ne.symm hc, ih hs]

/-- No part of a text holds the separator. -/
theorem not_mem_of_mem_splitOn {s part : List Char} (h : part ∈ splitOn sep s) : sep ∉ part := by
  induction s generalizing part with
  | nil =>
    rw [List.mem_singleton.mp h]
    exact List.not_mem_nil
  | cons c s ih =>
    by_cases hc : c = sep
    · subst hc
      rw [splitOn_cons_self] at h
      rcases List.mem_cons.mp h with rfl | h
      · exact List.not_mem_nil
      · exact ih h
    · obtain ⟨first, parts, hs, hcs⟩ := splitOn_cons_of_ne hc s
      rw [hs] at ih
      rw [hcs] at h
      rcases List.mem_cons.mp h with rfl | h
      · exact List.mem_cons.not.mpr (not_or.mpr ⟨Ne.symm hc, ih List.mem_cons_self⟩)
      · exact ih (List.mem_cons_of_mem _ h)

/-- A character other than the separator is in one of the parts. -/
theorem exists_part_of_mem {s : List Char} {c : Char} (hc : c ≠ sep) (hmem : c ∈ s) :
    ∃ part ∈ splitOn sep s, c ∈ part := by
  induction s with
  | nil => exact absurd hmem List.not_mem_nil
  | cons d s ih =>
    by_cases hd : d = sep
    · subst hd
      rcases List.mem_cons.mp hmem with rfl | hmem
      · exact absurd rfl hc
      · obtain ⟨part, hpart, hin⟩ := ih hmem
        exact ⟨part, by simp [splitOn_cons_self, hpart], hin⟩
    · obtain ⟨first, parts, hs, hds⟩ := splitOn_cons_of_ne hd s
      rw [hds]
      rcases List.mem_cons.mp hmem with rfl | hmem
      · exact ⟨c :: first, by simp, by simp⟩
      · obtain ⟨part, hpart, hin⟩ := ih hmem
        rw [hs] at hpart
        rcases List.mem_cons.mp hpart with rfl | hpart
        · exact ⟨d :: part, by simp, by simp [hin]⟩
        · exact ⟨part, by simp [hpart], hin⟩

/-! ## Joining -/

/-- Joining with one more part in front. -/
theorem joinWith_cons {mark part : List Char} {parts : List (List Char)} (h : parts ≠ []) :
    joinWith mark (part :: parts) = part ++ mark ++ joinWith mark parts := by
  cases parts with
  | nil => exact absurd rfl h
  | cons next parts => rfl

/-- Joining with a last part: every other part is followed by the mark. -/
theorem joinWith_concat (mark : List Char) (parts : List (List Char)) (last : List Char) :
    joinWith mark (parts ++ [last]) = parts.flatMap (· ++ mark) ++ last := by
  induction parts with
  | nil => rfl
  | cons part parts ih =>
    rw [List.cons_append, joinWith_cons (by simp), ih, List.flatMap_cons, List.append_assoc,
      List.append_assoc, List.append_assoc]

/-- Joining the parts of two lists one after the other. -/
theorem joinWith_append {mark : List Char} {parts others : List (List Char)} (h : parts ≠ [])
    (h' : others ≠ []) :
    joinWith mark (parts ++ others) = joinWith mark parts ++ mark ++ joinWith mark others := by
  induction parts with
  | nil => exact absurd rfl h
  | cons part parts ih =>
    rcases List.eq_nil_or_concat parts with rfl | ⟨lead, last, rfl⟩
    · exact joinWith_cons h'
    · have hne : lead.concat last ≠ [] := by simp
      rw [List.cons_append, joinWith_cons (by simp), joinWith_cons hne, ih hne]
      simp only [List.append_assoc]

/-- Joining is what the library calls `intercalate`. -/
theorem joinWith_eq_intercalate (mark : List Char) (parts : List (List Char)) :
    joinWith mark parts = mark.intercalate parts := by
  induction parts with
  | nil => rfl
  | cons part parts ih =>
    cases parts with
    | nil => simp [joinWith]
    | cons next parts =>
      rw [joinWith_cons (by simp), ih, List.intercalate_cons_cons, List.append_assoc]

/-- Joining the parts of a text gives the text. -/
theorem joinWith_splitOn (sep : Char) (s : List Char) : joinWith [sep] (splitOn sep s) = s := by
  induction s with
  | nil => rfl
  | cons c s ih =>
    by_cases hc : c = sep
    · subst hc
      rw [splitOn_cons_self, joinWith_cons (splitOn_ne_nil c s), ih]
      rfl
    · obtain ⟨part, parts, hs, hcs⟩ := splitOn_cons_of_ne hc s
      rw [hs] at ih
      rw [hcs]
      cases parts with
      | nil =>
        simp only [joinWith] at ih ⊢
        rw [ih]
      | cons next parts =>
        rw [joinWith_cons (by simp)] at ih ⊢
        rw [← ih]
        rfl

/-- A text is determined by its parts. -/
theorem splitOn_injective (sep : Char) : Function.Injective (splitOn sep) := by
  intro s t h
  rw [← joinWith_splitOn sep s, h, joinWith_splitOn]

/-- Parts without the separator are found again. -/
theorem splitOn_joinWith {parts : List (List Char)} (hne : parts ≠ [])
    (h : ∀ part ∈ parts, sep ∉ part) : splitOn sep (joinWith [sep] parts) = parts := by
  induction parts with
  | nil => exact absurd rfl hne
  | cons part parts ih =>
    have hpart : splitOn sep part = [part] := splitOn_of_not_mem (h part (by simp))
    by_cases hparts : parts = []
    · subst hparts
      exact hpart
    · have hrest := ih hparts fun other hother => h other (by simp [hother])
      rw [joinWith_cons hparts, List.append_assoc, List.singleton_append, splitOn_append_cons,
        hpart, hrest, List.singleton_append]

/-- Parts without the separator are determined by the joined text. -/
theorem eq_of_joinWith_eq {parts others : List (List Char)} (hne : parts ≠ []) (hne' : others ≠ [])
    (h : ∀ part ∈ parts, sep ∉ part) (h' : ∀ part ∈ others, sep ∉ part)
    (heq : joinWith [sep] parts = joinWith [sep] others) : parts = others := by
  rw [← splitOn_joinWith hne h, heq, splitOn_joinWith hne' h']

/-- What a joined text holds is in the mark or in a part. -/
theorem mem_of_mem_joinWith {mark : List Char} {parts : List (List Char)} {c : Char}
    (h : c ∈ joinWith mark parts) : c ∈ mark ∨ ∃ part ∈ parts, c ∈ part := by
  induction parts with
  | nil => exact absurd h List.not_mem_nil
  | cons part parts ih =>
    by_cases hparts : parts = []
    · subst hparts
      exact .inr ⟨part, by simp, h⟩
    · rw [joinWith_cons hparts, List.append_assoc, List.mem_append, List.mem_append] at h
      rcases h with hpart | hmark | hrest
      · exact .inr ⟨part, by simp, hpart⟩
      · exact .inl hmark
      · rcases ih hrest with hmark | ⟨other, hother, hc⟩
        · exact .inl hmark
        · exact .inr ⟨other, by simp [hother], hc⟩

/-- What a part holds is in the joined text. -/
theorem mem_joinWith {mark part : List Char} {parts : List (List Char)} {c : Char}
    (hpart : part ∈ parts) (hc : c ∈ part) : c ∈ joinWith mark parts := by
  induction parts with
  | nil => exact absurd hpart List.not_mem_nil
  | cons first parts ih =>
    by_cases hparts : parts = []
    · subst hparts
      rwa [← List.mem_singleton.mp hpart]
    · rw [joinWith_cons hparts, List.append_assoc, List.mem_append, List.mem_append]
      rcases List.mem_cons.mp hpart with rfl | hpart
      · exact .inl hc
      · exact .inr (.inr (ih hpart))

/-! ## Replacing a separator -/

/-- Replacing a separator puts the new text between the parts. -/
theorem replaceChar_eq_joinWith (new s : List Char) :
    replaceChar sep new s = joinWith new (splitOn sep s) := by
  induction s with
  | nil => rfl
  | cons c s ih =>
    rw [replaceChar_cons, ih]
    by_cases hc : c = sep
    · subst hc
      rw [if_pos rfl, splitOn_cons_self, joinWith_cons (splitOn_ne_nil c s), List.nil_append]
    · obtain ⟨part, parts, hs, hcs⟩ := splitOn_cons_of_ne hc s
      rw [if_neg hc, hcs, hs]
      cases parts with
      | nil => rfl
      | cons next parts => rfl

/-- Other characters are still there after a replacement. -/
theorem mem_replaceChar {new s : List Char} {c : Char} (hc : c ≠ sep) (h : c ∈ s) :
    c ∈ replaceChar sep new s := by
  induction s with
  | nil => exact absurd h List.not_mem_nil
  | cons d s ih =>
    rw [replaceChar_cons, List.mem_append]
    rcases List.mem_cons.mp h with rfl | h
    · exact .inl (by simp [hc])
    · exact .inr (ih h)

/-- A text is determined by its replacement if it does not hold what the new text starts with. -/
theorem eq_of_replaceChar_eq {mark : Char} {new s t : List Char} (hs : mark ∉ s) (ht : mark ∉ t)
    (h : replaceChar sep (mark :: new) s = replaceChar sep (mark :: new) t) : s = t := by
  induction s generalizing t with
  | nil =>
    cases t with
    | nil => rfl
    | cons d t =>
      rw [replaceChar_cons] at h
      split at h <;> simp [replaceChar] at h
  | cons c s ih =>
    obtain ⟨hc, hs⟩ := not_or.mp (List.mem_cons.not.mp hs)
    cases t with
    | nil =>
      rw [replaceChar_cons] at h
      split at h <;> simp [replaceChar] at h
    | cons d t =>
      obtain ⟨hd, ht⟩ := not_or.mp (List.mem_cons.not.mp ht)
      rw [replaceChar_cons, replaceChar_cons] at h
      split_ifs at h with hcsep hdsep hdsep
      · rw [ih hs ht (List.append_cancel_left h), hcsep, hdsep]
      · exact absurd (List.cons.inj h).1 hd
      · exact absurd (List.cons.inj h).1.symm hc
      · obtain ⟨hcd, hrest⟩ := List.cons.inj h
        rw [ih hs ht hrest, hcd]

/-! ## The last separator -/

/-- Without a separator there is no last one. -/
theorem cutLast?_of_not_mem {s : List Char} (h : sep ∉ s) : cutLast? sep s = none := by
  induction s with
  | nil => rfl
  | cons c s ih =>
    obtain ⟨hc, hs⟩ := not_or.mp (List.mem_cons.not.mp h)
    simp [cutLast?, ih hs, Ne.symm hc]

/-- A text in which no last separator is found holds none. -/
theorem not_mem_of_cutLast?_eq_none {s : List Char} (h : cutLast? sep s = none) : sep ∉ s := by
  induction s with
  | nil => simp
  | cons c s ih =>
    simp only [cutLast?] at h
    split at h
    · simp at h
    · rename_i hs
      split_ifs at h with hc
      exact List.mem_cons.not.mpr (not_or.mpr ⟨Ne.symm hc, ih hs⟩)

/-- Where the last separator is. -/
theorem eq_append_of_cutLast? {s before after : List Char}
    (h : cutLast? sep s = some (before, after)) : s = before ++ sep :: after ∧ sep ∉ after := by
  induction s generalizing before with
  | nil => exact absurd ((cutLast?_nil sep).symm.trans h) (by simp)
  | cons c s ih =>
    simp only [cutLast?] at h
    cases hs : cutLast? sep s with
    | some parts =>
      obtain ⟨inner, tail⟩ := parts
      simp only [hs, Option.some.injEq, Prod.mk.injEq] at h
      obtain ⟨rfl, rfl⟩ := h
      obtain ⟨hcut, htail⟩ := ih hs
      exact ⟨by rw [hcut, List.cons_append], htail⟩
    | none =>
      simp only [hs] at h
      split_ifs at h with hc
      obtain ⟨rfl, rfl⟩ := Prod.mk.inj (Option.some.inj h)
      subst hc
      exact ⟨rfl, not_mem_of_cutLast?_eq_none hs⟩

/-- A separator after which there is none is the last one. -/
theorem cutLast?_append_cons {before after : List Char} (h : sep ∉ after) :
    cutLast? sep (before ++ sep :: after) = some (before, after) := by
  induction before with
  | nil => rw [List.nil_append, cutLast?, cutLast?_of_not_mem h, if_pos rfl]
  | cons c before ih => rw [List.cons_append, cutLast?, ih]

/-- The part after the last separator is the last of all parts. -/
theorem splitOn_eq_of_cutLast? {s before after : List Char}
    (h : cutLast? sep s = some (before, after)) :
    splitOn sep s = splitOn sep before ++ [after] := by
  obtain ⟨rfl, hafter⟩ := eq_append_of_cutLast? h
  rw [splitOn_append_cons, splitOn_of_not_mem hafter]

/-! ## Identifiers -/

/-- Where letters, digits and underscores are among all characters. -/
theorem toNat_of_isNamePart {c : Char} (h : isNamePart c = true) :
    48 ≤ c.toNat ∧ c.toNat ≤ 122 := by
  simp only [isNamePart, isLetter, isDigit, Bool.or_eq_true, Bool.and_eq_true, decide_eq_true_eq,
    beq_iff_eq, Char.le_def, UInt32.le_iff_toNat_le, Char.toNat_val, Char.reduceToNat] at h
  rcases h with ((h | h) | h) | rfl
  · omega
  · omega
  · omega
  · exact ⟨by decide, by decide⟩

/-- An identifier consists of letters, digits and underscores. -/
theorem isNamePart_of_mem {s : List Char} (h : isIdentifier s = true) {c : Char} (hc : c ∈ s) :
    isNamePart c = true := by
  cases s with
  | nil => simp at hc
  | cons d s =>
    simp only [isIdentifier, Bool.and_eq_true, List.all_eq_true] at h
    rcases List.mem_cons.mp hc with rfl | hc
    · have start := h.1
      simp only [isNameStart, Bool.or_eq_true] at start
      rcases start with letter | underscore
      · simp [isNamePart, letter]
      · simp [isNamePart, underscore]
    · exact h.2 c hc

/-- An identifier with letters, digits and underscores after it is one. -/
theorem isIdentifier_append {s t : List Char} (hs : isIdentifier s = true)
    (ht : ∀ c ∈ t, isNamePart c = true) : isIdentifier (s ++ t) = true := by
  cases s with
  | nil => exact absurd hs (by simp [isIdentifier])
  | cons c s =>
    rw [isIdentifier, Bool.and_eq_true] at hs
    rw [List.cons_append, isIdentifier, List.all_append, hs.1, hs.2, List.all_eq_true.mpr ht]
    rfl

/-- An identifier holds no other characters. -/
theorem not_mem_of_isIdentifier {s : List Char} (h : isIdentifier s = true) {c : Char}
    (hc : isNamePart c = false) : c ∉ s := by
  intro hmem
  rw [isNamePart_of_mem h hmem] at hc
  exact absurd hc (by simp)

end DsdlHeaders.Text

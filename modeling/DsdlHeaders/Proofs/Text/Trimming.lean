import Mathlib.Data.List.Basic
import Mathlib.Data.List.TakeWhile
import DsdlHeaders.Text.Blank

/-!
# Trimmed texts

Trimming a text takes the blank characters at both ends away and nothing else. `IsTrimmed` says this
of a text and what remains of it, and determines the result of `trim` (`trim_eq_iff`).
-/

namespace DsdlHeaders.Text

/-- `inner` is what remains of `s` without the blank characters at its ends. -/
structure IsTrimmed (s inner : List Char) : Prop where
  around : ∃ before after, s = before ++ inner ++ after ∧ (∀ c ∈ before, isBlank c = true) ∧
    ∀ c ∈ after, isBlank c = true
  first : ∀ c ∈ inner.head?, isBlank c = false
  last : ∀ c ∈ inner.getLast?, isBlank c = false

/-- Trimming at the left end splits off blank characters. -/
theorem exists_eq_append_trimStart (s : List Char) :
    ∃ before, s = before ++ trimStart s ∧ ∀ c ∈ before, isBlank c = true :=
  ⟨s.takeWhile isBlank, List.takeWhile_append_dropWhile.symm, fun _ => List.mem_takeWhile_imp⟩

/-- Trimming at the right end splits off blank characters. -/
theorem exists_eq_trimEnd_append (s : List Char) :
    ∃ after, s = trimEnd s ++ after ∧ ∀ c ∈ after, isBlank c = true := by
  obtain ⟨before, hsplit, hblank⟩ := exists_eq_append_trimStart s.reverse
  refine ⟨before.reverse, ?_, fun c hc => hblank c (List.mem_reverse.mp hc)⟩
  have hreverse := congrArg List.reverse hsplit
  rwa [List.reverse_reverse, List.reverse_append] at hreverse

/-- A text that is trimmed at the left end starts with no blank character. -/
theorem isBlank_head_trimStart {s : List Char} : ∀ c ∈ (trimStart s).head?, isBlank c = false := by
  intro c hc
  have hne : s.dropWhile isBlank ≠ [] := by
    rintro hnil
    rw [trimStart, hnil] at hc
    exact absurd hc (by simp)
  have hhead := List.head_dropWhile_not isBlank hne
  rwa [← Option.some.inj ((List.head?_eq_some_head hne).symm.trans hc)]

/-- A text that is trimmed at the right end ends with no blank character. -/
theorem isBlank_getLast_trimEnd {s : List Char} :
    ∀ c ∈ (trimEnd s).getLast?, isBlank c = false := by
  intro c hc
  rw [trimEnd, List.getLast?_reverse] at hc
  exact isBlank_head_trimStart c hc

/-- Blank characters in front are trimmed. -/
theorem trimStart_append {before : List Char} (h : ∀ c ∈ before, isBlank c = true)
    (s : List Char) : trimStart (before ++ s) = trimStart s :=
  List.dropWhile_append_of_pos h

/-- Blank characters at the end are trimmed. -/
theorem trimEnd_append {after : List Char} (h : ∀ c ∈ after, isBlank c = true) (s : List Char) :
    trimEnd (s ++ after) = trimEnd s := by
  rw [trimEnd, List.reverse_append]
  exact congrArg List.reverse (trimStart_append (fun c hc => h c (List.mem_reverse.mp hc)) _)

/-- Where no blank character stands in front, nothing is trimmed there. -/
theorem trimStart_eq_self {s : List Char} (h : ∀ c ∈ s.head?, isBlank c = false) :
    trimStart s = s := by
  cases s with
  | nil => rfl
  | cons c s => exact List.dropWhile_cons_of_neg (by simp [h c rfl])

/-- Where no blank character stands at the end, nothing is trimmed there. -/
theorem trimEnd_eq_self {s : List Char} (h : ∀ c ∈ s.getLast?, isBlank c = false) :
    trimEnd s = s := by
  have hreverse : trimStart s.reverse = s.reverse := by
    refine trimStart_eq_self fun c hc => ?_
    rw [List.head?_reverse] at hc
    exact h c hc
  exact (congrArg List.reverse hreverse).trans s.reverse_reverse

/-- A text without blank characters is not trimmed. -/
theorem trim_of_forall_not_blank {s : List Char} (h : ∀ c ∈ s, isBlank c = false) :
    trim s = s := by
  rw [trim, trimStart_eq_self fun c hc => h c (List.mem_of_head? hc),
    trimEnd_eq_self fun c hc => h c (List.mem_of_getLast? hc)]

/-- A text that ends with no blank character is only trimmed in front. -/
theorem trim_eq_trimStart {s : List Char} (h : ∀ c ∈ s.getLast?, isBlank c = false) :
    trim s = trimStart s := by
  obtain ⟨before, hbefore, -⟩ := exists_eq_append_trimStart s
  refine trimEnd_eq_self fun c hc => h c ?_
  rw [hbefore]
  exact List.mem_getLast?_append_of_mem_getLast? hc

/-- Trimming gives what remains without the blank characters at both ends. -/
theorem trim_eq_iff {s inner : List Char} : trim s = inner ↔ IsTrimmed s inner := by
  constructor
  · rintro rfl
    obtain ⟨before, hbefore, hleft⟩ := exists_eq_append_trimStart s
    obtain ⟨after, hafter, hright⟩ := exists_eq_trimEnd_append (trimStart s)
    refine ⟨⟨before, after, ?_, hleft, hright⟩, ?_, isBlank_getLast_trimEnd⟩
    · rw [List.append_assoc, trim, ← hafter, ← hbefore]
    · intro c hc
      refine isBlank_head_trimStart (s := s) c ?_
      rw [hafter]
      exact List.mem_head?_append_of_mem_head? hc
  · rintro ⟨⟨before, after, rfl, hbefore, hafter⟩, hfirst, hlast⟩
    rw [trim, List.append_assoc, trimStart_append hbefore]
    cases inner with
    | nil =>
      have hnil : trimStart after = [] := by
        have hall := trimStart_append hafter []
        rwa [List.append_nil] at hall
      rw [List.nil_append, hnil]
      rfl
    | cons c inner =>
      rw [trimStart_eq_self (s := c :: inner ++ after) (by simpa using hfirst),
        trimEnd_append hafter, trimEnd_eq_self hlast]

/-- Nothing remains of a text if it is blank throughout. -/
theorem trim_eq_nil_iff {s : List Char} : trim s = [] ↔ ∀ c ∈ s, isBlank c = true := by
  rw [trim_eq_iff]
  constructor
  · rintro ⟨⟨before, after, rfl, hbefore, hafter⟩, -, -⟩ c hc
    rw [List.append_nil] at hc
    exact (List.mem_append.mp hc).elim (hbefore c) (hafter c)
  · intro h
    exact ⟨⟨s, [], by simp, h, List.forall_mem_nil _⟩, by simp, by simp⟩

end DsdlHeaders.Text

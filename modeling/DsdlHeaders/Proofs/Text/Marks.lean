import Mathlib.Data.List.Infix
import Mathlib.Tactic.Common
import DsdlHeaders.Text.Search

/-!
# Marks in texts

Where a mark stands in a text, said with the library's prefixes and infixes.

* **At the front**: `after?` finds a mark exactly when the text starts with it
  (`after?_eq_some_iff`).
* **First occurrence**: `cut?` fails exactly when the mark is no infix (`cut?_eq_none_iff`); a mark
  whose last character stands nowhere else in it is cut after the text without the mark
  (`EndsOnce`, `cut?_eq_some_iff`). What follows the text changes nothing (`cut?_append`).
* **Foreign characters**: a text without a character that stands in a longer text lies on one side
  of it (`prefix_of_prefix_append_cons`, `infix_or_infix_of_infix_append_cons`).
-/

namespace DsdlHeaders.Text

variable {mark s w : List Char}

/-! ## Marks at the front -/

/-- A text starts with a mark if it is the mark and a rest. -/
theorem after?_eq_some_iff {rest : List Char} : after? mark s = some rest ↔ s = mark ++ rest := by
  induction mark generalizing s with
  | nil => simp [after?, eq_comm]
  | cons m mark ih =>
    cases s with
    | nil => simp [after?]
    | cons c s =>
      rw [after?]
      by_cases hm : m = c
      · rw [if_pos hm, ih, hm, List.cons_append, List.cons.injEq]
        simp
      · rw [if_neg hm, List.cons_append, List.cons.injEq]
        exact ⟨fun h => absurd h (by simp), fun h => absurd h.1.symm hm⟩

/-- A mark in front is found. -/
@[simp] theorem after?_append (mark rest : List Char) : after? mark (mark ++ rest) = some rest :=
  after?_eq_some_iff.mpr rfl

/-- A mark that is not found is no prefix. -/
theorem after?_eq_none_iff : after? mark s = none ↔ ¬ mark <+: s := by
  rw [Option.eq_none_iff_forall_ne_some]
  constructor
  · rintro h ⟨rest, hrest⟩
    exact h rest (after?_eq_some_iff.mpr hrest.symm)
  · intro h rest hrest
    exact h ⟨rest, (after?_eq_some_iff.mp hrest).symm⟩

/-- A text starts with a mark if the mark is a prefix. -/
theorem startsWith_iff : startsWith mark s = true ↔ mark <+: s := by
  unfold startsWith
  rw [Option.isSome_iff_ne_none, ne_eq, after?_eq_none_iff, not_not]

/-! ## First occurrences -/

/-- A mark that is cut out leaves the text before it and the text after it. -/
theorem eq_append_of_cut? {before after : List Char} (h : cut? mark s = some (before, after)) :
    s = before ++ (mark ++ after) := by
  induction s generalizing before with
  | nil =>
    obtain ⟨rest, hrest, hparts⟩ := Option.map_eq_some_iff.mp h
    obtain ⟨rfl, rfl⟩ := Prod.mk.inj hparts
    rw [List.nil_append]
    exact after?_eq_some_iff.mp hrest
  | cons c s ih =>
    rw [cut?] at h
    split at h
    · rename_i rest hrest
      obtain ⟨rfl, rfl⟩ := Prod.mk.inj (Option.some.inj h)
      rw [List.nil_append]
      exact after?_eq_some_iff.mp hrest
    · obtain ⟨⟨lead, rest⟩, hcut, hparts⟩ := Option.map_eq_some_iff.mp h
      obtain ⟨rfl, rfl⟩ := Prod.mk.inj hparts
      rw [ih hcut, List.cons_append]

/-- A mark that cannot be cut out is no infix. -/
theorem cut?_eq_none_iff : cut? mark s = none ↔ ¬ mark <:+: s := by
  induction s with
  | nil => rw [cut?, Option.map_eq_none_iff, after?_eq_none_iff, List.prefix_nil, List.infix_nil]
  | cons c s ih =>
    rw [cut?, List.infix_cons_iff, not_or, ← after?_eq_none_iff, ← ih]
    cases after? mark (c :: s) <;> simp

/-- A mark occurs in a text if it is an infix. -/
theorem occurs_iff : occurs mark s = true ↔ mark <:+: s := by
  unfold occurs
  rw [Option.isSome_iff_ne_none, ne_eq, cut?_eq_none_iff, not_not]

/-- A mark is cut out after a text without its first character. -/
theorem cut?_append_of_not_mem {d : Char} {before : List Char} (h : d ∉ before)
    (mark after : List Char) :
    cut? (d :: mark) (before ++ (d :: mark ++ after)) = some (before, after) := by
  induction before with
  | nil => rw [List.nil_append, List.cons_append, cut?, ← List.cons_append, after?_append]
  | cons c before ih =>
    obtain ⟨hc, hbefore⟩ := not_or.mp (List.mem_cons.not.mp h)
    have hnone : after? (d :: mark) (c :: (before ++ (d :: mark ++ after))) = none := by
      rw [after?, if_neg hc]
    rw [List.cons_append, cut?, hnone, ih hbefore, Option.map_some]

/-- The first occurrence of a mark stays the first one, whatever follows. -/
theorem cut?_append {before after : List Char} (h : cut? mark s = some (before, after))
    (rest : List Char) : cut? mark (s ++ rest) = some (before, after ++ rest) := by
  induction s generalizing before with
  | nil =>
    obtain ⟨hs, hmark⟩ := List.append_eq_nil_iff.mp (eq_append_of_cut? h).symm
    obtain ⟨rfl, rfl⟩ := List.append_eq_nil_iff.mp hmark
    subst hs
    cases rest <;> rfl
  | cons c s ih =>
    rw [cut?] at h
    rw [List.cons_append, cut?]
    cases hhere : after? mark (c :: s) with
    | some later =>
      rw [hhere] at h
      obtain ⟨rfl, rfl⟩ := Prod.mk.inj (Option.some.inj h)
      have happend : after? mark (c :: (s ++ rest)) = some (later ++ rest) := by
        rw [← List.cons_append, after?_eq_some_iff.mp hhere, List.append_assoc, after?_append]
      rw [happend]
    | none =>
      rw [hhere] at h
      obtain ⟨⟨lead, later⟩, hcut, hparts⟩ := Option.map_eq_some_iff.mp h
      obtain ⟨rfl, rfl⟩ := Prod.mk.inj hparts
      -- the mark fits into `s`, so it cannot reach beyond it from further left
      have hlength := congrArg List.length (eq_append_of_cut? hcut)
      have hnone : after? mark (c :: (s ++ rest)) = none := by
        refine after?_eq_none_iff.mpr fun hprefix => after?_eq_none_iff.mp hhere ?_
        rw [← List.cons_append] at hprefix
        refine (List.isPrefix_append_of_length ?_).mp hprefix
        simp only [List.length_append] at hlength
        rw [List.length_cons]
        omega
      rw [hnone, ih hcut]
      rfl

/-- The last character of a mark stands nowhere else in it. -/
def EndsOnce (mark : List Char) : Prop :=
  ∃ lead d, mark = lead ++ [d] ∧ d ∉ lead

/-- Such a mark does not begin before another occurrence of it and end inside that. -/
theorem EndsOnce.infix_of_prefix_append {u : List Char} (hmark : EndsOnce mark) (hu : u ≠ [])
    (h : mark <+: u ++ (mark ++ s)) : mark <:+: u := by
  obtain ⟨lead, d, rfl, hd⟩ := hmark
  have hwithin : lead ++ [d] <+: u ++ lead := by
    refine List.prefix_of_prefix_length_le h ⟨d :: s, by simp⟩ ?_
    have hpos := List.length_pos_iff.mpr hu
    simp only [List.length_append, List.length_singleton]
    omega
  obtain ⟨rest, hrest⟩ := hwithin
  rcases List.append_eq_append_iff.mp hrest with ⟨tail, hinside, -⟩ | ⟨overlap, hmark, hlead⟩
  · exact ⟨[], tail, hinside.symm⟩
  · rcases List.eq_nil_or_concat' overlap with rfl | ⟨init, last, rfl⟩
    · exact ⟨[], [], by simpa using hmark⟩
    · rw [← List.append_assoc] at hmark
      obtain ⟨-, hlast⟩ := List.append_inj' hmark rfl
      obtain rfl : d = last := by simpa using hlast
      exact absurd (by rw [hlead]; simp) hd

/-- Such a mark is cut out after the text without the mark. -/
theorem cut?_eq_some_iff (hmark : EndsOnce mark) {before after : List Char} :
    cut? mark s = some (before, after) ↔ s = before ++ (mark ++ after) ∧ ¬ mark <:+: before := by
  constructor
  · intro h
    refine ⟨eq_append_of_cut? h, fun hinfix => ?_⟩
    -- an occurrence in the text before the mark would have been the first one
    obtain ⟨⟨first, rest⟩, hfirst⟩ :=
      Option.ne_none_iff_exists'.mp (cut?_eq_none_iff.not_left.mpr hinfix)
    have hlonger := cut?_append hfirst (mark ++ after)
    rw [← eq_append_of_cut? h, h] at hlonger
    obtain ⟨rfl, -⟩ := Prod.mk.inj (Option.some.inj hlonger)
    obtain ⟨lead, d, rfl, -⟩ := hmark
    have hlength := congrArg List.length (eq_append_of_cut? hfirst)
    simp only [List.length_append, List.length_singleton] at hlength
    omega
  · rintro ⟨rfl, hinfix⟩
    induction before with
    | nil =>
      have hfront := after?_append mark after
      rw [List.nil_append]
      cases hs : mark ++ after with
      | nil => rw [hs] at hfront; rw [cut?, hfront]; rfl
      | cons c s => rw [hs] at hfront; rw [cut?, hfront]
    | cons c before ih =>
      have hnone : after? mark (c :: (before ++ (mark ++ after))) = none := by
        refine after?_eq_none_iff.mpr fun hprefix => hinfix ?_
        exact hmark.infix_of_prefix_append (List.cons_ne_nil c before) hprefix
      have hlater : ¬ mark <:+: before := fun h =>
        hinfix (h.trans (List.suffix_cons c before).isInfix)
      rw [List.cons_append, cut?, hnone, ih hlater]
      rfl

/-- A mark of one character is cut out after the text without that character. -/
theorem cut?_singleton_iff {d : Char} {before after : List Char} :
    cut? [d] s = some (before, after) ↔ s = before ++ d :: after ∧ d ∉ before := by
  have hmark : EndsOnce [d] := ⟨[], d, rfl, List.not_mem_nil⟩
  rw [cut?_eq_some_iff hmark, List.singleton_infix_iff, List.singleton_append]

/-! ## Foreign characters -/

/-- A text without a character cannot reach beyond that character. -/
theorem prefix_of_prefix_append_cons {d : Char} {u t : List Char} (h : w <+: u ++ d :: t)
    (hd : d ∉ w) : w <+: u := by
  induction u generalizing w with
  | nil =>
    cases w with
    | nil => exact List.nil_prefix
    | cons c w => exact absurd (List.cons_prefix_cons.mp h).1 (by rintro rfl; simp at hd)
  | cons b u ih =>
    cases w with
    | nil => exact List.nil_prefix
    | cons c w =>
      obtain ⟨rfl, hw⟩ := List.cons_prefix_cons.mp h
      exact List.cons_prefix_cons.mpr ⟨rfl, ih hw (fun hmem => hd (List.mem_cons_of_mem _ hmem))⟩

/-- A mark is looked for in front of a text no further than to a character that is not part of the
mark. -/
theorem after?_append_of_getLast? {d : Char} (hd : d ∉ mark) (hs : s.getLast? = some d)
    (rest : List Char) : after? mark (s ++ rest) = (after? mark s).map (· ++ rest) := by
  cases hfound : after? mark s with
  | some later => rw [after?_eq_some_iff.mp hfound, List.append_assoc, after?_append]; rfl
  | none =>
    obtain ⟨lead, rfl⟩ := List.getLast?_eq_some_iff.mp hs
    refine after?_eq_none_iff.mpr fun hprefix => after?_eq_none_iff.mp hfound ?_
    rw [List.append_assoc, List.singleton_append] at hprefix
    exact (prefix_of_prefix_append_cons hprefix hd).trans (List.prefix_append lead [d])

/-- A text without a character lies on one side of it. -/
theorem infix_or_infix_of_infix_append_cons {d : Char} {u t : List Char} (h : w <:+: u ++ d :: t)
    (hd : d ∉ w) : w <:+: u ∨ w <:+: t := by
  induction u with
  | nil =>
    rcases List.infix_cons_iff.mp h with hinitial | hinfix
    · have hnil := prefix_of_prefix_append_cons (u := []) hinitial hd
      exact .inl hnil.isInfix
    · exact .inr hinfix
  | cons b u ih =>
    rcases List.infix_cons_iff.mp h with hinitial | hinfix
    · have hfront : w <+: b :: u := prefix_of_prefix_append_cons hinitial hd
      exact .inl hfront.isInfix
    · exact (ih hinfix).imp_left fun hu => hu.trans (List.suffix_cons b u).isInfix

/-- A text that starts with a foreign character starts after a text. -/
theorem infix_of_infix_append {d : Char} {u t : List Char} (h : d :: w <:+: u ++ t)
    (hd : d ∉ u) : d :: w <:+: t := by
  induction u with
  | nil => exact h
  | cons b u ih =>
    obtain ⟨hb, hu⟩ := not_or.mp (List.mem_cons.not.mp hd)
    rcases List.infix_cons_iff.mp h with hinitial | hinfix
    · exact absurd (List.cons_prefix_cons.mp hinitial).1 hb
    · exact ih hinfix hu

/-- What follows a mark ends the text, if the text ends with a character that is not part of the
mark. -/
theorem getLast?_of_append_mark {d : Char} (lead : List Char) {after : List Char}
    (hmark : mark ≠ []) (hd : d ∉ mark) (h : (lead ++ (mark ++ after)).getLast? = some d) :
    after.getLast? = some d := by
  cases after with
  | nil =>
    rw [List.append_nil, List.getLast?_append_of_ne_nil _ hmark] at h
    exact absurd (List.mem_of_getLast? h) hd
  | cons c after =>
    rwa [← List.append_assoc, List.getLast?_append_of_ne_nil _ (List.cons_ne_nil _ _)] at h

end DsdlHeaders.Text

import DsdlHeaders.Proofs.Template.Cleanup

/-!
# A second pass over a primitive template

Bringing a template into primitive notation is meant to be done once: a text that is primitive
already should not change any more. This module says exactly when that is so.

* **No rule undoes another**: a text stays as it is under all six rules together only if it does so
  under each of them (`toPrimitive_eq_self_iff`). The first five rules take characters away that no
  rule gives back, so the weight of a text tells whether one of them did anything. So the fixed
  points are the texts without any shorthand (`toPrimitive_eq_self_iff_isPrimitive`).
* **The last three rules settle**: block ends, comments and macro tags of a result need no second
  pass (`closeBlocks_toPrimitive`, `dropComments_toPrimitive`, `spaceBodies_toPrimitive`).
* **The first three do not**: the closing mark of a substitution can form a new one with a brace
  after it, a substitution can hold another one, a comment can hide that a backslash ends its line,
  and the line break after a macro tag can put a percent sign at the start of a line.

Main statement: a second pass changes nothing exactly when the result of the first one has no
continuation, no substitution and no control line left (`toPrimitive_toPrimitive_eq_iff`). Sources
for which it has are in `toPrimitive_toPrimitive_ne`.
-/

namespace DsdlHeaders.Template.Extended

open Text

/-! ## Rules that make texts lighter -/

/-- A rule that makes every text that it changes lighter. -/
def Lightens (rule : List Char → List Char) : Prop :=
  ∀ s, rule s = s ∨ (rule s).countP isSpent < s.countP isSpent

/-- No such rule makes a text heavier. -/
theorem Lightens.countP_le {rule : List Char → List Char} (h : Lightens rule) (s : List Char) :
    (rule s).countP isSpent ≤ s.countP isSpent := by
  rcases h s with hsame | hless
  · rw [hsame]
  · exact Nat.le_of_lt hless

/-- Applies rules one after the other. -/
def applyRules (rules : List (List Char → List Char)) (s : List Char) : List Char :=
  rules.foldl (fun t rule => rule t) s

/-- Rules that make texts lighter do so together. -/
theorem countP_applyRules_le {rules : List (List Char → List Char)}
    (h : ∀ rule ∈ rules, Lightens rule) (s : List Char) :
    (applyRules rules s).countP isSpent ≤ s.countP isSpent := by
  induction rules generalizing s with
  | nil => exact Nat.le_refl _
  | cons rule rules ih =>
    obtain ⟨hrule, hrules⟩ := List.forall_mem_cons.mp h
    exact Nat.le_trans (ih hrules (rule s)) (hrule.countP_le s)

/-- If a text is as heavy after such rules as before, none of them has anything to do. -/
theorem forall_eq_self_of_countP_le {rules : List (List Char → List Char)} {s : List Char}
    (hrules : ∀ rule ∈ rules, Lightens rule)
    (h : s.countP isSpent ≤ (applyRules rules s).countP isSpent) :
    ∀ rule ∈ rules, rule s = s := by
  induction rules with
  | nil => simp
  | cons rule rules ih =>
    obtain ⟨hrule, hlater⟩ := List.forall_mem_cons.mp hrules
    have hstep : applyRules (rule :: rules) s = applyRules rules (rule s) := rfl
    rcases hrule s with hsame | hless
    · rw [hstep, hsame] at h
      exact List.forall_mem_cons.mpr ⟨hsame, ih hlater h⟩
    · have hle := countP_applyRules_le hlater (rule s)
      rw [hstep] at h
      omega

/-- The rules before the last one. -/
def leadingRules : List (List Char → List Char) :=
  [joinContinuations, markSubstitutions, markControlLines, closeBlocks, dropComments]

/-- All rules before the last one make texts lighter. -/
theorem lightens_of_mem_leadingRules : ∀ rule ∈ leadingRules, Lightens rule := by
  intro rule hrule
  simp only [leadingRules, List.mem_cons, List.not_mem_nil, or_false] at hrule
  rcases hrule with rfl | rfl | rfl | rfl | rfl
  · exact eq_self_or_countP_lt continuationRule_bounded continuationRule_spends
  · exact eq_self_or_countP_lt substitutionRule_bounded substitutionRule_spends
  · exact markControlLines_eq_self_or_lt
  · exact eq_self_or_countP_lt blockEndRule_bounded blockEndRule_spends
  · exact eq_self_or_countP_lt commentRule_bounded commentRule_spends

/-- The last rule follows the others. -/
theorem toPrimitive_eq (s : List Char) :
    toPrimitive s = spaceBodies (applyRules leadingRules s) := rfl

/-- A text stays as it is under all rules together exactly when it does so under each of them. -/
theorem toPrimitive_eq_self_iff {s : List Char} :
    toPrimitive s = s ↔ ∀ rule ∈ rules, rule s = s := by
  constructor
  · intro h
    have hlast : (spaceBodies (applyRules leadingRules s)).countP isSpent ≤
        (applyRules leadingRules s).countP isSpent :=
      (scans_replaceMatches bodyRule_bounded _).countP_le bodyRule_keeps
    rw [← toPrimitive_eq, h] at hlast
    have hleading := forall_eq_self_of_countP_le lightens_of_mem_leadingRules hlast
    simp only [leadingRules, List.forall_mem_cons] at hleading
    obtain ⟨h1, h2, h3, h4, h5, -⟩ := hleading
    unfold toPrimitive at h
    rw [h1, h2, h3, h4, h5] at h
    simp only [rules, List.forall_mem_cons]
    exact ⟨h1, h2, h3, h4, h5, h, by simp⟩
  · intro h
    simp only [rules, List.forall_mem_cons] at h
    obtain ⟨h1, h2, h3, h4, h5, h6, -⟩ := h
    unfold toPrimitive
    rw [h1, h2, h3, h4, h5, h6]

/-- A text without any of the shorthand that the six rules resolve. -/
structure IsPrimitive (s : List Char) : Prop where
  /-- No backslash stands at the end of a line. -/
  joined : ¬ HasContinuation s
  /-- No substitution is written with a dollar sign and a brace. -/
  marked : ¬ HasSubstitution s
  /-- No line starts with a percent sign and goes on after it. -/
  tagged : ¬ HasControlLine s
  /-- No end tag names its block. -/
  closed : ¬ HasBlockEnd s
  /-- There is no comment. -/
  bare : ¬ HasComment s
  /-- A line break follows every tag that opens a macro. -/
  spaced : Spaced s

/-- The texts that stay as they are in primitive notation are exactly those without shorthand. -/
theorem toPrimitive_eq_self_iff_isPrimitive (s : List Char) :
    toPrimitive s = s ↔ IsPrimitive s := by
  rw [toPrimitive_eq_self_iff]
  simp only [rules, List.forall_mem_cons]
  rw [joinContinuations_eq_self_iff, markSubstitutions_eq_self_iff, markControlLines_eq_self_iff,
    closeBlocks_eq_self_iff, dropComments_eq_self_iff, spaceBodies_eq_self_iff]
  constructor
  · rintro ⟨hjoined, hmarked, htagged, hclosed, hbare, hspaced, -⟩
    exact ⟨hjoined, hmarked, htagged, hclosed, hbare, hspaced⟩
  · rintro ⟨hjoined, hmarked, htagged, hclosed, hbare, hspaced⟩
    exact ⟨hjoined, hmarked, htagged, hclosed, hbare, hspaced, by simp⟩

/-! ## What a result has no more of -/

/-- No end tag of a result names its block. -/
theorem closeBlocks_toPrimitive (s : List Char) :
    closeBlocks (toPrimitive s) = toPrimitive s := by
  have hclosed := not_hasBlockEnd_closeBlocks
    (markControlLines (markSubstitutions (joinContinuations s)))
  exact closeBlocks_of_not_hasBlockEnd
    (not_hasBlockEnd_spaceBodies (not_hasBlockEnd_dropComments hclosed))

/-- No comment is left in a result. -/
theorem dropComments_toPrimitive (s : List Char) :
    dropComments (toPrimitive s) = toPrimitive s := by
  have hdropped := not_hasComment_dropComments
    (closeBlocks (markControlLines (markSubstitutions (joinContinuations s))))
  exact dropComments_of_not_hasComment (not_hasComment_spaceBodies hdropped)

/-- A line break follows every macro tag of a result. -/
theorem spaceBodies_toPrimitive (s : List Char) :
    spaceBodies (toPrimitive s) = toPrimitive s :=
  spaceBodies_of_spaced (spaced_spaceBodies _)

/-! ## The second pass -/

/-- A second pass changes nothing exactly when the result of the first one has no continuation, no
substitution and no control line left. -/
theorem toPrimitive_toPrimitive_eq_iff (s : List Char) :
    toPrimitive (toPrimitive s) = toPrimitive s ↔
      ¬ HasContinuation (toPrimitive s) ∧ ¬ HasSubstitution (toPrimitive s) ∧
        ¬ HasControlLine (toPrimitive s) := by
  rw [toPrimitive_eq_self_iff]
  simp only [rules, List.forall_mem_cons]
  rw [joinContinuations_eq_self_iff, markSubstitutions_eq_self_iff, markControlLines_eq_self_iff]
  constructor
  · rintro ⟨hcontinuation, hsubstitution, hcontrol, -⟩
    exact ⟨hcontinuation, hsubstitution, hcontrol⟩
  · rintro ⟨hcontinuation, hsubstitution, hcontrol⟩
    exact ⟨hcontinuation, hsubstitution, hcontrol, closeBlocks_toPrimitive s,
      dropComments_toPrimitive s, spaceBodies_toPrimitive s, by simp⟩

/-- A brace after a substitution, a substitution inside another one, a comment after a backslash and
a percent sign after a macro tag: each makes the second pass change the result of the first. -/
theorem toPrimitive_toPrimitive_ne :
    toPrimitive (toPrimitive "$\x7bx\x7d\x7by\x7d".toList) ≠
        toPrimitive "$\x7bx\x7d\x7by\x7d".toList ∧
      toPrimitive (toPrimitive "$\x7b$\x7bx\x7d\x7d".toList) ≠
        toPrimitive "$\x7b$\x7bx\x7d\x7d".toList ∧
      toPrimitive (toPrimitive "a\\ #! note\nb\n".toList) ≠
        toPrimitive "a\\ #! note\nb\n".toList ∧
      toPrimitive (toPrimitive "<!--(macro m)-->% if x:\n".toList) ≠
        toPrimitive "<!--(macro m)-->% if x:\n".toList := by
  decide +kernel

end DsdlHeaders.Template.Extended

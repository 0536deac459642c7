import DsdlHeaders.Proofs.Template.LineEndings

/-!
# Rules that have nothing to do a second time

A rule is idempotent if its own result holds nothing that it looks for. What has to be excluded is
that a replacement and the text around it make a new match.

* **Continuations**: one space stands where a continuation was. No continuation holds a space, so
  one that lies in the result would have been a match in the source
  (`not_hasContinuation_joinContinuations`).
* **Control lines**: a marked line has an angle bracket where its percent sign was, and marking
  makes no new lines (`not_hasControlLine_markControlLines`).
* **Block ends, comments and macro tags**: the rules that clean up settle what they are about
  (`not_hasBlockEnd_closeBlocks`, `not_hasComment_dropComments`, `spaced_spaceBodies`).

Main statement: of each of these five rules nothing is left to do after it was applied, so applying
it again changes nothing (`rules_idempotent`). The rule for substitutions is not among them, since a
substitution can hold another one.
-/

namespace DsdlHeaders.Template.Extended

open Text

variable {s w line : List Char}

/-! ## Continuations -/

/-- A backslash and a line break. -/
def IsContinuation (w : List Char) : Prop :=
  ∃ ending, IsLineBreak ending ∧ w = '\\' :: ending

/-- A text has a continuation if one lies in it. -/
theorem hasContinuation_iff : HasContinuation s ↔ ∃ w, IsContinuation w ∧ w <:+: s := by
  constructor
  · rintro ⟨before, after, rfl | rfl⟩
    · exact ⟨_, ⟨['\n'], .inl rfl, rfl⟩, before, after, by simp⟩
    · exact ⟨_, ⟨['\r', '\n'], .inr rfl, rfl⟩, before, after, by simp⟩
  · rintro ⟨w, ⟨ending, rfl | rfl, rfl⟩, before, after, rfl⟩
    · exact ⟨before, after, .inl (by simp)⟩
    · exact ⟨before, after, .inr (by simp)⟩

/-- A continuation in front of a text is a match. -/
theorem continuationRule_ne_none (prev : Option Char) (hw : IsContinuation w) (h : w <+: s) :
    continuationRule prev s ≠ none := by
  obtain ⟨ending, hending, rfl⟩ := hw
  obtain ⟨next, rfl⟩ := h
  rw [List.cons_append, continuationRule_append prev hending next]
  exact Option.some_ne_none _

/-- No continuation is left once continuations are joined. -/
theorem not_hasContinuation_joinContinuations (s : List Char) :
    ¬ HasContinuation (joinContinuations s) := by
  rw [hasContinuation_iff]
  rintro ⟨w, hw, hinfix⟩
  have hblank : ' ' ∉ w := by
    obtain ⟨ending, rfl | rfl, rfl⟩ := hw <;> simp
  have hne : w ≠ [] := by
    obtain ⟨ending, -, rfl⟩ := hw
    exact List.cons_ne_nil _ _
  refine (scans_replaceMatches continuationRule_bounded s).not_infix_of_result hne
    (fun prev s h => continuationRule_ne_none prev hw h) ?_ hinfix
  intro prev s found hfound
  obtain ⟨lead, next, -, -, rfl⟩ := continuationRule_eq_some hfound
  refine ⟨List.cons_ne_nil _ _, fun c hc => ?_⟩
  obtain rfl := List.mem_singleton.mp hc
  exact hblank

/-! ## Control lines -/

/-- The indentation of a control line ends at its percent sign. -/
theorem IsControlLine.dropWhile_eq (h : IsControlLine line) :
    ∃ rest, line.dropWhile isIndent = '%' :: rest := by
  obtain ⟨indent, rest, rfl, hindent, -⟩ := h
  refine ⟨rest, ?_⟩
  rw [List.dropWhile_append_of_pos hindent]
  rfl

/-- A marked line is no control line. -/
theorem not_isControlLine_markControlLine (line : List Char) :
    ¬ IsControlLine (markControlLine line) := by
  by_cases hline : IsControlLine line
  · obtain ⟨indent, rest, rfl, hindent, hrest⟩ := hline
    obtain ⟨body, ending, hbody, -⟩ := exists_controlBody hrest
    rw [markControlLine_append hindent, hbody]
    intro hmarked
    obtain ⟨later, hlater⟩ := hmarked.dropWhile_eq
    simp only [List.append_assoc] at hlater
    rw [List.dropWhile_append_of_pos hindent] at hlater
    -- the first character after the indentation is an angle bracket and no percent sign
    exact absurd hlater (by simp [tagOpen, isIndent])
  · rwa [markControlLine_of_not_isControlLine hline]

/-- The lines of a marked text are the marked lines of the text. -/
theorem splitOn_markControlLines (s : List Char) :
    splitOn '\n' (markControlLines s) = (splitOn '\n' s).map markControlLine := by
  refine splitOn_joinWith (by simpa using splitOn_ne_nil '\n' s) fun part hpart => ?_
  obtain ⟨line, hline, rfl⟩ := List.mem_map.mp hpart
  exact not_mem_markControlLine (not_mem_of_mem_splitOn hline) (by decide)

/-- No control line is left once control lines are marked. -/
theorem not_hasControlLine_markControlLines (s : List Char) :
    ¬ HasControlLine (markControlLines s) := by
  rintro ⟨marked, hmarked, hcontrol⟩
  rw [splitOn_markControlLines] at hmarked
  obtain ⟨line, -, rfl⟩ := List.mem_map.mp hmarked
  exact not_isControlLine_markControlLine line hcontrol

/-! ## All five rules -/

/-- Each of five rules leaves nothing that it looks for, so a second application of it changes
nothing. -/
theorem rules_idempotent (s : List Char) :
    (¬ HasContinuation (joinContinuations s) ∧
      joinContinuations (joinContinuations s) = joinContinuations s) ∧
    (¬ HasControlLine (markControlLines s) ∧
      markControlLines (markControlLines s) = markControlLines s) ∧
    (¬ HasBlockEnd (closeBlocks s) ∧ closeBlocks (closeBlocks s) = closeBlocks s) ∧
    (¬ HasComment (dropComments s) ∧ dropComments (dropComments s) = dropComments s) ∧
    (Spaced (spaceBodies s) ∧ spaceBodies (spaceBodies s) = spaceBodies s) := by
  have hjoined := not_hasContinuation_joinContinuations s
  have hmarked := not_hasControlLine_markControlLines s
  have hclosed := not_hasBlockEnd_closeBlocks s
  have hdropped := not_hasComment_dropComments s
  have hspaced := spaced_spaceBodies s
  exact ⟨⟨hjoined, joinContinuations_eq_self_iff.mpr hjoined⟩,
    ⟨hmarked, markControlLines_eq_self_iff.mpr hmarked⟩,
    ⟨hclosed, closeBlocks_of_not_hasBlockEnd hclosed⟩,
    ⟨hdropped, dropComments_of_not_hasComment hdropped⟩,
    ⟨hspaced, spaceBodies_of_spaced hspaced⟩⟩

end DsdlHeaders.Template.Extended

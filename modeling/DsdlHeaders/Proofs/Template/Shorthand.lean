import Mathlib.Algebra.Ring.Nat
import Mathlib.Data.List.TakeWhile
import DsdlHeaders.Proofs.Text.Parts
import DsdlHeaders.Proofs.Text.Replacing
import DsdlHeaders.Template.Extended

/-!
# The shorthand that the first rules resolve

Of the six rules that bring a template into primitive notation, the first three resolve its
shorthand: continued lines, substitutions and control lines. Each of them looks for one pattern. The
patterns are stated here as properties of texts, apart from the walks that find them, and each rule
leaves a text as it is exactly when its pattern is absent:

* `HasContinuation` (`joinContinuations_eq_self_iff`),
* `HasSubstitution` (`markSubstitutions_eq_self_iff`),
* `HasControlLine` (`markControlLines_eq_self_iff`).

**Spending.** The rules never give back what they take: a backslash, an opening brace, a percent
sign, a hash sign or a lower case letter. Counting these characters (`isSpent`) shows that no rule
undoes the work of another.
-/

namespace DsdlHeaders.Template.Extended

open Text

variable {s t w line : List Char} {prev : Option Char} {found : Replacement}

/-! ## Characters that are spent -/

/-- The characters that the first five rules take away and that no rule puts anywhere. -/
def isSpent (c : Char) : Bool :=
  c == '\\' || c == '\x7b' || c == '%' || c == '#' || isBlockLetter c

/-- Such a character in front of a match gives the match its weight. -/
theorem countP_isSpent_pos {c : Char} {matched rest : List Char} (h : matched ++ s = c :: rest)
    (hne : matched ≠ []) (hc : isSpent c = true) : 0 < matched.countP isSpent := by
  cases matched with
  | nil => exact absurd rfl hne
  | cons d matched =>
    obtain ⟨rfl, -⟩ := List.cons.inj h
    rw [List.countP_cons_of_pos hc]
    exact Nat.succ_pos _

/-! ## Continuations -/

/-- Somewhere a backslash stands at the end of a line. -/
def HasContinuation (s : List Char) : Prop :=
  ∃ before after, s = before ++ '\\' :: '\n' :: after ∨ s = before ++ '\\' :: '\r' :: '\n' :: after

/-- What the rule for continuations matches. -/
theorem continuationRule_eq_some (h : continuationRule prev s = some found) :
    ∃ lead next, (lead = ['\n'] ∨ lead = ['\r', '\n']) ∧ s = '\\' :: (lead ++ next) ∧
      found = ⟨[' '], lead.length + (next.takeWhile isIndent).length⟩ := by
  unfold continuationRule at h
  split at h
  · exact ⟨['\n'], _, .inl rfl, rfl, (Option.some.inj h).symm⟩
  · exact ⟨['\r', '\n'], _, .inr rfl, rfl, (Option.some.inj h).symm⟩
  · exact absurd h (by simp)

/-- The text that a continuation takes, and what it leaves. -/
theorem exists_lead_of_continuation {matched : List Char}
    (h : continuationRule prev (matched ++ s) = some found)
    (hlength : matched.length = found.extra + 1) :
    ∃ lead next : List Char, (lead = ['\n'] ∨ lead = ['\r', '\n']) ∧
      matched = '\\' :: (lead ++ next.takeWhile isIndent) ∧ s = next.dropWhile isIndent ∧
        found = ⟨[' '], lead.length + (next.takeWhile isIndent).length⟩ := by
  obtain ⟨lead, next, hlead, hs, rfl⟩ := continuationRule_eq_some h
  have hsplit : matched ++ s = ('\\' :: (lead ++ next.takeWhile isIndent)) ++
      next.dropWhile isIndent := by
    rw [hs]
    simp [List.takeWhile_append_dropWhile]
  obtain ⟨rfl, rfl⟩ := List.append_inj hsplit (by simp [hlength])
  exact ⟨lead, next, hlead, rfl, rfl, rfl⟩

/-- A continuation reaches at most to the end of the text. -/
theorem continuationRule_bounded : Rule.Bounded continuationRule := by
  intro prev c s found h
  obtain ⟨lead, next, -, hs, rfl⟩ := continuationRule_eq_some h
  have hnext := (List.takeWhile_prefix (l := next) isIndent).length_le
  obtain ⟨-, rfl⟩ := List.cons.inj hs
  rw [List.length_append]
  exact Nat.add_le_add_left hnext _

/-- A continuation takes a backslash away. -/
theorem continuationRule_spends : Rule.Spends isSpent continuationRule := by
  intro prev matched s found h hlength
  obtain ⟨lead, next, -, hs, rfl⟩ := continuationRule_eq_some h
  have hne : matched ≠ [] := by
    rintro rfl
    simp at hlength
  exact countP_isSpent_pos hs hne (by decide)

/-- Joining changes exactly the texts with a continuation. -/
theorem joinContinuations_eq_self_iff : joinContinuations s = s ↔ ¬ HasContinuation s := by
  unfold joinContinuations
  rw [replaceMatches_eq_self_iff continuationRule_bounded continuationRule_spends, noMatch_iff]
  constructor
  · rintro h ⟨before, after, hs | hs⟩
    · have hnone := h before '\\' ('\n' :: after) hs
      simp [continuationRule] at hnone
    · have hnone := h before '\\' ('\r' :: '\n' :: after) hs
      simp [continuationRule] at hnone
  · intro h before c after hs
    rw [Option.eq_none_iff_forall_ne_some]
    intro found hfound
    obtain ⟨lead, next, hlead, hc, -⟩ := continuationRule_eq_some hfound
    rw [hc] at hs
    rcases hlead with rfl | rfl
    · exact h ⟨before, next, .inl hs⟩
    · exact h ⟨before, next, .inr hs⟩

/-! ## Substitutions -/

/-- Somewhere `$` and an opening brace stand, not after another `$`, and after at least one
character a closing brace. -/
def HasSubstitution (s : List Char) : Prop :=
  ∃ before body after, s = before ++ '$' :: '\x7b' :: (body ++ '\x7d' :: after) ∧ body ≠ [] ∧
    '\x7d' ∉ body ∧ before.getLast? ≠ some '$'

/-- What the rule for substitutions matches. -/
theorem substitutionRule_eq_some_iff : substitutionRule prev s = some found ↔
    prev ≠ some '$' ∧ ∃ body after, s = '$' :: '\x7b' :: (body ++ '\x7d' :: after) ∧ body ≠ [] ∧
      '\x7d' ∉ body ∧ found = ⟨['$', '!'] ++ body ++ ['!', '$'], body.length + 2⟩ := by
  constructor
  · intro h
    unfold substitutionRule at h
    split at h
    · rename_i rest
      split at h
      · exact absurd h (by simp)
      · rename_i hprev
        split at h
        · exact absurd h (by simp)
        · rename_i body after hbody hcut
          obtain ⟨rfl, hmem⟩ := cut?_singleton_iff.mp hcut
          exact ⟨hprev, body, after, rfl, fun hnil => hbody hnil, hmem,
            (Option.some.inj h).symm⟩
        · exact absurd h (by simp)
    · exact absurd h (by simp)
  · rintro ⟨hprev, body, after, rfl, hbody, hmem, rfl⟩
    have hcut : cut? ['\x7d'] (body ++ '\x7d' :: after) = some (body, after) :=
      cut?_singleton_iff.mpr ⟨rfl, hmem⟩
    rw [substitutionRule, if_neg hprev, hcut]
    cases body with
    | nil => exact absurd rfl hbody
    | cons c body => rfl

/-- The text that a substitution takes, and what it leaves. -/
theorem exists_body_of_substitution {matched : List Char}
    (h : substitutionRule prev (matched ++ s) = some found)
    (hlength : matched.length = found.extra + 1) :
    prev ≠ some '$' ∧ ∃ body, matched = '$' :: '\x7b' :: (body ++ ['\x7d']) ∧ body ≠ [] ∧
      '\x7d' ∉ body ∧ found = ⟨['$', '!'] ++ body ++ ['!', '$'], body.length + 2⟩ := by
  obtain ⟨hprev, body, after, hs, hbody, hclose, rfl⟩ := substitutionRule_eq_some_iff.mp h
  have hsplit : matched ++ s = ('$' :: '\x7b' :: (body ++ ['\x7d'])) ++ after := by
    rw [hs]
    simp
  obtain ⟨rfl, -⟩ := List.append_inj hsplit (by simpa using hlength)
  exact ⟨hprev, body, rfl, hbody, hclose, rfl⟩

/-- A substitution reaches at most to the end of the text. -/
theorem substitutionRule_bounded : Rule.Bounded substitutionRule := by
  intro prev c s found h
  obtain ⟨-, body, after, hs, -, -, rfl⟩ := substitutionRule_eq_some_iff.mp h
  obtain ⟨-, rfl⟩ := List.cons.inj hs
  simp only [List.length_cons, List.length_append]
  omega

/-- A substitution takes an opening brace away. -/
theorem substitutionRule_spends : Rule.Spends isSpent substitutionRule := by
  intro prev matched s found h hlength
  obtain ⟨-, body, rfl, -, -, rfl⟩ := exists_body_of_substitution h hlength
  simp only [List.countP_append, List.countP_cons, List.countP_nil]
  simp [isSpent, isBlockLetter]

/-- Marking changes exactly the texts with a substitution. -/
theorem markSubstitutions_eq_self_iff : markSubstitutions s = s ↔ ¬ HasSubstitution s := by
  unfold markSubstitutions
  rw [replaceMatches_eq_self_iff substitutionRule_bounded substitutionRule_spends, noMatch_iff]
  constructor
  · rintro h ⟨before, body, after, hs, hbody, hmem, hprev⟩
    have hnone := h before '$' _ hs
    rw [Option.or_none] at hnone
    have hsome := substitutionRule_eq_some_iff.mpr ⟨hprev, body, after, rfl, hbody, hmem, rfl⟩
    rw [hnone] at hsome
    exact absurd hsome (by simp)
  · intro h before c after hs
    rw [Option.or_none, Option.eq_none_iff_forall_ne_some]
    intro found hfound
    obtain ⟨hprev, body, rest, hc, hbody, hmem, -⟩ := substitutionRule_eq_some_iff.mp hfound
    rw [hc] at hs
    exact h ⟨before, body, rest, hs, hbody, hmem, hprev⟩

/-! ## Control lines -/

/-- A line of indentation, a percent sign and at least one more character. -/
def IsControlLine (line : List Char) : Prop :=
  ∃ indent rest, line = indent ++ '%' :: rest ∧ (∀ c ∈ indent, isIndent c = true) ∧ rest ≠ []

/-- One of the lines is a control line. -/
def HasControlLine (s : List Char) : Prop :=
  ∃ line ∈ splitOn '\n' s, IsControlLine line

/-- The shortest body is a piece of what it is taken from. -/
theorem prefix_shortestBody (first : Char) (s : List Char) :
    (shortestBody first s).1 <+: first :: s := by
  induction s generalizing first with
  | nil => exact List.prefix_rfl
  | cons c s ih =>
    rw [shortestBody]
    split
    · exact ⟨c :: s, rfl⟩
    · exact List.cons_prefix_cons.mpr ⟨rfl, ih c⟩

/-- What may end a control line weighs nothing. -/
theorem countP_shortestBody_ending (first : Char) (s : List Char) :
    (shortestBody first s).2.countP isSpent = 0 := by
  induction s generalizing first with
  | nil => rfl
  | cons c s ih =>
    rw [shortestBody]
    split
    · show (lineReturn (c :: s)).countP isSpent = 0
      unfold lineReturn
      split <;> decide
    · exact ih c

/-- A control line has a body as soon as something follows its percent sign, and body and line end
weigh no more than that. -/
theorem exists_controlBody (h : s ≠ []) : ∃ body ending, controlBody? s = some (body, ending) ∧
    body.countP isSpent + ending.countP isSpent ≤ s.countP isSpent := by
  unfold controlBody?
  cases hrest : s.dropWhile isIndent with
  | nil =>
    refine ⟨[s.getLast h], [], by simp [List.getLast?_eq_some_getLast h], ?_⟩
    have hmem : s.getLast h ∈ s := List.getLast_mem h
    exact (List.singleton_sublist.mpr hmem).countP_le
  | cons c rest =>
    have hsuffix : c :: rest <:+ s := hrest ▸ List.dropWhile_suffix isIndent
    refine ⟨_, _, rfl, ?_⟩
    rw [countP_shortestBody_ending, Nat.add_zero]
    exact ((prefix_shortestBody c rest).sublist.trans hsuffix.sublist).countP_le

/-- Marking a line that is no control line. -/
theorem markControlLine_of_not_isControlLine (h : ¬ IsControlLine line) :
    markControlLine line = line := by
  unfold markControlLine
  split
  · rename_i s hs
    cases s with
    | nil => rfl
    | cons c s =>
      refine absurd ⟨line.takeWhile isIndent, c :: s, ?_, ?_, by simp⟩ h
      · rw [← hs, List.takeWhile_append_dropWhile]
      · exact fun c hc => List.mem_takeWhile_imp hc
  · rfl

/-- A control line gets lighter. -/
theorem countP_markControlLine_lt (h : IsControlLine line) :
    (markControlLine line).countP isSpent < line.countP isSpent := by
  obtain ⟨indent, rest, rfl, hindent, hrest⟩ := h
  have hdrop : (indent ++ '%' :: rest).dropWhile isIndent = '%' :: rest := by
    rw [List.dropWhile_append_of_pos hindent]
    rfl
  have htake : (indent ++ '%' :: rest).takeWhile isIndent = indent := by
    rw [List.takeWhile_append_of_pos hindent]
    simp [isIndent]
  obtain ⟨body, ending, hbody, hweight⟩ := exists_controlBody hrest
  have hopen : tagOpen.countP isSpent = 0 := by decide
  have hclose : tagClose.countP isSpent = 0 := by decide
  have hpercent : isSpent '%' = true := by decide
  unfold markControlLine
  rw [hdrop, htake]
  simp only [hbody, List.countP_append, hopen, hclose, List.countP_cons_of_pos hpercent]
  omega

/-- A line either stays as it is or gets lighter. -/
theorem markControlLine_eq_or_lt (line : List Char) :
    markControlLine line = line ∨
      (markControlLine line).countP isSpent < line.countP isSpent := by
  by_cases h : IsControlLine line
  · exact .inr (countP_markControlLine_lt h)
  · exact .inl (markControlLine_of_not_isControlLine h)

/-- Line feeds weigh nothing, so a text weighs what its lines weigh. -/
theorem countP_joinWith (parts : List (List Char)) :
    (joinWith ['\n'] parts).countP isSpent = (parts.map (·.countP isSpent)).sum := by
  induction parts with
  | nil => rfl
  | cons part parts ih =>
    cases parts with
    | nil => simp [joinWith]
    | cons next parts =>
      have hfeed : (['\n'] : List Char).countP isSpent = 0 := by decide
      rw [joinWith_cons (by simp), List.countP_append, List.countP_append, hfeed, ih]
      simp

/-- Marking lines none of which changes. -/
theorem map_markControlLine_of_forall {parts : List (List Char)}
    (h : ∀ line ∈ parts, markControlLine line = line) : parts.map markControlLine = parts :=
  (List.map_congr_left h).trans (List.map_id' parts)

/-- Marking all lines either leaves every one of them as it is or makes them lighter together. -/
theorem map_markControlLine_eq_or_lt (parts : List (List Char)) :
    (∀ line ∈ parts, markControlLine line = line) ∨
      ((parts.map markControlLine).map (·.countP isSpent)).sum <
        (parts.map (·.countP isSpent)).sum := by
  induction parts with
  | nil => exact .inl (by simp)
  | cons line parts ih =>
    have hle : (markControlLine line).countP isSpent ≤ line.countP isSpent := by
      rcases markControlLine_eq_or_lt line with h | h
      · rw [h]
      · exact Nat.le_of_lt h
    simp only [List.map_cons, List.sum_cons, List.forall_mem_cons]
    rcases markControlLine_eq_or_lt line with hline | hline <;> rcases ih with hparts | hparts
    · exact .inl ⟨hline, hparts⟩
    · exact .inr (by omega)
    · right
      rw [map_markControlLine_of_forall hparts]
      omega
    · exact .inr (by omega)

/-- Marking control lines changes a text only if it makes it lighter. -/
theorem markControlLines_eq_self_or_lt (s : List Char) :
    markControlLines s = s ∨ (markControlLines s).countP isSpent < s.countP isSpent := by
  unfold markControlLines
  rcases map_markControlLine_eq_or_lt (splitOn '\n' s) with h | h
  · left
    rw [map_markControlLine_of_forall h, joinWith_splitOn]
  · right
    rw [countP_joinWith]
    have hs := congrArg (List.countP isSpent) (joinWith_splitOn '\n' s)
    rw [countP_joinWith] at hs
    omega

/-- Marking changes exactly the texts with a control line. -/
theorem markControlLines_eq_self_iff : markControlLines s = s ↔ ¬ HasControlLine s := by
  constructor
  · rintro h ⟨line, hline, hcontrol⟩
    unfold markControlLines at h
    rcases map_markControlLine_eq_or_lt (splitOn '\n' s) with hall | hless
    · have hlighter := countP_markControlLine_lt hcontrol
      rw [hall line hline] at hlighter
      exact absurd hlighter (Nat.lt_irrefl _)
    · have hs := congrArg (List.countP isSpent) (joinWith_splitOn '\n' s)
      have hmarked := congrArg (List.countP isSpent) h
      rw [countP_joinWith] at hs hmarked
      omega
  · intro h
    unfold markControlLines
    have hall : ∀ line ∈ splitOn '\n' s, markControlLine line = line := fun line hline =>
      markControlLine_of_not_isControlLine fun hcontrol => h ⟨line, hline, hcontrol⟩
    rw [map_markControlLine_of_forall hall, joinWith_splitOn]

end DsdlHeaders.Template.Extended

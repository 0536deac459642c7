import DsdlHeaders.Proofs.Text.Returns

/-!
# Replacing on both sides of a boundary

When two texts stand one after the other, a rule may find a match that reaches from the first into
the second, or miss one that the second lets go on. Where it does neither, replacing can be done on
each side.

* **Settled texts**: what the rule finds in the first text does not depend on the second
  (`Settled`). Then the walk over both is the walk over the first and, after its last character, the
  walk over the second (`replaceMatchesFrom_append_of_settled`).
* **No match at all**: the walk passes over the first text (`replaceMatchesFrom_append_of_none`).
* **The character before** matters only to rules that look at it
  (`replaceMatchesFrom_congr_prev`).
* **Marks** are replaced on both sides of a character that is not part of them
  (`replaceAll_append_cons`).
-/

namespace DsdlHeaders.Text

variable {rule : Rule} {prev : Option Char} {mark s t rest : List Char}

/-! ## Settled texts -/

/-- The last character before the end of a text, or the one before the text. -/
theorem getLast?_cons_or (c : Char) (s : List Char) (prev : Option Char) :
    (c :: s).getLast?.or prev = s.getLast?.or (some c) := by
  rw [List.getLast?_cons]
  cases s.getLast? <;> rfl

/-- What a rule finds in a text after `prev` does not depend on what follows the text. -/
def Settled (rule : Rule) (prev : Option Char) (s rest : List Char) : Prop :=
  ∀ before c after, s = before ++ c :: after →
    rule (before.getLast?.or prev) (c :: (after ++ rest)) =
      rule (before.getLast?.or prev) (c :: after)

/-- The end of a settled text is settled. -/
theorem Settled.of_append (lead : List Char) (h : Settled rule prev (lead ++ s) rest) :
    Settled rule (lead.getLast?.or prev) s rest := by
  intro before c after hs
  have hsame := h (lead ++ before) c after (by rw [hs, List.append_assoc])
  rwa [List.getLast?_append, Option.or_assoc] at hsame

/-- What the rule finds at the first position of a settled text. -/
theorem Settled.rule_append {c : Char} (h : Settled rule prev (c :: s) rest) :
    rule prev (c :: (s ++ rest)) = rule prev (c :: s) := by
  simpa using h [] c s rfl

/-- The walk over a settled text does not depend on what follows the text. -/
theorem Scans.append_of_settled (hscan : Scans rule prev s t) (h : Settled rule prev s rest) :
    replaceMatchesFrom rule 0 prev (s ++ rest) =
      t ++ replaceMatchesFrom rule 0 (s.getLast?.or prev) rest := by
  induction hscan with
  | done => rfl
  | @keep prev c s t hnone _ ih =>
    have hlater : Settled rule (some c) s rest := .of_append [c] h
    rw [List.cons_append, replaceMatchesFrom, h.rule_append, hnone, getLast?_cons_or]
    show c :: replaceMatchesFrom rule 0 (some c) (s ++ rest) = _
    rw [ih hlater, List.cons_append]
  | @replace prev found matched s t hfound hlength _ ih =>
    have hne : matched ≠ [] := by
      rintro rfl
      simp at hlength
    obtain ⟨c, m, rfl⟩ := List.exists_cons_of_ne_nil hne
    have hhere : rule prev ((c :: m) ++ (s ++ rest)) = some found := by
      rw [← List.append_assoc]
      exact h.rule_append.trans hfound
    have hprev : (c :: m).getLast?.or prev = (c :: m).getLast? := by
      rw [List.getLast?_cons]
      rfl
    have hlater := Settled.of_append (c :: m) h
    rw [hprev] at hlater
    rw [List.append_assoc, replaceMatchesFrom_of_found hhere hlength, ih hlater,
      List.getLast?_append, Option.or_assoc, hprev, List.append_assoc]

/-- Where the first text is settled, both texts are replaced on their own. -/
theorem replaceMatchesFrom_append_of_settled (hbound : rule.Bounded)
    (h : Settled rule prev s rest) :
    replaceMatchesFrom rule 0 prev (s ++ rest) =
      replaceMatchesFrom rule 0 prev s ++ replaceMatchesFrom rule 0 (s.getLast?.or prev) rest :=
  (scans_replaceMatchesFrom hbound prev s).append_of_settled h

/-! ## No match -/

/-- A walk passes over a text in which it finds no match. -/
theorem replaceMatchesFrom_append_of_none
    (h : ∀ before c after, s = before ++ c :: after →
      rule (before.getLast?.or prev) (c :: (after ++ rest)) = none) :
    replaceMatchesFrom rule 0 prev (s ++ rest) =
      s ++ replaceMatchesFrom rule 0 (s.getLast?.or prev) rest := by
  induction s generalizing prev with
  | nil => rfl
  | cons c s ih =>
    have hhere : rule prev (c :: (s ++ rest)) = none := by simpa using h [] c s rfl
    have hlater : replaceMatchesFrom rule 0 (some c) (s ++ rest) =
        s ++ replaceMatchesFrom rule 0 (s.getLast?.or (some c)) rest := by
      refine ih fun before d after hs => ?_
      have hnone := h (c :: before) d after (by rw [hs, List.cons_append])
      rwa [getLast?_cons_or] at hnone
    rw [List.cons_append, replaceMatchesFrom, hhere, getLast?_cons_or]
    show c :: replaceMatchesFrom rule 0 (some c) (s ++ rest) = _
    rw [hlater, List.cons_append]

/-! ## The character before -/

/-- Two characters before a text make no difference to the walk if they make none to the rule at the
first position. -/
theorem replaceMatchesFrom_congr_prev {other : Option Char} (h : rule prev s = rule other s) :
    replaceMatchesFrom rule 0 prev s = replaceMatchesFrom rule 0 other s := by
  cases s with
  | nil => rfl
  | cons c s => rw [replaceMatchesFrom, replaceMatchesFrom, h]

/-- A character at which the rule finds nothing is kept. -/
theorem replaceMatchesFrom_cons_of_none {c : Char} (h : rule prev (c :: s) = none) :
    replaceMatchesFrom rule 0 prev (c :: s) = c :: replaceMatchesFrom rule 0 (some c) s := by
  rw [replaceMatchesFrom, h]

/-- A mark is replaced on both sides of a character that is not part of it. -/
theorem replaceAll_append_cons {d : Char} (hne : mark ≠ []) (hd : d ∉ mark)
    (new s rest : List Char) : replaceAll mark new (s ++ d :: rest) =
      replaceAll mark new s ++ d :: replaceAll mark new rest := by
  have hstart : ∀ u, startsWith mark (u ++ d :: rest) = startsWith mark u := fun u =>
    Bool.eq_iff_iff.mpr <| by
      rw [startsWith_iff, startsWith_iff]
      exact ⟨fun h => prefix_of_prefix_append_cons h hd, List.prefix_append_of_prefix⟩
  have hnone : startsWith mark (d :: rest) = false := by
    rw [← List.nil_append (d :: rest), hstart]
    cases mark with
    | nil => exact absurd rfl hne
    | cons m mark => rfl
  have hprev : replaceMatchesFrom
      (fun _ t => if startsWith mark t then some ⟨new, mark.length - 1⟩ else none) 0 (some d) rest =
        replaceAll mark new rest := replaceMatchesFrom_congr_prev rfl
  unfold replaceAll replaceMatches at *
  rw [replaceMatchesFrom_append_of_settled (markRule_bounded hne new),
    replaceMatchesFrom_cons_of_none (by simp [hnone]), hprev]
  intro before c after _
  rw [← List.cons_append]
  simp only [hstart]

/-! ## Characters of the result -/

/-- A property that replacements take over from matches is taken over by the whole result. -/
theorem Scans.forall_mem {p : Char → Prop} (hscan : Scans rule prev s t)
    (h : ∀ prev matched s found, rule prev (matched ++ s) = some found →
      matched.length = found.extra + 1 → (∀ c ∈ matched, p c) → ∀ c ∈ found.text, p c)
    (hs : ∀ c ∈ s, p c) : ∀ c ∈ t, p c := by
  induction hscan with
  | done => exact hs
  | keep _ _ ih =>
    obtain ⟨hc, hlater⟩ := List.forall_mem_cons.mp hs
    exact List.forall_mem_cons.mpr ⟨hc, ih hlater⟩
  | replace hfound hlength _ ih =>
    obtain ⟨hmatched, hlater⟩ := List.forall_mem_append.mp hs
    exact List.forall_mem_append.mpr ⟨h _ _ _ _ hfound hlength hmatched, ih hlater⟩

/-- A property of the last character is kept if every replacement ends with such a character. -/
theorem Scans.forall_getLast? {p : Char → Prop} (hscan : Scans rule prev s t)
    (h : ∀ prev s found, rule prev s = some found →
      ∃ last, found.text.getLast? = some last ∧ p last)
    (hs : ∀ c ∈ s.getLast?.or prev, p c) : ∀ c ∈ t.getLast?.or prev, p c := by
  induction hscan with
  | done => exact hs
  | @keep prev c s t _ _ ih =>
    rw [getLast?_cons_or] at hs ⊢
    exact ih hs
  | @replace prev found matched s t hfound hlength _ ih =>
    have hne : matched ≠ [] := by
      rintro rfl
      simp at hlength
    rw [List.getLast?_append, Option.or_assoc, List.getLast?_eq_some_getLast hne] at hs
    rw [List.getLast?_eq_some_getLast hne] at ih
    obtain ⟨last, hlast, hp⟩ := h _ _ _ hfound
    rw [List.getLast?_append, Option.or_assoc, hlast]
    intro c hc
    cases ht : t.getLast? with
    | none =>
      rw [ht] at hc
      obtain rfl : last = c := Option.some.inj hc
      exact hp
    | some d =>
      rw [ht] at hc ih
      exact ih hs c hc

/-! ## Characters that a rule does not touch -/

/-- A character that is in no match and in no replacement is in both texts or in none. -/
theorem Scans.mem_iff {d : Char} (hscan : Scans rule prev s t)
    (h : ∀ prev matched s found, rule prev (matched ++ s) = some found →
      matched.length = found.extra + 1 → d ∉ matched ∧ d ∉ found.text) : d ∈ t ↔ d ∈ s := by
  induction hscan with
  | done => exact Iff.rfl
  | keep _ _ ih => rw [List.mem_cons, List.mem_cons, ih]
  | replace hfound hlength _ ih =>
    obtain ⟨hmatched, htext⟩ := h _ _ _ _ hfound hlength
    rw [List.mem_append, List.mem_append, ih]
    simp [hmatched, htext]

end DsdlHeaders.Text

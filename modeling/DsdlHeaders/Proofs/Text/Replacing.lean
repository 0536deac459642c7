import DsdlHeaders.Proofs.Text.Marks

/-!
# Replacing all matches of a rule

`replaceMatches` walks a text once and replaces what a rule matches. This module says what that walk
does to the text as a whole.

* **`Scans`** relates a text to its result: each character is kept where the rule finds nothing, and
  each match gives way to its replacement. Proofs about a rule are inductions on it
  (`scans_replaceMatches`).
* **Nothing to do**: a text in which every match stands for itself stays as it is
  (`replaceMatches_of_idle`), in particular a text without matches.
* **Weights**: give some characters a weight. Where every match weighs more than its replacement,
  a text keeps its weight only if there is no match in it (`replaceMatches_eq_self_iff`), and any
  other text gets lighter (`eq_self_or_countP_lt`).
* **What the result holds**: a rule that puts no text of certain characters together out of its
  replacements and what follows them (`Rule.Traces`) leaves only such texts as were in the source
  before (`Scans.prefix_of_result`, `Scans.infix_of_result`), and none that is always a match
  (`Scans.not_infix_of_traces`). Foreign replacements are the simplest case
  (`Scans.not_infix_of_result`).
-/

namespace DsdlHeaders.Text

/-- What stands in place of a match at a position, given the character before it and the text from
there on. -/
abbrev Rule := Option Char → List Char → Option Replacement

variable {rule : Rule} {prev : Option Char} {s t w : List Char}

/-! ## The walk as a relation -/

/-- How a walk with a rule gets from a text to its result, after the character `prev`. -/
inductive Scans (rule : Rule) : Option Char → List Char → List Char → Prop where
  | done {prev : Option Char} : Scans rule prev [] []
  | keep {prev : Option Char} {c : Char} {s t : List Char} (hnone : rule prev (c :: s) = none)
      (hrest : Scans rule (some c) s t) : Scans rule prev (c :: s) (c :: t)
  | replace {prev : Option Char} {found : Replacement} {matched s t : List Char}
      (hfound : rule prev (matched ++ s) = some found)
      (hlength : matched.length = found.extra + 1)
      (hrest : Scans rule matched.getLast? s t) : Scans rule prev (matched ++ s) (found.text ++ t)

/-- No match reaches beyond the end of the text. -/
def Rule.Bounded (rule : Rule) : Prop :=
  ∀ prev c s found, rule prev (c :: s) = some found → found.extra ≤ s.length

/-- Passing over the characters of a match. -/
theorem replaceMatchesFrom_append (c : Char) (m s : List Char) :
    replaceMatchesFrom rule m.length (some c) (m ++ s) =
      replaceMatchesFrom rule 0 (c :: m).getLast? s := by
  induction m generalizing c with
  | nil => rfl
  | cons d m ih =>
    rw [List.cons_append, List.length_cons, replaceMatchesFrom, ih, List.getLast?_cons_cons]

/-- The walk goes from a text to the text with all matches replaced. -/
theorem scans_replaceMatchesFrom (hrule : rule.Bounded) (prev : Option Char) (s : List Char) :
    Scans rule prev s (replaceMatchesFrom rule 0 prev s) := by
  induction hlength : s.length using Nat.strongRecOn generalizing prev s with
  | ind length ih =>
    subst hlength
    cases s with
    | nil => exact .done
    | cons c s =>
      rw [replaceMatchesFrom]
      cases hfound : rule prev (c :: s) with
      | none => exact .keep hfound (ih s.length (by simp) (some c) s rfl)
      | some found =>
        have hextra := hrule prev c s found hfound
        have hsplit : c :: s = (c :: s.take found.extra) ++ s.drop found.extra := by simp
        have hskip : replaceMatchesFrom rule (s.take found.extra).length (some c)
            (s.take found.extra ++ s.drop found.extra) = _ :=
          replaceMatchesFrom_append c (s.take found.extra) (s.drop found.extra)
        rw [List.take_append_drop, List.length_take, Nat.min_eq_left hextra] at hskip
        show Scans rule prev (c :: s) (found.text ++ replaceMatchesFrom rule found.extra (some c) s)
        rw [hskip, hsplit]
        refine .replace (hsplit ▸ hfound) (by simp [hextra]) (ih _ ?_ _ _ rfl)
        simp only [List.length_drop, List.length_cons]
        omega

/-- The walk over a whole text. -/
theorem scans_replaceMatches (hrule : rule.Bounded) (s : List Char) :
    Scans rule none s (replaceMatches rule s) :=
  scans_replaceMatchesFrom hrule none s

/-! ## Nothing to do -/

/-- Every match in a text stands for itself. -/
def Idle (rule : Rule) : Option Char → List Char → Prop
  | _, [] => True
  | prev, c :: s =>
    (∀ found, rule prev (c :: s) = some found → found.text = (c :: s).take (found.extra + 1)) ∧
      Idle rule (some c) s

/-- A walk in which every match stands for itself changes nothing. -/
theorem replaceMatchesFrom_of_idle (h : Idle rule prev s) (skip : Nat) :
    replaceMatchesFrom rule skip prev s = s.drop skip := by
  induction s generalizing prev skip with
  | nil => simp [replaceMatchesFrom]
  | cons c s ih =>
    obtain ⟨hhead, htail⟩ := h
    cases skip with
    | succ skip => rw [replaceMatchesFrom, ih htail, List.drop_succ_cons]
    | zero =>
      rw [replaceMatchesFrom]
      cases hfound : rule prev (c :: s) with
      | none => simp [ih htail]
      | some found =>
        show found.text ++ replaceMatchesFrom rule found.extra (some c) s = _
        rw [ih htail, hhead found hfound, List.take_succ_cons, List.cons_append,
          List.take_append_drop, List.drop_zero]

/-- A text in which every match stands for itself stays as it is. -/
theorem replaceMatches_of_idle (h : Idle rule none s) : replaceMatches rule s = s :=
  replaceMatchesFrom_of_idle h 0

/-- There is no match in a text. -/
def NoMatch (rule : Rule) : Option Char → List Char → Prop
  | _, [] => True
  | prev, c :: s => rule prev (c :: s) = none ∧ NoMatch rule (some c) s

/-- Where there is no match, nothing is to be done. -/
theorem NoMatch.idle (h : NoMatch rule prev s) : Idle rule prev s := by
  induction s generalizing prev with
  | nil => exact trivial
  | cons c s ih => exact ⟨fun found hfound => by simp [h.1] at hfound, ih h.2⟩

/-- There is no match in a text if there is none at any of its positions. -/
theorem noMatch_iff : NoMatch rule prev s ↔
    ∀ before c after, s = before ++ c :: after →
      rule (before.getLast?.or prev) (c :: after) = none := by
  induction s generalizing prev with
  | nil => simp [NoMatch]
  | cons d s ih =>
    rw [NoMatch, ih]
    constructor
    · rintro ⟨hhead, htail⟩ before c after hs
      cases before with
      | nil =>
        obtain ⟨rfl, rfl⟩ := List.cons.inj hs
        exact hhead
      | cons b before =>
        obtain ⟨rfl, rfl⟩ := List.cons.inj hs
        have hnone := htail before c after rfl
        rw [List.getLast?_cons]
        cases hlast : before.getLast? <;> simpa [hlast] using hnone
    · intro h
      refine ⟨h [] d s rfl, fun before c after hs => ?_⟩
      have hnone := h (d :: before) c after (by rw [hs, List.cons_append])
      rw [List.getLast?_cons] at hnone
      cases hlast : before.getLast? <;> simpa [hlast] using hnone

/-! ## Weights -/

section Weights

variable (heavy : Char → Bool)

/-- No match weighs less than its replacement. -/
def Rule.Keeps (rule : Rule) : Prop :=
  ∀ prev matched s found, rule prev (matched ++ s) = some found →
    matched.length = found.extra + 1 → found.text.countP heavy ≤ matched.countP heavy

/-- Every match weighs more than its replacement. -/
def Rule.Spends (rule : Rule) : Prop :=
  ∀ prev matched s found, rule prev (matched ++ s) = some found →
    matched.length = found.extra + 1 → found.text.countP heavy < matched.countP heavy

variable {heavy}

/-- No walk makes a text heavier. -/
theorem Scans.countP_le (hrule : rule.Keeps heavy) (h : Scans rule prev s t) :
    t.countP heavy ≤ s.countP heavy := by
  induction h with
  | done => exact Nat.le_refl _
  | keep _ _ ih =>
    rw [List.countP_cons, List.countP_cons]
    exact Nat.add_le_add_right ih _
  | replace hfound hlength _ ih =>
    rw [List.countP_append, List.countP_append]
    exact Nat.add_le_add (hrule _ _ _ _ hfound hlength) ih

/-- A rule that spends keeps. -/
theorem Rule.Spends.keeps (hrule : rule.Spends heavy) : rule.Keeps heavy :=
  fun prev matched s found hfound hlength =>
    Nat.le_of_lt (hrule prev matched s found hfound hlength)

/-- A walk that leaves a text as heavy as it was met no match. -/
theorem Scans.noMatch (hrule : rule.Spends heavy) (h : Scans rule prev s t)
    (hweight : s.countP heavy ≤ t.countP heavy) : NoMatch rule prev s := by
  induction h with
  | done => exact trivial
  | keep hnone _ ih =>
    rw [List.countP_cons, List.countP_cons] at hweight
    exact ⟨hnone, ih (Nat.le_of_add_le_add_right hweight)⟩
  | replace hfound hlength hrest _ =>
    rw [List.countP_append, List.countP_append] at hweight
    have hless := hrule _ _ _ _ hfound hlength
    have hle := hrest.countP_le hrule.keeps
    omega

/-- A rule that spends leaves exactly the texts without a match as they are. -/
theorem replaceMatches_eq_self_iff (hbound : rule.Bounded) (hrule : rule.Spends heavy) :
    replaceMatches rule s = s ↔ NoMatch rule none s := by
  constructor
  · intro h
    refine (scans_replaceMatches hbound s).noMatch hrule ?_
    rw [h]
  · exact fun h => replaceMatches_of_idle h.idle

/-- A rule that spends makes every text that it changes lighter. -/
theorem eq_self_or_countP_lt (hbound : rule.Bounded) (hrule : rule.Spends heavy) (s : List Char) :
    replaceMatches rule s = s ∨ (replaceMatches rule s).countP heavy < s.countP heavy := by
  have hscan := scans_replaceMatches hbound s
  rcases Nat.lt_or_ge ((replaceMatches rule s).countP heavy) (s.countP heavy) with hlt | hge
  · exact .inr hlt
  · exact .inl (replaceMatches_of_idle (hscan.noMatch hrule hge).idle)

end Weights

/-! ## What the result holds -/

section Results

variable {p : Char → Prop}

/-- What stands at the front of a replacement and what follows it, and has characters of one kind
only, stands at the front of the match, provided that this holds for what follows. -/
def Rule.Traces (rule : Rule) (p : Char → Prop) : Prop :=
  ∀ prev matched s found w t, rule prev (matched ++ s) = some found →
    matched.length = found.extra + 1 → (∀ c ∈ w, p c) → (w <+: t → w <+: s) →
      w <+: found.text ++ t → w <+: matched ++ s

/-- A rule whose replacements start with a character of another kind traces. -/
theorem Rule.Traces.of_head (hrule : ∀ prev s found, rule prev s = some found →
    ∃ d text, found.text = d :: text ∧ ¬ p d) : rule.Traces p := by
  intro prev matched s found w t hfound _ hw _ hfront
  obtain ⟨d, text, htext, hd⟩ := hrule _ _ _ hfound
  cases w with
  | nil => exact List.nil_prefix
  | cons c w =>
    rw [htext, List.cons_append] at hfront
    obtain ⟨rfl, -⟩ := List.cons_prefix_cons.mp hfront
    exact absurd (hw c List.mem_cons_self) hd

/-- What stands at the front of the result stands at the front of the source. -/
theorem Scans.prefix_of_result (h : Scans rule prev s t) (hrule : rule.Traces p)
    (hp : ∀ c ∈ w, p c) (hw : w <+: t) : w <+: s := by
  induction h generalizing w with
  | done => exact hw
  | keep _ _ ih =>
    cases w with
    | nil => exact List.nil_prefix
    | cons c w =>
      obtain ⟨rfl, htail⟩ := List.cons_prefix_cons.mp hw
      exact List.cons_prefix_cons.mpr ⟨rfl, ih (List.forall_mem_cons.mp hp).2 htail⟩
  | replace hfound hlength _ ih => exact hrule _ _ _ _ _ _ hfound hlength hp (ih hp) hw

/-- What lies in the result lies in the source, if the rule puts it together nowhere. -/
theorem Scans.infix_of_result (h : Scans rule prev s t) (hrule : rule.Traces p)
    (hp : ∀ c ∈ w, p c)
    (hinside : ∀ prev matched s found t, rule prev (matched ++ s) = some found →
      matched.length = found.extra + 1 → (w <:+: t → w <:+: s) →
        w <:+: found.text ++ t → w <:+: matched ++ s) (hw : w <:+: t) : w <:+: s := by
  induction h with
  | done => exact hw
  | keep hnone hrest ih =>
    rcases List.infix_cons_iff.mp hw with hfront | hlater
    · exact (Scans.prefix_of_result (.keep hnone hrest) hrule hp hfront).isInfix
    · exact (ih hlater).trans (List.suffix_cons _ _).isInfix
  | replace hfound hlength _ ih => exact hinside _ _ _ _ _ hfound hlength ih hw

/-- A text that is always a match does not lie in the result, if no replacement has a part in it. -/
theorem Scans.not_infix_of_traces {c : Char} (h : Scans rule prev s t)
    (hmatch : ∀ prev s, c :: w <+: s → rule prev s ≠ none) (hrule : rule.Traces p)
    (hp : ∀ d ∈ w, p d)
    (hbehind : ∀ prev matched s found t, rule prev (matched ++ s) = some found →
      matched.length = found.extra + 1 → c :: w <:+: found.text ++ t → c :: w <:+: t) :
    ¬ c :: w <:+: t := by
  intro hinfix
  induction h with
  | done => exact absurd (List.infix_nil.mp hinfix) (List.cons_ne_nil _ _)
  | keep hnone hrest ih =>
    rcases List.infix_cons_iff.mp hinfix with hfront | hlater
    · obtain ⟨rfl, htail⟩ := List.cons_prefix_cons.mp hfront
      have hsource := hrest.prefix_of_result hrule hp htail
      exact hmatch _ _ (List.cons_prefix_cons.mpr ⟨rfl, hsource⟩) hnone
    · exact ih hlater
  | replace hfound hlength _ ih => exact ih (hbehind _ _ _ _ _ hfound hlength hinfix)

/-- A text that is always a match, and that shares no character with any replacement, does not lie
in the result. -/
theorem Scans.not_infix_of_result (h : Scans rule prev s t) (hne : w ≠ [])
    (hmatch : ∀ prev s, w <+: s → rule prev s ≠ none)
    (hrule : ∀ prev s found, rule prev s = some found →
      found.text ≠ [] ∧ ∀ c ∈ found.text, c ∉ w) : ¬ w <:+: t := by
  obtain ⟨c, inner, rfl⟩ := List.exists_cons_of_ne_nil hne
  refine h.not_infix_of_traces hmatch (.of_head fun prev s found hfound => ?_)
    (fun d hd => List.mem_cons_of_mem c hd) fun prev matched s found t hfound _ hinfix => ?_
  · obtain ⟨htext, hforeign⟩ := hrule prev s found hfound
    obtain ⟨d, text, hcons⟩ := List.exists_cons_of_ne_nil htext
    exact ⟨d, text, hcons, hforeign d (by simp [hcons])⟩
  · have hforeign := (hrule _ _ _ hfound).2
    exact infix_of_infix_append hinfix fun hmem => hforeign c hmem List.mem_cons_self

end Results

end DsdlHeaders.Text

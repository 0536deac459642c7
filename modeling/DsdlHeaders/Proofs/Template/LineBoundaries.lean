import DsdlHeaders.Proofs.Template.BareLines
import DsdlHeaders.Proofs.Text.Boundaries

/-!
# Templates one after the other

Two templates can be brought into primitive notation on their own and put together afterwards, if
the first one ends with a line feed and leaves nothing unfinished. Each rule is shown to work on
both sides of that line feed.

* **Continuations** take indentation with them, so a continued last line would reach into the next
  template (`settled_continuationRule`).
* **Substitutions** may go on over many lines. One that has no closing brace in the first template
  would find it in the second (`settled_substitutionRule`). Joining lines neither opens nor closes a
  substitution (`staysOpen_iff_of_scans`).
* **Control lines** and the rules that clean up work line by line (`markControlLines_append`,
  `cleaned_append_of_feed`).

Main statement: `toPrimitive_append`.
-/

namespace DsdlHeaders.Text

variable {s : List Char}

/-- A text that ends with a line feed starts with a whole line. -/
theorem exists_isWholeLine (h : s.getLast? = some '\n') :
    ∃ line later, s = line ++ later ∧ IsWholeLine line ∧
      (later = [] ∨ later.getLast? = some '\n') := by
  obtain ⟨line, later, rfl, hline⟩ := List.eq_append_cons_of_mem (List.mem_of_getLast? h)
  refine ⟨line ++ ['\n'], later, by simp, ⟨line, rfl, hline⟩, ?_⟩
  cases later with
  | nil => exact .inl rfl
  | cons c later => exact .inr (by simpa using h)

/-- Characters of a kind in front of a text end before a text that does not go on with them. -/
theorem takeWhile_append_of_head {p : Char → Bool} {rest : List Char}
    (h : (∀ c ∈ s, p c = true) → ∀ c ∈ rest.head?, p c = false) :
    (s ++ rest).takeWhile p = s.takeWhile p := by
  induction s with
  | nil =>
    cases rest with
    | nil => rfl
    | cons c rest => exact List.takeWhile_cons_of_neg (by simpa using h (by simp) c rfl)
  | cons c s ih =>
    by_cases hc : p c = true
    · rw [List.cons_append, List.takeWhile_cons_of_pos hc, List.takeWhile_cons_of_pos hc,
        ih fun hs => h (List.forall_mem_cons.mpr ⟨hc, hs⟩)]
    · rw [List.cons_append, List.takeWhile_cons_of_neg hc, List.takeWhile_cons_of_neg hc]

end DsdlHeaders.Text

namespace DsdlHeaders.Template.Extended

open Text

variable {s t rest : List Char} {prev : Option Char}

/-! ## Continuations -/

/-- The last line of a text is continued, and nothing of the next line is there. -/
def EndsContinued (s : List Char) : Prop :=
  ['\\', '\n'] <:+ s ∨ ['\\', '\r', '\n'] <:+ s

/-- Whether the last line is continued can be decided. -/
instance (s : List Char) : Decidable (EndsContinued s) :=
  inferInstanceAs (Decidable (_ ∨ _))

/-- The indentation that a continuation takes ends with the first text, if the second does not go on
with indentation or the first goes on after its own. -/
theorem takeWhile_isIndent_append {before ending next : List Char} (hending : IsLineBreak ending)
    (hs : s = before ++ '\\' :: (ending ++ next))
    (hindent : ∀ c ∈ rest.head?, isIndent c = true →
      ¬ EndsContinued s ∧ ∀ d ∈ s.getLast?, isIndent d = false) :
    (next ++ rest).takeWhile isIndent = next.takeWhile isIndent := by
  refine takeWhile_append_of_head fun hall c hc => ?_
  by_contra hindented
  obtain ⟨hended, hlast⟩ := hindent c hc (by simpa using hindented)
  rcases List.eq_nil_or_concat next with rfl | ⟨inner, last, rfl⟩
  · refine hended ?_
    rw [hs, List.append_nil]
    rcases hending with rfl | rfl
    · exact .inl ⟨before, rfl⟩
    · exact .inr ⟨before, rfl⟩
  · have hend : s = (before ++ '\\' :: (ending ++ inner)) ++ [last] := by simp [hs]
    have hindented := hall last (by simp)
    rw [hlast last (by rw [hend, List.getLast?_concat]; rfl)] at hindented
    exact absurd hindented (by simp)

/-- The line break that a continuation joins lies in the first text, if the second does not complete
one that the first ends in. -/
theorem exists_of_lineBreak_append {before after ending next : List Char}
    (hending : IsLineBreak ending) (hs : s = before ++ '\\' :: after)
    (hsplit : after ++ rest = ending ++ next)
    (hbreak : s.getLast? = some '\\' → ∀ ending, IsLineBreak ending → ¬ ending <+: rest)
    (hreturn : ['\\', '\r'] <:+ s → rest.head? ≠ some '\n') :
    ∃ next', after = ending ++ next' ∧ next = next' ++ rest := by
  rcases after with - | ⟨c, after⟩
  · -- the backslash is the last character
    have hnot := hbreak (by simp [hs]) ending hending
    exact absurd ⟨next, hsplit.symm⟩ hnot
  · rcases hending with rfl | rfl
    · obtain ⟨rfl, hnext⟩ := List.cons.inj hsplit
      exact ⟨after, rfl, hnext.symm⟩
    · obtain ⟨rfl, hlater⟩ := List.cons.inj hsplit
      rcases after with - | ⟨d, after⟩
      · -- the carriage return is the last character
        have hrest : rest = '\n' :: next := hlater
        exact absurd (by rw [hrest]; rfl) (hreturn ⟨before, hs.symm⟩)
      · obtain ⟨rfl, hnext⟩ := List.cons.inj hlater
        exact ⟨after, rfl, hnext.symm⟩

/-- No continuation reaches from the first text into the second, if the first does not end in one
that the second completes, and the second does not go on with indentation that one would take. -/
theorem settled_continuationRule
    (hbreak : s.getLast? = some '\\' → ∀ ending, IsLineBreak ending → ¬ ending <+: rest)
    (hreturn : ['\\', '\r'] <:+ s → rest.head? ≠ some '\n')
    (hindent : ∀ c ∈ rest.head?, isIndent c = true →
      ¬ EndsContinued s ∧ ∀ d ∈ s.getLast?, isIndent d = false) :
    Settled continuationRule prev s rest := by
  intro before c after hs
  generalize before.getLast?.or prev = here
  cases hfound : continuationRule here (c :: (after ++ rest)) with
  | none =>
    rw [eq_comm, Option.eq_none_iff_forall_ne_some]
    intro found hafter
    obtain ⟨ending, next, hending, hsplit, -⟩ := continuationRule_eq_some hafter
    have hsome := continuationRule_append here hending (next ++ rest)
    rw [← List.append_assoc, ← List.cons_append, ← hsplit] at hsome
    exact absurd (hfound.symm.trans hsome) (by simp)
  | some found =>
    obtain ⟨ending, next, hending, hsplit, rfl⟩ := continuationRule_eq_some hfound
    obtain ⟨rfl, hlater⟩ := List.cons.inj hsplit
    obtain ⟨next, rfl, rfl⟩ := exists_of_lineBreak_append hending hs hlater hbreak hreturn
    rw [continuationRule_append here hending, takeWhile_isIndent_append hending hs hindent]

/-- Lines are joined on both sides of a line feed that is not continued. -/
theorem joinContinuations_append (h : ¬ EndsContinued (s ++ ['\n'])) (rest : List Char) :
    joinContinuations (s ++ '\n' :: rest) =
      joinContinuations s ++ '\n' :: joinContinuations rest := by
  have hsettled : Settled continuationRule none s ('\n' :: rest) := by
    refine settled_continuationRule (fun hlast => ?_) (fun hreturn => ?_) (fun c hc hindent => ?_)
    · obtain ⟨lead, rfl⟩ := List.getLast?_eq_some_iff.mp hlast
      exact absurd (.inl ⟨lead, by simp⟩) h
    · obtain ⟨lead, rfl⟩ := hreturn
      exact absurd (.inr ⟨lead, by simp⟩) h
    · obtain rfl : '\n' = c := by simpa using hc
      exact absurd hindent (by decide)
  have hprev : replaceMatchesFrom continuationRule 0 (some '\n') rest = joinContinuations rest :=
    replaceMatchesFrom_congr_prev rfl
  unfold joinContinuations replaceMatches at *
  rw [replaceMatchesFrom_append_of_settled continuationRule_bounded hsettled,
    replaceMatchesFrom_cons_of_none rfl, hprev]

/-! ## Open substitutions -/

/-- Somewhere `$` and an opening brace stand, not after another `$`, and no closing brace comes
after them. -/
def HasOpenSubstitution (s : List Char) : Prop :=
  ∃ before after, s = before ++ '$' :: '\x7b' :: after ∧ before.getLast? ≠ some '$' ∧
    '\x7d' ∉ after

/-- The same of a text that follows the character `prev`, position by position. -/
def StaysOpen : Option Char → List Char → Prop
  | _, [] => False
  | prev, c :: s =>
    c = '$' ∧ prev ≠ some '$' ∧ s.head? = some '\x7b' ∧ '\x7d' ∉ s ∨ StaysOpen (some c) s

/-- Whether a substitution stays open can be decided. -/
instance decidableStaysOpen : (prev : Option Char) → (s : List Char) → Decidable (StaysOpen prev s)
  | _, [] => inferInstanceAs (Decidable False)
  | _, c :: s =>
    have := decidableStaysOpen (some c) s
    inferInstanceAs (Decidable (_ ∨ _))

/-- A substitution stays open if it does so at some position. -/
theorem staysOpen_iff : StaysOpen prev s ↔
    ∃ before after, s = before ++ '$' :: '\x7b' :: after ∧ before.getLast?.or prev ≠ some '$' ∧
      '\x7d' ∉ after := by
  induction s generalizing prev with
  | nil => simp [StaysOpen]
  | cons c s ih =>
    rw [StaysOpen, ih]
    constructor
    · rintro (⟨rfl, hprev, hhead, hclose⟩ | ⟨before, after, rfl, hprev, hclose⟩)
      · obtain ⟨after, rfl⟩ := List.head?_eq_some_iff.mp hhead
        exact ⟨[], after, rfl, hprev, fun hmem => hclose (List.mem_cons_of_mem _ hmem)⟩
      · exact ⟨c :: before, after, rfl, by rwa [getLast?_cons_or], hclose⟩
    · rintro ⟨before, after, hs, hprev, hclose⟩
      cases before with
      | nil =>
        obtain ⟨rfl, rfl⟩ := List.cons.inj hs
        exact .inl ⟨rfl, hprev, rfl, by simp [hclose]⟩
      | cons b before =>
        obtain ⟨rfl, rfl⟩ := List.cons.inj hs
        rw [getLast?_cons_or] at hprev
        exact .inr ⟨before, after, rfl, hprev, hclose⟩

/-- A text has an open substitution if one stays open from its start. -/
theorem hasOpenSubstitution_iff : HasOpenSubstitution s ↔ StaysOpen none s := by
  simp only [staysOpen_iff, Option.or_none]
  exact Iff.rfl

/-- Whether a text has an open substitution can be decided. -/
instance (s : List Char) : Decidable (HasOpenSubstitution s) :=
  decidable_of_iff _ hasOpenSubstitution_iff.symm

/-- No substitution starts in a text without dollar signs. -/
theorem staysOpen_append_of_not_mem {lead : List Char} (h : '$' ∉ lead) :
    StaysOpen prev (lead ++ s) ↔ StaysOpen (lead.getLast?.or prev) s := by
  induction lead generalizing prev with
  | nil => exact Iff.rfl
  | cons c lead ih =>
    obtain ⟨hc, hlead⟩ := not_or.mp (List.mem_cons.not.mp h)
    rw [List.cons_append, StaysOpen, ih hlead, getLast?_cons_or]
    simp [Ne.symm hc]

/-- No substitution reaches from the first text into the second, if none stays open in the first or
no closing brace is in the second. -/
theorem settled_substitutionRule (hopen : StaysOpen prev s → '\x7d' ∉ rest)
    (hdollar : s.getLast? = some '$' → rest.head? ≠ some '\x7b') :
    Settled substitutionRule prev s rest := by
  intro before c after hs
  by_cases hc : c = '$'
  · subst hc
    rcases after with - | ⟨d, after⟩
    · have hhead := hdollar (by simp [hs])
      cases rest with
      | nil => rfl
      | cons d rest =>
        have hd : d ≠ '\x7b' := by simpa using hhead
        simp [substitutionRule, hd]
    · by_cases hd : d = '\x7b'
      · subst hd
        by_cases hprev : before.getLast?.or prev = some '$'
        · simp [substitutionRule, hprev]
        · by_cases hmem : '\x7d' ∈ after
          · obtain ⟨body, later, rfl, hbody⟩ := List.eq_append_cons_of_mem hmem
            have hcut : cut? ['\x7d'] (body ++ '\x7d' :: later) = some (body, later) :=
              cut?_singleton_iff.mpr ⟨rfl, hbody⟩
            have hcut' : cut? ['\x7d'] (body ++ '\x7d' :: later ++ rest) =
                some (body, later ++ rest) :=
              cut?_singleton_iff.mpr ⟨by simp, hbody⟩
            rw [List.cons_append, substitutionRule, substitutionRule, hcut, hcut']
            cases body <;> rfl
          · have hrest := hopen (staysOpen_iff.mpr ⟨before, after, hs, hprev, hmem⟩)
            have hnone : ∀ u : List Char, '\x7d' ∉ u → cut? ['\x7d'] u = none := fun u hu =>
              cut?_eq_none_iff.mpr fun hinside => hu (hinside.subset List.mem_cons_self)
            have hboth : '\x7d' ∉ after ++ rest := by simp [hmem, hrest]
            rw [List.cons_append, substitutionRule, substitutionRule, hnone _ hmem, hnone _ hboth]
      · simp [substitutionRule, hd]
  · simp [substitutionRule, hc]

/-- The characters that the rule for continuations takes and gives open and close nothing. -/
theorem not_mem_of_continuation {matched : List Char} {found : Replacement} {d : Char}
    (hd : d ∉ ['\\', '\n', '\r', ' ', '\t'])
    (h : continuationRule prev (matched ++ s) = some found)
    (hlength : matched.length = found.extra + 1) : d ∉ matched ∧ d ∉ found.text := by
  obtain ⟨lead, next, hlead, rfl, -, rfl⟩ := exists_lead_of_continuation h hlength
  refine ⟨fun hmem => ?_, fun hmem => hd ?_⟩
  · rcases List.mem_cons.mp hmem with rfl | hmem
    · exact hd (by decide)
    rcases List.mem_append.mp hmem with hmem | hmem
    · rcases hlead with rfl | rfl
      · exact hd (by rw [List.mem_singleton.mp hmem]; decide)
      · rcases List.mem_cons.mp hmem with rfl | hmem
        · exact hd (by decide)
        · exact hd (by rw [List.mem_singleton.mp hmem]; decide)
    · have hindent := List.mem_takeWhile_imp hmem
      simp only [isIndent, Bool.or_eq_true, beq_iff_eq] at hindent
      rcases hindent with rfl | rfl
      · exact hd (by decide)
      · exact hd (by decide)
  · rw [List.mem_singleton.mp hmem]
    decide

/-- Joining lines neither opens nor closes a substitution. -/
theorem staysOpen_iff_of_scans {other : Option Char} (h : Scans continuationRule prev s t)
    (hprev : other = some '$' ↔ prev = some '$') : StaysOpen other t ↔ StaysOpen prev s := by
  induction h generalizing other with
  | done => exact Iff.rfl
  | @keep prev c s t hnone hrest ih =>
    have hclose : '\x7d' ∈ t ↔ '\x7d' ∈ s := hrest.mem_iff fun prev matched s found =>
      not_mem_of_continuation (by decide)
    have hhead : t.head? = some '\x7b' ↔ s.head? = some '\x7b' := by
      cases hrest with
      | done => exact Iff.rfl
      | keep _ _ => exact Iff.rfl
      | replace hfound hlength _ =>
        obtain ⟨lead, next, -, hs, rfl⟩ := continuationRule_eq_some hfound
        rw [hs]
        simp
    rw [StaysOpen, StaysOpen, ih Iff.rfl, hclose, hhead, ne_eq, hprev]
  | @replace prev found matched s t hfound hlength hrest ih =>
    obtain ⟨hmatched, htext⟩ := not_mem_of_continuation (d := '$') (by decide) hfound hlength
    have hlast : ∀ u : List Char, '$' ∉ u → u.getLast? ≠ some '$' := fun u hu hlast =>
      hu (List.mem_of_getLast? hlast)
    obtain ⟨lead, next, -, -, rfl⟩ := continuationRule_eq_some hfound
    have hne : matched ≠ [] := by
      rintro rfl
      simp at hlength
    rw [staysOpen_append_of_not_mem htext, staysOpen_append_of_not_mem hmatched]
    have hsame : StaysOpen (some ' ') t ↔ StaysOpen matched.getLast? s :=
      ih (by simp [hlast matched hmatched])
    rw [List.getLast?_eq_some_getLast hne] at hsame ⊢
    exact hsame

/-- A template has an open substitution after its lines are joined exactly when it has one
before. -/
theorem hasOpenSubstitution_joinContinuations :
    HasOpenSubstitution (joinContinuations s) ↔ HasOpenSubstitution s := by
  rw [hasOpenSubstitution_iff, hasOpenSubstitution_iff]
  exact staysOpen_iff_of_scans (scans_replaceMatches continuationRule_bounded s) Iff.rfl

/-- Substitutions are marked on both sides of a line feed before which none stays open. -/
theorem markSubstitutions_append (h : ¬ HasOpenSubstitution s) (rest : List Char) :
    markSubstitutions (s ++ '\n' :: rest) =
      markSubstitutions s ++ '\n' :: markSubstitutions rest := by
  have hsettled : Settled substitutionRule none s ('\n' :: rest) :=
    settled_substitutionRule (fun hopen => absurd (hasOpenSubstitution_iff.mpr hopen) h)
      (fun _ => by simp)
  have hprev : ∀ u : List Char, substitutionRule (some '\n') u = substitutionRule none u := by
    intro u
    unfold substitutionRule
    simp
  unfold markSubstitutions replaceMatches
  rw [replaceMatchesFrom_append_of_settled substitutionRule_bounded hsettled,
    replaceMatchesFrom_cons_of_none rfl, replaceMatchesFrom_congr_prev (hprev rest)]

/-! ## Control lines and cleaning up -/

/-- Control lines are marked on both sides of a line feed. -/
theorem markControlLines_append (s rest : List Char) :
    markControlLines (s ++ '\n' :: rest) = markControlLines s ++ '\n' :: markControlLines rest := by
  have hne : ∀ u : List Char, (splitOn '\n' u).map markControlLine ≠ [] := fun u =>
    List.map_eq_nil_iff.not.mpr (splitOn_ne_nil '\n' u)
  unfold markControlLines
  rw [splitOn_append_cons, List.map_append, joinWith_append (hne s) (hne rest), List.append_assoc]
  rfl

/-- Cleaning up works on both sides of a line feed. -/
theorem cleaned_append_of_feed (hs : s.getLast? = some '\n') (rest : List Char) :
    cleaned (s ++ rest) = cleaned s ++ cleaned rest := by
  induction hlength : s.length using Nat.strongRecOn generalizing s with
  | ind length ih =>
    subst hlength
    obtain ⟨line, later, rfl, hline, rfl | hlater⟩ := exists_isWholeLine hs
    · rw [List.append_nil]
      exact cleaned_append hline rest
    · have hshorter : later.length < (line ++ later).length := by
        obtain ⟨content, rfl, -⟩ := hline
        simp only [List.length_append, List.length_singleton]
        omega
      rw [List.append_assoc, cleaned_append hline, ih _ hshorter hlater rfl, cleaned_append hline,
        List.append_assoc]

/-! ## Both templates -/

/-- A template that ends with a line feed which is not continued, and in which every substitution
that starts is closed, comes into primitive notation on its own, whatever template follows it. -/
theorem toPrimitive_append {s : List Char} (hfeed : s.getLast? = some '\n')
    (hjoin : ¬ EndsContinued s) (hclosed : ¬ HasOpenSubstitution s) (rest : List Char) :
    toPrimitive (s ++ rest) = toPrimitive s ++ toPrimitive rest := by
  obtain ⟨lead, rfl⟩ := List.getLast?_eq_some_iff.mp hfeed
  have hlead : ¬ HasOpenSubstitution (joinContinuations lead) := by
    rw [hasOpenSubstitution_joinContinuations]
    rintro ⟨before, after, rfl, hprev, hmem⟩
    exact hclosed ⟨before, after ++ ['\n'], by simp, hprev, by simp [hmem]⟩
  -- the rules before cleaning up leave the line feed where it is
  have hsplit : ∀ u : List Char, toPrimitive (lead ++ '\n' :: u) =
      cleaned (markControlLines (markSubstitutions (joinContinuations lead)) ++ ['\n']) ++
        toPrimitive u := by
    intro u
    show cleaned (markControlLines (markSubstitutions (joinContinuations (lead ++ '\n' :: u)))) = _
    rw [joinContinuations_append hjoin, markSubstitutions_append hlead, markControlLines_append,
      ← List.singleton_append, ← List.append_assoc, cleaned_append_of_feed (by simp)]
    rfl
  have hempty : toPrimitive [] = [] := rfl
  rw [List.append_assoc, List.singleton_append, hsplit rest, hsplit [], hempty, List.append_nil]

/-- The head of a loop, with a substitution over two lines and a continued line. -/
def loopHead : List Char :=
  "% for a in b:\n\t$\x7ba(\n 1)\x7d \\\n  $$\x7b #! c\n".toList

/-- A loop may be cut behind any line of its body that is complete. -/
theorem toPrimitive_append_loopHead :
    loopHead.getLast? = some '\n' ∧ ¬ EndsContinued loopHead ∧ ¬ HasOpenSubstitution loopHead ∧
      toPrimitive (loopHead ++ "  \x7d\n% endfor".toList) =
        toPrimitive loopHead ++ toPrimitive "  \x7d\n% endfor".toList ∧
      toPrimitive loopHead = "<!--(for a in b)-->\n\t$!a(\n 1)!$  $$\x7b\n".toList := by
  have hfeed : loopHead.getLast? = some '\n' := by decide +kernel
  have hjoin : ¬ EndsContinued loopHead := by decide +kernel
  have hclosed : ¬ HasOpenSubstitution loopHead := by decide +kernel
  exact ⟨hfeed, hjoin, hclosed, toPrimitive_append hfeed hjoin hclosed _, by decide +kernel⟩

end DsdlHeaders.Template.Extended

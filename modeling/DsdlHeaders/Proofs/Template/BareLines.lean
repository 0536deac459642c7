import DsdlHeaders.Proofs.Template.LineEndings

/-!
# Bare lines in primitive notation

A control line with nothing but indentation after its percent sign is marked differently in the two
spellings of a template. No later rule makes up for that, so two spellings of a template come to the
same in primitive notation exactly when the rule for control lines meets no such line
(`withoutReturns_toPrimitive_eq_iff`).

* **Line by line.** The three rules that clean up look neither back nor beyond the end of a line
  (`Rule.IsLocal`), so they can be applied to each line on its own (`cleaned_append`).
* **Bare lines.** What a bare line becomes holds nothing that these rules look for
  (`IsBareLine.cleaned_markControlLine`), so the first bare line shows in the result
  (`not_isBareLine_of_linesReturned`).
-/

namespace DsdlHeaders.Text

variable {rule : Rule} {prev : Option Char} {s t w : List Char}

/-! ## Rules that work line by line -/

/-- A line feed ends the text, and there is no other one in it. -/
def IsWholeLine (s : List Char) : Prop :=
  ∃ line, s = line ++ ['\n'] ∧ '\n' ∉ line

/-- A rule does not look at the character before a position, nor beyond the end of the line. -/
structure Rule.IsLocal (rule : Rule) : Prop where
  behind : ∀ prev prev' s, rule prev s = rule prev' s
  ahead : ∀ prev s rest, IsWholeLine s → rule prev (s ++ rest) = rule prev s

/-- What follows the start of a whole line is the rest of it, or nothing after its line feed. -/
theorem IsWholeLine.of_append {lead : List Char} (h : IsWholeLine (lead ++ s)) :
    s = [] ∧ lead.getLast? = some '\n' ∨ '\n' ∉ lead ∧ IsWholeLine s := by
  obtain ⟨line, hline, hfeed⟩ := h
  rcases List.eq_nil_or_concat s with rfl | ⟨before, last, rfl⟩
  · left
    rw [List.append_nil] at hline
    exact ⟨rfl, by rw [hline, List.getLast?_concat]⟩
  · right
    rw [List.concat_eq_append, ← List.append_assoc] at hline
    obtain ⟨rfl, hlast⟩ := List.append_inj' hline rfl
    obtain ⟨hlead, hbefore⟩ := not_or.mp (List.mem_append.not.mp hfeed)
    exact ⟨hlead, before, by rw [List.concat_eq_append, hlast], hbefore⟩

/-- The walk over a whole line does not depend on what follows the line. -/
theorem Scans.append_rest (hrule : rule.IsLocal) (h : Scans rule prev s t)
    (hline : s = [] ∧ prev = some '\n' ∨ IsWholeLine s) (rest : List Char) :
    replaceMatchesFrom rule 0 prev (s ++ rest) =
      t ++ replaceMatchesFrom rule 0 (some '\n') rest := by
  induction h with
  | done =>
    obtain ⟨-, rfl⟩ | ⟨line, hline, -⟩ := hline
    · rfl
    · exact absurd hline (by simp)
  | @keep prev c s t hnone _ ih =>
    obtain hwhole := hline.resolve_left (by simp)
    have hahead := hrule.ahead prev _ rest hwhole
    rw [List.cons_append] at hahead ⊢
    rw [replaceMatchesFrom, hahead, hnone]
    show c :: replaceMatchesFrom rule 0 (some c) (s ++ rest) = _
    rw [ih ((IsWholeLine.of_append (show IsWholeLine ([c] ++ s) from hwhole)).imp_right And.right)]
    rfl
  | @replace prev found matched s t hfound hlength _ ih =>
    have hne : matched ++ s ≠ [] := by
      intro hnil
      rw [(List.append_eq_nil_iff.mp hnil).1] at hlength
      simp at hlength
    obtain hwhole := hline.resolve_left fun hnil => hne hnil.1
    have hahead := hrule.ahead prev _ rest hwhole
    rw [List.append_assoc] at hahead ⊢
    rw [replaceMatchesFrom_of_found (hahead.trans hfound) hlength,
      ih (hwhole.of_append.imp_right And.right), List.append_assoc]

/-- Where a rule does not look at the character before a position, neither does the walk. -/
theorem replaceMatchesFrom_eq_of_isLocal (hrule : rule.IsLocal) (skip : Nat)
    (prev prev' : Option Char) (s : List Char) :
    replaceMatchesFrom rule skip prev s = replaceMatchesFrom rule skip prev' s := by
  cases s with
  | nil => rw [replaceMatchesFrom, replaceMatchesFrom]
  | cons c s =>
    cases skip with
    | zero => rw [replaceMatchesFrom, replaceMatchesFrom, hrule.behind prev prev']
    | succ skip => rw [replaceMatchesFrom, replaceMatchesFrom]

/-- A local rule works line by line. -/
theorem replaceMatches_append (hbound : rule.Bounded) (hrule : rule.IsLocal) (hs : IsWholeLine s)
    (rest : List Char) :
    replaceMatches rule (s ++ rest) = replaceMatches rule s ++ replaceMatches rule rest := by
  unfold replaceMatches
  rw [(scans_replaceMatchesFrom hbound none s).append_rest hrule (.inr hs),
    replaceMatchesFrom_eq_of_isLocal hrule 0 (some '\n') none]

/-- The walk over nothing gives nothing. -/
theorem Scans.eq_nil (h : Scans rule prev [] t) : t = [] := by
  generalize hs : ([] : List Char) = s at h
  cases h with
  | done => rfl
  | keep _ _ => exact absurd hs (by simp)
  | replace _ hlength _ =>
    rw [(List.append_eq_nil_iff.mp hs.symm).1] at hlength
    simp at hlength

/-- A rule that takes and gives pieces of lines makes whole lines of whole lines. -/
theorem Scans.isWholeLine (hrule : ∀ prev matched s found, rule prev (matched ++ s) = some found →
      matched.length = found.extra + 1 → '\n' ∉ matched ∧ '\n' ∉ found.text)
    (h : Scans rule prev s t) (hs : IsWholeLine s) : IsWholeLine t := by
  induction h with
  | done => exact hs
  | @keep prev c s t _ hrest ih =>
    obtain ⟨rfl, hlast⟩ | ⟨hc, hwhole⟩ :=
      IsWholeLine.of_append (show IsWholeLine ([c] ++ s) from hs)
    · rw [hrest.eq_nil]
      exact hs
    · obtain ⟨line, rfl, hline⟩ := ih hwhole
      exact ⟨c :: line, rfl, fun hmem => (List.mem_cons.mp hmem).elim
        (fun heq => hc (List.mem_singleton.mpr heq)) hline⟩
  | @replace prev found matched s t hfound hlength _ ih =>
    obtain ⟨hmatched, htext⟩ := hrule _ _ _ _ hfound hlength
    obtain ⟨-, hlast⟩ | ⟨-, hwhole⟩ := hs.of_append
    · exact absurd (List.mem_of_getLast? hlast) hmatched
    · obtain ⟨line, rfl, hline⟩ := ih hwhole
      refine ⟨found.text ++ line, by rw [List.append_assoc], fun hmem => ?_⟩
      rcases List.mem_append.mp hmem with hmem | hmem
      · exact htext hmem
      · exact hline hmem

/-- What stands in front of a whole line and holds no line feed does not depend on what follows the
line. -/
theorem IsWholeLine.prefix_iff (hs : IsWholeLine s) (hw : '\n' ∉ w) (rest : List Char) :
    w <+: s ++ rest ↔ w <+: s := by
  obtain ⟨line, rfl, -⟩ := hs
  constructor
  · intro h
    rw [List.append_assoc] at h
    exact (prefix_of_prefix_append_cons h hw).trans (List.prefix_append _ _)
  · exact fun h => h.trans (List.prefix_append _ _)

/-- Characters of a kind in front of a whole line end in the line. -/
theorem IsWholeLine.takeWhile_append {p : Char → Bool} (hs : IsWholeLine s) (hp : p '\n' = false)
    (rest : List Char) :
    (s ++ rest).takeWhile p = s.takeWhile p ∧ (s ++ rest).dropWhile p = s.dropWhile p ++ rest ∧
      IsWholeLine (s.dropWhile p) := by
  obtain ⟨line, rfl, hline⟩ := hs
  induction line with
  | nil => exact ⟨by simp [hp], by simp [hp], [], by simp [hp], hline⟩
  | cons c line ih =>
    have hlater : '\n' ∉ line := fun hmem => hline (List.mem_cons_of_mem _ hmem)
    obtain ⟨htake, hdrop, hwhole⟩ := ih hlater
    by_cases hc : p c = true
    · simp only [List.cons_append, List.takeWhile_cons_of_pos hc, List.dropWhile_cons_of_pos hc]
      exact ⟨by rw [htake], hdrop, hwhole⟩
    · simp only [List.cons_append, List.takeWhile_cons_of_neg hc, List.dropWhile_cons_of_neg hc]
      exact ⟨trivial, trivial, c :: line, rfl, hline⟩

end DsdlHeaders.Text

namespace DsdlHeaders.Template.Extended

open Text

variable {s t w line : List Char} {prev : Option Char} {found : Replacement}

/-! ## The rules that clean up -/

/-- The rule for block ends matches what stands in front of a text. -/
theorem blockEndRule_eq_some_iff_front : blockEndRule prev s = some found ↔
    ∃ name, (name ≠ [] ∧ (∀ c ∈ name, isBlockLetter c = true) ∧
      found = ⟨tagOpen ++ endWord ++ tagClose, name.length + 11⟩) ∧
        tagOpen ++ endWord ++ (name ++ tagClose) <+: s := by
  rw [blockEndRule_eq_some_iff]
  constructor
  · rintro ⟨name, later, rfl, hne, hname, rfl⟩
    exact ⟨name, ⟨hne, hname, rfl⟩, later, by simp⟩
  · rintro ⟨name, ⟨hne, hname, rfl⟩, later, rfl⟩
    exact ⟨name, later, by simp, hne, hname, rfl⟩

/-- Where two texts start with the same block ends, the rule for block ends finds the same. -/
theorem blockEndRule_congr (h : ∀ w, IsBlockEnd w → (w <+: s ↔ w <+: t)) :
    blockEndRule prev s = blockEndRule prev t := by
  refine Option.ext fun found => ?_
  rw [blockEndRule_eq_some_iff_front, blockEndRule_eq_some_iff_front]
  exact exists_congr fun name => and_congr_right fun hname => h _ ⟨name, rfl, hname.1, hname.2.1⟩

/-- Block ends are looked for line by line. -/
theorem blockEndRule_isLocal : Rule.IsLocal blockEndRule where
  behind _ _ _ := rfl
  ahead _ _ rest hs := blockEndRule_congr fun _ hw =>
    hs.prefix_iff (unbroken_of_isInLine hw.isInLine).2 rest

/-- Comments are looked for line by line. -/
theorem commentRule_isLocal : Rule.IsLocal commentRule where
  behind _ _ _ := rfl
  ahead prev s rest hs := by
    obtain ⟨htake, hdrop, hwhole⟩ := hs.takeWhile_append (p := isIndent) (by decide) rest
    have hmark : startsWith ['#', '!'] (s.dropWhile isIndent ++ rest) =
        startsWith ['#', '!'] (s.dropWhile isIndent) := by
      rw [Bool.eq_iff_iff, startsWith_iff, startsWith_iff]
      exact hwhole.prefix_iff (by decide) rest
    have hcomment := (hwhole.takeWhile_append (p := isInLine) (by decide) rest).1
    unfold commentRule
    simp only [htake, hdrop, hmark, hcomment]

/-- Tags that open a macro are looked for line by line. -/
theorem bodyRule_isLocal : Rule.IsLocal bodyRule where
  behind _ _ _ := rfl
  ahead prev s rest hs := by
    unfold bodyRule
    cases hopener : bodyOpener? s with
    | none =>
      have hnone : bodyOpener? (s ++ rest) = none := by
        rw [Option.eq_none_iff_forall_ne_some]
        rintro ⟨tag, later⟩ hfound
        obtain ⟨hsource, htag⟩ := bodyOpener?_eq_some_iff.mp hfound
        have hfront := (hs.prefix_iff (unbroken_of_isInLine htag.isInLine).2 rest).mp
          ⟨later, hsource.symm⟩
        obtain ⟨after, rfl⟩ := hfront
        exact absurd (hopener.symm.trans (bodyOpener?_eq_some_iff.mpr ⟨rfl, htag⟩)) (by simp)
      rw [hnone]
    | some parts =>
      obtain ⟨tag, after⟩ := parts
      obtain ⟨rfl, htag⟩ := bodyOpener?_eq_some_iff.mp hopener
      have hsome : bodyOpener? (tag ++ after ++ rest) = some (tag, after ++ rest) :=
        bodyOpener?_eq_some_iff.mpr ⟨List.append_assoc _ _ _, htag⟩
      rw [hsome]
      obtain ⟨-, hlast⟩ | ⟨-, line, rfl, hline⟩ := hs.of_append
      · exact absurd (List.mem_of_getLast? hlast) (unbroken_of_isInLine htag.isInLine).2
      -- The first two characters after the tag decide, and the line feed is one of them or later.
      · cases line with
        | nil => rfl
        | cons c line =>
          obtain ⟨hc, hlater⟩ := not_or.mp (List.mem_cons.not.mp hline)
          by_cases hreturn : c = '\r'
          · subst hreturn
            cases line with
            | nil => rfl
            | cons d line =>
              have hd : d ≠ '\n' := fun heq => hlater (heq ▸ List.mem_cons_self)
              simp [hd]
          · simp [Ne.symm hc, hreturn]

/-- Cleaning up works line by line. -/
theorem cleaned_append (hs : IsWholeLine s) (rest : List Char) :
    cleaned (s ++ rest) = cleaned s ++ cleaned rest := by
  have hclosed : IsWholeLine (closeBlocks s) := by
    refine (scans_replaceMatches blockEndRule_bounded s).isWholeLine ?_ hs
    intro prev matched s found h hlength
    obtain ⟨hmatched, htext⟩ := unbroken_of_blockEnd h hlength
    rw [htext]
    exact ⟨hmatched.2, by decide⟩
  have hdropped : IsWholeLine (dropComments (closeBlocks s)) := by
    refine (scans_replaceMatches commentRule_bounded _).isWholeLine ?_ hclosed
    intro prev matched s found h hlength
    rw [(eq_of_comment h hlength).1]
    exact ⟨(unbroken_of_isInLine (isInLine_of_comment h hlength)).2, List.not_mem_nil⟩
  unfold cleaned
  rw [closeBlocks, replaceMatches_append blockEndRule_bounded blockEndRule_isLocal hs,
    ← closeBlocks, ← closeBlocks, dropComments,
    replaceMatches_append commentRule_bounded commentRule_isLocal hclosed, ← dropComments,
    ← dropComments, spaceBodies, replaceMatches_append bodyRule_bounded bodyRule_isLocal hdropped]
  rfl

/-- A text without the first letters of the words and marks that are looked for is clean. -/
theorem cleaned_of_not_mem (hend : 'e' ∉ s) (hhash : '#' ∉ s) (hdefinition : 'm' ∉ s) :
    cleaned s = s := by
  have hclosed : closeBlocks s = s := closeBlocks_of_not_hasBlockEnd fun hblock => by
    obtain ⟨w, ⟨name, rfl, -, -⟩, hinside⟩ := hblock
    exact hend (hinside.subset (by simp [endWord]))
  have hdropped : dropComments s = s := dropComments_of_not_hasComment fun hcomment =>
    hhash (hcomment.subset List.mem_cons_self)
  have hspaced : spaceBodies s = s := spaceBodies_of_spaced fun before tag rest hs htag => by
    obtain ⟨name, parameters, rfl, -, -, -⟩ := htag
    exact absurd (by simp [hs, definitionWord]) hdefinition
  unfold cleaned
  rw [hclosed, hdropped, hspaced]

/-! ## Bare lines -/

/-- The characters of a bare line. -/
theorem IsBareLine.of_mem (h : IsBareLine line) {c : Char} (hc : c ∈ line) :
    c ∈ [' ', '\t', '%', '\r'] := by
  obtain ⟨indent, gap, rfl, hindent, hgap⟩ := h
  have hblank : isIndent c = true → c ∈ [' ', '\t', '%', '\r'] := by
    intro hc
    simp only [isIndent, Bool.or_eq_true, beq_iff_eq] at hc
    rcases hc with rfl | rfl <;> decide
  simp only [List.mem_append, List.mem_cons, List.not_mem_nil, or_false] at hc
  rcases hc with hc | rfl | hc | rfl
  · exact hblank (hindent c hc)
  · decide
  · exact hblank (hgap c hc)
  · decide

/-- What becomes of a bare line, with or without its carriage return, is clean. -/
theorem IsBareLine.cleaned_markControlLine {part : List Char} (h : IsBareLine line)
    (hpart : part ⊆ line) :
    cleaned (markControlLine part ++ ['\n']) = markControlLine part ++ ['\n'] := by
  have hmem : ∀ c, c ∉ [' ', '\t', '%', '\r'] ++ (tagOpen ++ tagClose) ++ ['\n'] →
      c ∉ markControlLine part ++ ['\n'] := by
    intro c hc hmem
    rcases List.mem_append.mp hmem with hmem | hmem
    · rcases mem_of_mem_markControlLine hmem with hmem | hmem
      · exact hc (List.mem_append_left _ (List.mem_append_left _ (h.of_mem (hpart hmem))))
      · exact hc (List.mem_append_left _ (List.mem_append_right _ hmem))
    · exact hc (List.mem_append_right _ hmem)
  exact cleaned_of_not_mem (hmem _ (by decide)) (hmem _ (by decide)) (hmem _ (by decide))

/-- Lines that come to the same in primitive notation are not bare. -/
theorem not_isBareLine_of_linesReturned {lines others : List (List Char)}
    (h : LinesReturned lines others) (hfeed : ∀ line ∈ lines, '\n' ∉ line)
    (hsame : withoutReturns (cleaned (joinWith ['\n'] (others.map markControlLine))) =
      cleaned (joinWith ['\n'] (lines.map markControlLine))) :
    ∀ other ∈ others, ¬ IsBareLine other := by
  induction h with
  | last hline =>
    intro other hother
    rw [List.mem_singleton.mp hother]
    rintro ⟨indent, gap, rfl, -, -⟩
    exact hline (by simp)
  | @cons line ending lines others hline hending hlater ih =>
    have hmarked : '\n' ∉ markControlLine line :=
      not_mem_markControlLine (hfeed line List.mem_cons_self) (by decide)
    have hmarked' : '\n' ∉ markControlLine (line ++ ending) := by
      refine not_mem_markControlLine (fun hmem => ?_) (by decide)
      rcases List.mem_append.mp hmem with hmem | hmem
      · exact hfeed line List.mem_cons_self hmem
      · rcases hending with rfl | rfl <;> exact absurd hmem (by decide)
    have hne : lines.map markControlLine ≠ [] ∧ others.map markControlLine ≠ [] := by
      cases hlater <;> simp
    rw [List.map_cons, List.map_cons, joinWith_cons hne.1, joinWith_cons hne.2,
      cleaned_append ⟨_, rfl, hmarked⟩, cleaned_append ⟨_, rfl, hmarked'⟩,
      withoutReturns_append] at hsame
    by_cases hbare : IsBareLine (line ++ ending)
    · -- Cleaning leaves a bare line as it is, so the texts differ at its end at the latest.
      have hreturn : ending = ['\r'] := by
        refine hending.resolve_left fun hnil => hline ?_
        obtain ⟨indent, gap, hbare, -, -⟩ := hbare
        rw [hnil, List.append_nil] at hbare
        simp [hbare]
      subst hreturn
      rw [hbare.cleaned_markControlLine (List.Subset.refl _),
        hbare.cleaned_markControlLine (List.subset_append_left _ _), withoutReturns_append,
        List.append_assoc, List.append_assoc] at hsame
      have hcut := cut?_singleton_iff.mpr
        ⟨hsame.symm, fun hmem => hmarked' (List.mem_of_mem_filter hmem)⟩
      have hcut' := hcut.symm.trans (cut?_singleton_iff.mpr ⟨rfl, hmarked⟩)
      exact absurd (Prod.mk.inj (Option.some.inj hcut')).1 (markControlLine_ne_of_isBareLine hbare)
    · have hreturned : Returned (markControlLine line ++ ['\n'])
          (markControlLine (line ++ ending) ++ ['\n']) := by
        rw [markControlLine_append_ending hline hending hbare, List.append_assoc]
        refine (Returned.of_not_mem (not_mem_markControlLine hline (by decide))).append ?_
        rcases hending with rfl | rfl
        · exact .keep (by decide) .nil
        · exact .feed .nil
      rw [(returned_cleaned hreturned).withoutReturns_eq] at hsame
      have hrest := ih (fun line hline => hfeed line (List.mem_cons_of_mem _ hline))
        (List.append_cancel_left hsame)
      intro other hother
      rcases List.mem_cons.mp hother with rfl | hother
      · exact hbare
      · exact hrest other hother

/-- Two spellings of a template come to the same in primitive notation, up to carriage returns, if
and only if the rule for control lines meets no bare line. -/
theorem withoutReturns_toPrimitive_eq_iff (h : Returned s t) :
    withoutReturns (toPrimitive t) = toPrimitive s ↔ ¬ HasBareLine (beforeControlLines t) := by
  constructor
  · rintro hsame ⟨line, hline, hbare⟩
    exact not_isBareLine_of_linesReturned (returned_beforeControlLines h).splitOn
      (fun line hline => not_mem_of_mem_splitOn hline) hsame line hline hbare
  · exact fun hbare => (returned_toPrimitive h hbare).withoutReturns_eq

end DsdlHeaders.Template.Extended

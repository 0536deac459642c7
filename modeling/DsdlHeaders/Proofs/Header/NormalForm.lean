import Mathlib.Data.List.DropRight
import DsdlHeaders.Header.Normal
import DsdlHeaders.Proofs.Text.Marks
import DsdlHeaders.Proofs.Text.Parts

/-!
# The normal form of a text

`normalize` brings every text into the form `IsNormal`, leaves exactly the texts of that form alone,
and keeps every line that is not blank. Its passes work on a text; here each of them is shown to
work on lines, where it is a recursion over the list.

* **Lines.** A text that ends in a line feed is made of its lines (`unlines_textLines`), and lines
  without line feeds are found again (`textLines_unlines`).
* **Blank runs.** `collapseBlank` leaves no two blank lines in a row (`noBlankRun_collapseBlank`).
* **Braces.** Replacing the text between a brace and an indented line drops one line
  (`tightenBraces_unlines`). The line that follows is not blank, so no new run arises.
* **The end.** Dropping line feeds at the end drops blank lines there (`endOnce_unlines`), and a
  beginning of well-spaced lines is well spaced.

Main statement: `normalize_canonical`.
-/

namespace DsdlHeaders

/-! ## Lines -/

/-- Lines that hold no line feed. -/
def AreLines (lines : List (List Char)) : Prop :=
  ∀ line ∈ lines, '\n' ∉ line

/-- A line in front. -/
theorem unlines_cons (line : List Char) (lines : List (List Char)) :
    unlines (line :: lines) = line ++ '\n' :: unlines lines := by
  simp [unlines]

/-- A line at the end. -/
theorem unlines_concat (lines : List (List Char)) (line : List Char) :
    unlines (lines ++ [line]) = unlines lines ++ line ++ ['\n'] := by
  simp [unlines]

/-- The parts between the line feeds of a text made of lines. -/
theorem splitOn_unlines {lines : List (List Char)} (h : AreLines lines) :
    Text.splitOn '\n' (unlines lines) = lines ++ [[]] := by
  induction lines with
  | nil => rfl
  | cons line lines ih =>
    obtain ⟨hline, hlines⟩ := List.forall_mem_cons.mp h
    rw [unlines_cons, Text.splitOn_append_cons, Text.splitOn_of_not_mem hline, ih hlines]
    rfl

/-- The lines that a text is made of are found again. -/
theorem textLines_unlines {lines : List (List Char)} (h : AreLines lines) :
    textLines (unlines lines) = lines := by
  simp [textLines, splitOn_unlines h]

/-- No line of a text holds a line feed. -/
theorem areLines_textLines (s : List Char) : AreLines (textLines s) := by
  intro line hline
  apply Text.not_mem_of_mem_splitOn (s := s)
  unfold textLines at hline
  dsimp only at hline
  split at hline
  · exact List.mem_of_mem_dropLast hline
  · exact hline

/-- A text that ends in a line feed is made of its lines. -/
theorem unlines_textLines {s : List Char} (h : s.getLast? = some '\n') :
    unlines (textLines s) = s := by
  obtain ⟨front, rfl⟩ := List.getLast?_eq_some_iff.mp h
  have hparts : Text.splitOn '\n' (front ++ ['\n']) = Text.splitOn '\n' front ++ [[]] :=
    Text.splitOn_append_cons front []
  rw [textLines, hparts, if_pos (by simp), List.dropLast_concat]
  conv_rhs => rw [← Text.joinWith_splitOn '\n' front]
  rcases List.eq_nil_or_concat' (Text.splitOn '\n' front) with hnil | ⟨parts, last, hlast⟩
  · exact absurd hnil (Text.splitOn_ne_nil _ _)
  · rw [hlast, Text.joinWith_concat, unlines_concat]
    rfl

/-- The lines that are not blank. -/
def contentLines (lines : List (List Char)) : List (List Char) :=
  lines.filter fun line => line ≠ []

/-- A blank line has no content. -/
theorem contentLines_blank (lines : List (List Char)) :
    contentLines ([] :: lines) = contentLines lines :=
  List.filter_cons_of_neg (by simp)

/-- The content of two lists that start with the same line. -/
theorem contentLines_cons_congr (line : List Char) {lines others : List (List Char)}
    (h : contentLines lines = contentLines others) :
    contentLines (line :: lines) = contentLines (line :: others) := by
  unfold contentLines at h ⊢
  rw [List.filter_cons, List.filter_cons, h]

/-! ## Blank runs -/

variable {lines : List (List Char)}

/-- Blank lines in a row can only start with the first line or after it. -/
theorem noBlankRun_cons {line : List Char} :
    NoBlankRun (line :: lines) ↔ (line = [] → lines.head? ≠ some []) ∧ NoBlankRun lines := by
  cases lines with
  | nil => simp [NoBlankRun]
  | cons next lines => simp [NoBlankRun]

/-- A beginning of lines without blank runs has none. -/
theorem NoBlankRun.of_prefix {front : List (List Char)} (h : NoBlankRun lines)
    (hfront : front <+: lines) : NoBlankRun front := by
  induction lines generalizing front with
  | nil =>
    rw [List.prefix_nil.mp hfront]
    exact trivial
  | cons line lines ih =>
    obtain ⟨hhead, htail⟩ := noBlankRun_cons.mp h
    rcases List.prefix_cons_iff.mp hfront with rfl | ⟨rest, rfl, hrest⟩
    · exact trivial
    · refine noBlankRun_cons.mpr ⟨fun hblank hnext => hhead hblank ?_, ih htail hrest⟩
      obtain ⟨later, rfl⟩ := hrest
      rw [List.head?_append, hnext]
      rfl

/-- No blank lines in a row are left, also not together with the line before. -/
theorem noBlankRun_collapseBlank (lines : List (List Char)) :
    NoBlankRun (collapseBlank false lines) ∧ NoBlankRun ([] :: collapseBlank true lines) := by
  induction lines with
  | nil => exact ⟨trivial, trivial⟩
  | cons line lines ih =>
    obtain ⟨hfree, hafter⟩ := ih
    by_cases hblank : line = []
    · simpa [collapseBlank, hblank] using hafter
    · have hcontent : NoBlankRun (line :: collapseBlank false lines) :=
        noBlankRun_cons.mpr ⟨fun h => absurd h hblank, hfree⟩
      simp only [collapseBlank, if_neg hblank]
      exact ⟨hcontent, noBlankRun_cons.mpr ⟨fun _ => by simpa using hblank, hcontent⟩⟩

/-- Where no blank lines are in a row, all lines are kept. -/
theorem collapseBlank_eq_self (afterBlank : Bool) (h : NoBlankRun lines)
    (hhead : afterBlank = true → lines.head? ≠ some []) :
    collapseBlank afterBlank lines = lines := by
  induction lines generalizing afterBlank with
  | nil => rfl
  | cons line lines ih =>
    obtain ⟨hnext, htail⟩ := noBlankRun_cons.mp h
    unfold collapseBlank
    by_cases hblank : line = []
    · have hfirst : ¬ afterBlank = true := fun hafter => hhead hafter (by simp [hblank])
      rw [if_pos hblank, if_neg hfirst, ih true htail fun _ => hnext hblank, hblank]
    · rw [if_neg hblank, ih false htail (by simp)]

/-- All lines that are not blank are kept. -/
theorem contentLines_collapseBlank (afterBlank : Bool) (lines : List (List Char)) :
    contentLines (collapseBlank afterBlank lines) = contentLines lines := by
  induction lines generalizing afterBlank with
  | nil => rfl
  | cons line lines ih =>
    unfold collapseBlank
    split_ifs with hblank hafter
    · rw [ih true, hblank, contentLines_blank]
    · rw [hblank, contentLines_blank, contentLines_blank, ih true]
    · exact contentLines_cons_congr line (ih false)

/-- The lines that are kept are lines of the text. -/
theorem collapseBlank_subset (afterBlank : Bool) (lines : List (List Char)) :
    collapseBlank afterBlank lines ⊆ lines := by
  induction lines generalizing afterBlank with
  | nil => exact List.Subset.refl _
  | cons line lines ih =>
    unfold collapseBlank
    split_ifs with hblank hafter
    · exact List.Subset.trans (ih true) (List.subset_cons_self _ _)
    · exact hblank ▸ List.cons_subset_cons _ (ih true)
    · exact List.cons_subset_cons _ (ih false)

/-! ## Braces -/

/-- A blank line between a line that ends in an opening brace and an indented one. -/
def IsGap (line blank next : List Char) : Prop :=
  line.getLast? = some '\x7b' ∧ blank = [] ∧ next.head? = some ' '

instance (line blank next : List Char) : Decidable (IsGap line blank next) :=
  inferInstanceAs (Decidable (_ ∧ _ ∧ _))

/-- Drops the blank lines between opening braces and indented lines. -/
def tightenLines : List (List Char) → List (List Char)
  | line :: blank :: next :: lines =>
    if IsGap line blank next then line :: tightenLines (next :: lines)
    else line :: tightenLines (blank :: next :: lines)
  | lines => lines

/-- A character that does not start the text between a brace and an indented line stays. -/
theorem tightenBraces_cons {c : Char} {s : List Char}
    (h : ¬ ['\x7b', '\n', '\n', ' '] <+: c :: s) :
    tightenBraces (c :: s) = c :: tightenBraces s := by
  have hstart : Text.startsWith ['\x7b', '\n', '\n', ' '] (c :: s) = false := by
    rwa [← Bool.not_eq_true, Text.startsWith_iff]
  unfold tightenBraces Text.replaceAll Text.replaceMatches
  rw [Text.replaceMatchesFrom, hstart]
  -- The rule does not look at the character before.
  cases s <;> rfl

/-- A line that no gap follows is kept with its line feed. -/
theorem tightenBraces_line {line s : List Char} (hline : '\n' ∉ line)
    (hgap : line.getLast? = some '\x7b' → ¬ ['\n', ' '] <+: s) :
    tightenBraces (line ++ '\n' :: s) = line ++ '\n' :: tightenBraces s := by
  induction line with
  | nil => exact tightenBraces_cons (by simp)
  | cons c line ih =>
    have hstart : ¬ ['\x7b', '\n', '\n', ' '] <+: c :: (line ++ '\n' :: s) := by
      intro hmark
      obtain ⟨hbrace, hfeeds⟩ := List.cons_prefix_cons.mp hmark
      cases line with
      | nil =>
        apply hgap
        · simp [← hbrace]
        · exact (List.cons_prefix_cons.mp hfeeds).2
      | cons d line =>
        have hfeed : d = '\n' := (List.cons_prefix_cons.mp hfeeds).1.symm
        exact hline (by simp [hfeed])
    rw [List.cons_append, tightenBraces_cons hstart, ih (fun hmem => hline (by simp [hmem]))]
    · rfl
    · intro hlast
      apply hgap
      rw [List.getLast?_cons, hlast]
      rfl

/-- The line feed of a gap is dropped. -/
theorem tightenBraces_gap {line s : List Char} (hline : '\n' ∉ line)
    (hbrace : line.getLast? = some '\x7b') :
    tightenBraces (line ++ '\n' :: '\n' :: ' ' :: s) =
      line ++ '\n' :: tightenBraces (' ' :: s) := by
  have hspace : tightenBraces (' ' :: s) = ' ' :: tightenBraces s := tightenBraces_cons (by simp)
  induction line with
  | nil => exact absurd hbrace (by simp)
  | cons c line ih =>
    cases line with
    | nil =>
      obtain rfl : c = '\x7b' := by simpa using hbrace
      rw [hspace]
      -- The whole mark stands here, and the rule does not look at the character before.
      cases s <;> rfl
    | cons d line =>
      have hd : d ≠ '\n' := by
        rintro rfl
        exact hline (by simp)
      have hstart : ¬ ['\x7b', '\n', '\n', ' '] <+:
          c :: (d :: line ++ '\n' :: '\n' :: ' ' :: s) := by
        intro hmark
        obtain ⟨-, hmark⟩ := List.cons_prefix_cons.mp hmark
        exact hd (List.cons_prefix_cons.mp hmark).1.symm
      rw [List.cons_append, tightenBraces_cons hstart, ih (fun hmem => hline (by simp [hmem]))]
      · rfl
      · rwa [List.getLast?_cons_cons] at hbrace

/-- A text of lines starts with a line feed and a space only if its first line is blank and its
second one is indented. -/
theorem not_prefix_unlines (hlines : AreLines lines)
    (h : ∀ blank next later, lines = blank :: next :: later →
      ¬ (blank = [] ∧ next.head? = some ' ')) : ¬ ['\n', ' '] <+: unlines lines := by
  intro hmark
  rcases lines with _ | ⟨_ | ⟨c, blank⟩, _ | ⟨_ | ⟨d, next⟩, later⟩⟩
  · exact absurd hmark (by simp [unlines])
  · exact absurd hmark (by simp [unlines])
  · exact absurd hmark (by simp [unlines])
  · have hd : d = ' ' := by simpa [unlines, eq_comm] using hmark
    exact h [] (d :: next) later rfl ⟨rfl, by simp [hd]⟩
  all_goals
    rw [unlines_cons, List.cons_append] at hmark
    obtain ⟨rfl, -⟩ := List.cons_prefix_cons.mp hmark
    exact hlines _ List.mem_cons_self List.mem_cons_self

/-- Tightening a text drops the blank lines of its gaps. -/
theorem tightenBraces_unlines (h : AreLines lines) :
    tightenBraces (unlines lines) = unlines (tightenLines lines) := by
  fun_induction tightenLines lines with
  | case1 line blank next lines hgap ih =>
    obtain ⟨hbrace, rfl, hindent⟩ := hgap
    obtain ⟨hline, hlater⟩ := List.forall_mem_cons.mp h
    have hnext : AreLines (next :: lines) := fun other hother =>
      hlater other (List.mem_cons_of_mem _ hother)
    obtain ⟨rest, rfl⟩ := List.head?_eq_some_iff.mp hindent
    rw [unlines_cons, unlines_cons [], unlines_cons line, ← ih hnext, unlines_cons]
    exact tightenBraces_gap hline hbrace
  | case2 line blank next lines hgap ih =>
    obtain ⟨hline, hlater⟩ := List.forall_mem_cons.mp h
    rw [unlines_cons, unlines_cons line, ← ih hlater]
    apply tightenBraces_line hline
    intro hbrace
    apply not_prefix_unlines hlater
    rintro _ _ _ ⟨rfl, rfl, rfl⟩ hrest
    exact hgap ⟨hbrace, hrest⟩
  | case3 lines hshort =>
    rcases lines with _ | ⟨line, _ | ⟨next, _ | ⟨third, lines⟩⟩⟩
    · rfl
    · rw [unlines_cons, tightenBraces_line (h line (by simp)) fun _ => by simp [unlines]]
      rfl
    · rw [unlines_cons, unlines_cons, tightenBraces_line (h line (by simp)),
        tightenBraces_line (h next (by simp)) fun _ => by simp [unlines]]
      · rfl
      · intro _
        rw [← unlines_cons]
        apply not_prefix_unlines fun other hother => h other (by simp_all)
        simp
    · exact absurd rfl (hshort line next third lines)

/-- Nothing is dropped in front of the first line. -/
theorem exists_tightenLines_cons (line : List Char) (lines : List (List Char)) :
    ∃ later, tightenLines (line :: lines) = line :: later := by
  rcases lines with _ | ⟨blank, _ | ⟨next, lines⟩⟩
  · exact ⟨[], rfl⟩
  · exact ⟨[blank], rfl⟩
  · unfold tightenLines
    split_ifs <;> exact ⟨_, rfl⟩

/-- After a line that does not end in a brace nothing is dropped. -/
theorem tightenLines_cons_of_getLast?_ne {line : List Char} (h : line.getLast? ≠ some '\x7b')
    (lines : List (List Char)) : tightenLines (line :: lines) = line :: tightenLines lines := by
  rcases lines with _ | ⟨blank, _ | ⟨next, lines⟩⟩
  · rfl
  · rfl
  · rw [tightenLines, if_neg fun hgap => h hgap.1]

/-- Gaps can only start with the first line or after it. -/
theorem noGapAfterBrace_cons {line : List Char} :
    NoGapAfterBrace (line :: lines) ↔
      (∀ blank next later, lines = blank :: next :: later → ¬ IsGap line blank next) ∧
        NoGapAfterBrace lines := by
  rcases lines with _ | ⟨blank, _ | ⟨next, lines⟩⟩
  · simp [NoGapAfterBrace]
  · simp [NoGapAfterBrace]
  · rw [NoGapAfterBrace]
    refine and_congr_left fun _ => ⟨?_, fun h => h blank next lines rfl⟩
    rintro h _ _ _ ⟨rfl, rfl, rfl⟩
    exact h

/-- A beginning of lines without gaps has none. -/
theorem NoGapAfterBrace.of_prefix {front : List (List Char)} (h : NoGapAfterBrace lines)
    (hfront : front <+: lines) : NoGapAfterBrace front := by
  induction lines generalizing front with
  | nil =>
    rw [List.prefix_nil.mp hfront]
    exact trivial
  | cons line lines ih =>
    obtain ⟨hhead, htail⟩ := noGapAfterBrace_cons.mp h
    rcases List.prefix_cons_iff.mp hfront with rfl | ⟨rest, rfl, hrest⟩
    · exact trivial
    · refine noGapAfterBrace_cons.mpr ⟨?_, ih htail hrest⟩
      rintro blank next later rfl
      obtain ⟨more, rfl⟩ := hrest
      exact hhead blank next (later ++ more) rfl

/-- No gaps are left. -/
theorem noGapAfterBrace_tightenLines (lines : List (List Char)) :
    NoGapAfterBrace (tightenLines lines) := by
  fun_induction tightenLines lines with
  | case1 line blank next lines hgap ih =>
    refine noGapAfterBrace_cons.mpr ⟨?_, ih⟩
    -- The line after the brace is now the indented one, which is not blank.
    rintro first _ _ hlater ⟨-, rfl, -⟩
    obtain ⟨rest, hrest⟩ := exists_tightenLines_cons next lines
    have hblank : next = [] := (List.cons.inj (hrest.symm.trans hlater)).1
    exact absurd hgap.2.2 (by simp [hblank])
  | case2 line blank next lines hgap ih =>
    refine noGapAfterBrace_cons.mpr ⟨?_, ih⟩
    rintro first second later hlater hnew
    obtain ⟨rest, hrest⟩ := exists_tightenLines_cons blank (next :: lines)
    obtain rfl : blank = first := (List.cons.inj (hrest.symm.trans hlater)).1
    -- The line after the brace is blank, so the one after that is kept.
    obtain rfl : blank = [] := hnew.2.1
    rw [tightenLines_cons_of_getLast?_ne (by simp)] at hlater
    obtain ⟨rest, hrest⟩ := exists_tightenLines_cons next lines
    obtain rfl : next = second :=
      (List.cons.inj (hrest.symm.trans (List.cons.inj hlater).2)).1
    exact hgap hnew
  | case3 lines hshort =>
    rcases lines with _ | ⟨line, _ | ⟨next, _ | ⟨third, lines⟩⟩⟩
    · exact trivial
    · exact trivial
    · exact trivial
    · exact absurd rfl (hshort line next third lines)

/-- Dropping blank lines makes no run of them. -/
theorem NoBlankRun.tightenLines (h : NoBlankRun lines) : NoBlankRun (tightenLines lines) := by
  fun_induction DsdlHeaders.tightenLines lines with
  | case1 line blank next lines hgap ih =>
    obtain ⟨-, hnext⟩ := noBlankRun_cons.mp (noBlankRun_cons.mp h).2
    refine noBlankRun_cons.mpr ⟨fun hblank => ?_, ih hnext⟩
    exact absurd hgap.1 (by simp [hblank])
  | case2 line blank next lines hgap ih =>
    obtain ⟨hhead, hlater⟩ := noBlankRun_cons.mp h
    refine noBlankRun_cons.mpr ⟨fun hblank => ?_, ih hlater⟩
    obtain ⟨rest, hrest⟩ := exists_tightenLines_cons blank (next :: lines)
    rw [hrest]
    exact hhead hblank
  | case3 lines hshort => exact h

/-- Where there are no gaps, all lines are kept. -/
theorem tightenLines_eq_self (h : NoGapAfterBrace lines) : tightenLines lines = lines := by
  fun_induction tightenLines lines with
  | case1 line blank next lines hgap ih =>
    exact absurd hgap ((noGapAfterBrace_cons.mp h).1 blank next lines rfl)
  | case2 line blank next lines hgap ih => rw [ih (noGapAfterBrace_cons.mp h).2]
  | case3 lines hshort => rfl

/-- All lines that are not blank are kept. -/
theorem contentLines_tightenLines (lines : List (List Char)) :
    contentLines (tightenLines lines) = contentLines lines := by
  fun_induction tightenLines lines with
  | case1 line blank next lines hgap ih =>
    apply contentLines_cons_congr
    rw [ih, hgap.2.1, contentLines_blank]
  | case2 line blank next lines hgap ih => exact contentLines_cons_congr line ih
  | case3 lines hshort => rfl

/-- The lines that are kept are lines of the text. -/
theorem tightenLines_subset (lines : List (List Char)) : tightenLines lines ⊆ lines := by
  fun_induction tightenLines lines with
  | case1 line blank next lines hgap ih =>
    exact List.cons_subset_cons _ (List.Subset.trans ih (List.subset_cons_self _ _))
  | case2 line blank next lines hgap ih => exact List.cons_subset_cons _ ih
  | case3 lines hshort => exact List.Subset.refl _

/-! ## The end -/

/-- Drops the blank lines at the end, but leaves one line. -/
def dropBlankEnd (lines : List (List Char)) : List (List Char) :=
  if lines.rdropWhile (· = []) = [] then [[]] else lines.rdropWhile (· = [])

/-- A blank line at the end is dropped. -/
theorem dropBlankEnd_blank (lines : List (List Char)) :
    dropBlankEnd (lines ++ [[]]) = dropBlankEnd lines := by
  have hdrop : (lines ++ [[]]).rdropWhile (· = []) = lines.rdropWhile (· = []) :=
    List.rdropWhile_concat_pos _ _ _ (by simp)
  rw [dropBlankEnd, hdrop, dropBlankEnd]

/-- Lines that end in one that is not blank stay. -/
theorem dropBlankEnd_concat {line : List Char} (h : line ≠ []) (lines : List (List Char)) :
    dropBlankEnd (lines ++ [line]) = lines ++ [line] := by
  have hdrop : (lines ++ [line]).rdropWhile (· = []) = lines ++ [line] :=
    List.rdropWhile_concat_neg _ _ _ (by simpa using h)
  rw [dropBlankEnd, hdrop, if_neg (by simp)]

/-- Ending a text once drops the blank lines at its end. -/
theorem endOnce_unlines (h : AreLines lines) :
    endOnce (unlines lines) = unlines (dropBlankEnd lines) := by
  change (unlines lines).rdropWhile (· = '\n') ++ ['\n'] = _
  induction lines using List.reverseRecOn with
  | nil => rfl
  | append_singleton lines line ih =>
    rw [unlines_concat, List.rdropWhile_concat_pos _ _ _ (by simp)]
    rcases List.eq_nil_or_concat' line with rfl | ⟨front, c, rfl⟩
    · rw [List.append_nil, ih fun other hother => h other (by simp [hother]), dropBlankEnd_blank]
    · have hc : c ≠ '\n' := by
        rintro rfl
        exact h (front ++ ['\n']) (by simp) (by simp)
      rw [dropBlankEnd_concat (by simp), unlines_concat, ← List.append_assoc,
        List.rdropWhile_concat_neg _ _ _ (by simpa using hc)]

/-- What is left is one blank line, or a beginning that ends in a line that is not blank. -/
theorem dropBlankEnd_cases (lines : List (List Char)) :
    dropBlankEnd lines = [[]] ∨
      dropBlankEnd lines <+: lines ∧ ∃ front line, line ≠ [] ∧
        dropBlankEnd lines = front ++ [line] := by
  unfold dropBlankEnd
  split_ifs with hnil
  · exact .inl rfl
  · refine .inr ⟨List.rdropWhile_prefix _ _, _, _, ?_, (List.dropLast_append_getLast hnil).symm⟩
    simpa using List.rdropWhile_last_not _ _ hnil

/-- All lines that are not blank are kept. -/
theorem contentLines_dropBlankEnd (lines : List (List Char)) :
    contentLines (dropBlankEnd lines) = contentLines lines := by
  induction lines using List.reverseRecOn with
  | nil => rfl
  | append_singleton lines line ih =>
    by_cases hblank : line = []
    · rw [hblank, dropBlankEnd_blank, ih]
      simp [contentLines]
    · rw [dropBlankEnd_concat hblank]

/-! ## Normal texts -/

/-- The lines of the normal form of a text. -/
def normalLines (s : List Char) : List (List Char) :=
  dropBlankEnd (tightenLines (collapseBlank false ((textLines s).map Text.trimEnd)))

/-- Trimming leaves a beginning of a line. -/
theorem Text.trimEnd_prefix (line : List Char) : Text.trimEnd line <+: line :=
  List.rdropWhile_prefix Text.isBlank line

/-- A trimmed line has nothing to trim. -/
theorem Text.trimEnd_trimEnd (line : List Char) :
    Text.trimEnd (Text.trimEnd line) = Text.trimEnd line :=
  List.rdropWhile_idempotent Text.isBlank line

/-- The lines of a normal form are trimmed lines of the text, or the one blank line of an empty
text. -/
theorem eq_trimEnd_of_mem_normalLines {s line : List Char} (h : line ∈ normalLines s) :
    line = [] ∨ ∃ source ∈ textLines s, line = Text.trimEnd source := by
  rcases dropBlankEnd_cases (tightenLines (collapseBlank false ((textLines s).map Text.trimEnd)))
    with hnil | ⟨hleading, -⟩
  · rw [normalLines, hnil] at h
    exact .inl (List.mem_singleton.mp h)
  · have hmem := collapseBlank_subset _ _ (tightenLines_subset _ (hleading.subset h))
    obtain ⟨source, hsource, rfl⟩ := List.mem_map.mp hmem
    exact .inr ⟨source, hsource, rfl⟩

/-- The lines of a normal form hold no line feeds. -/
theorem areLines_normalLines (s : List Char) : AreLines (normalLines s) := by
  intro line hline hfeed
  rcases eq_trimEnd_of_mem_normalLines hline with rfl | ⟨source, hsource, rfl⟩
  · exact absurd hfeed List.not_mem_nil
  · exact areLines_textLines s source hsource ((Text.trimEnd_prefix source).subset hfeed)

/-- The normal form of a text is made of the lines that its passes leave. -/
theorem normalizeChars_eq (s : List Char) : normalizeChars s = unlines (normalLines s) := by
  have htrimmed : AreLines ((textLines s).map Text.trimEnd) := by
    intro line hline hfeed
    obtain ⟨source, hsource, rfl⟩ := List.mem_map.mp hline
    exact areLines_textLines s source hsource ((Text.trimEnd_prefix source).subset hfeed)
  have hspaced : AreLines (collapseBlank false ((textLines s).map Text.trimEnd)) :=
    fun line hline => htrimmed line (collapseBlank_subset _ _ hline)
  have htight : AreLines (tightenLines (collapseBlank false ((textLines s).map Text.trimEnd))) :=
    fun line hline => hspaced line (tightenLines_subset _ hline)
  rw [normalizeChars, tightenBraces_unlines hspaced, endOnce_unlines htight, normalLines]

/-- The lines of a text that are not blank, as they are in its normal form. -/
theorem contentLines_normalLines (s : List Char) :
    contentLines (normalLines s) = contentLines ((textLines s).map Text.trimEnd) := by
  rw [normalLines, contentLines_dropBlankEnd, contentLines_tightenLines,
    contentLines_collapseBlank]

/-- The normal form of a text is normal. -/
theorem isNormal_normalizeChars (s : List Char) : IsNormal (normalizeChars s) := by
  have hlines := textLines_unlines (areLines_normalLines s)
  have hspaced : NoBlankRun (tightenLines (collapseBlank false ((textLines s).map Text.trimEnd))) :=
    (noBlankRun_collapseBlank _).1.tightenLines
  have htight := noGapAfterBrace_tightenLines (collapseBlank false ((textLines s).map Text.trimEnd))
  have hstripped : ∀ line ∈ normalLines s, Text.trimEnd line = line := by
    intro line hline
    rcases eq_trimEnd_of_mem_normalLines hline with rfl | ⟨source, -, rfl⟩
    · rfl
    · exact Text.trimEnd_trimEnd source
  rw [normalizeChars_eq]
  rcases dropBlankEnd_cases (tightenLines (collapseBlank false ((textLines s).map Text.trimEnd)))
    with hnil | ⟨hleading, front, line, hline, hlast⟩
  · -- Every line is blank.
    have hnormal : normalLines s = [[]] := hnil
    rw [hnormal] at hlines hstripped ⊢
    refine ⟨rfl, .inl rfl, ?_, ?_, ?_⟩
    · rwa [hlines]
    · rw [hlines]
      exact trivial
    · rw [hlines]
      exact trivial
  · have hnormal : normalLines s = front ++ [line] := hlast
    have hended : unlines (normalLines s) = (unlines front ++ line) ++ ['\n'] := by
      rw [hnormal, unlines_concat]
    refine ⟨?_, .inr fun hdouble => ?_, ?_, ?_, ?_⟩
    · rw [hended, List.getLast?_concat]
    · -- The last line ends in a character other than a line feed.
      obtain ⟨start, c, rfl⟩ := (List.eq_nil_or_concat' line).resolve_left hline
      have hc : c = '\n' := by
        obtain ⟨before, hbefore⟩ := hdouble
        rw [hended, show before ++ ['\n', '\n'] = (before ++ ['\n']) ++ ['\n'] by simp] at hbefore
        have hfront := List.append_cancel_right hbefore
        rw [← List.append_assoc] at hfront
        simpa using (congrArg List.getLast? hfront).symm
      exact areLines_normalLines s (start ++ [c]) (by simp [hnormal]) (by simp [hc])
    · rwa [hlines]
    · rw [hlines]
      exact hspaced.of_prefix hleading
    · rw [hlines]
      exact htight.of_prefix hleading

/-- A normal text has no blank line at its end, unless that is all. -/
theorem IsNormal.dropBlankEnd_eq {s : List Char} (h : IsNormal s) :
    dropBlankEnd (textLines s) = textLines s := by
  have hmade := unlines_textLines h.ended
  rcases List.eq_nil_or_concat' (textLines s) with hnil | ⟨front, line, hlines⟩
  · rw [hnil] at hmade
    exact absurd h.ended (by simp [← hmade, unlines])
  · by_cases hblank : line = []
    · subst hblank
      rw [hlines, unlines_concat, List.append_nil] at hmade
      rcases List.eq_nil_or_concat' front with rfl | ⟨earlier, previous, rfl⟩
      · rw [hlines]
        rfl
      · -- The blank line follows another one, so the text ends in two line feeds.
        rw [unlines_concat, List.append_assoc] at hmade
        rcases h.single with hfeed | hsingle
        · have hlength := congrArg List.length (hmade.trans hfeed)
          simp only [List.length_append, List.length_singleton] at hlength
          omega
        · exact absurd ⟨_, hmade⟩ hsingle
    · rw [hlines, dropBlankEnd_concat hblank]

/-- A normal text stays as it is. -/
theorem normalizeChars_of_isNormal {s : List Char} (h : IsNormal s) : normalizeChars s = s := by
  have htrimmed : (textLines s).map Text.trimEnd = textLines s :=
    (List.map_congr_left h.stripped).trans (List.map_id' _)
  rw [normalizeChars_eq, normalLines, htrimmed, collapseBlank_eq_self false h.spaced (by simp),
    tightenLines_eq_self h.tight, h.dropBlankEnd_eq, unlines_textLines h.ended]

/-- **`normalize` computes a canonical form.** The result is normal; exactly the normal texts are
left alone, so normalizing again changes nothing; and the lines that are not blank are those of the
text without the blanks at their ends, in the same order. -/
theorem normalize_canonical (text : String) :
    IsNormal (normalize text).toList ∧
    (normalize text = text ↔ IsNormal text.toList) ∧
    normalize (normalize text) = normalize text ∧
    (textLines (normalize text).toList).filter (fun line => Text.trimEnd line ≠ []) =
      ((textLines text.toList).filter fun line => Text.trimEnd line ≠ []).map Text.trimEnd := by
  have hchars : (normalize text).toList = normalizeChars text.toList := String.toList_ofList
  have hnormal : IsNormal (normalize text).toList := hchars ▸ isNormal_normalizeChars text.toList
  have hfixed : ∀ {other : String}, IsNormal other.toList → normalize other = other := by
    intro other hother
    rw [normalize, normalizeChars_of_isNormal hother, String.ofList_toList]
  refine ⟨hnormal, ⟨fun hsame => hsame ▸ hnormal, hfixed⟩, hfixed hnormal, ?_⟩
  have hlines : textLines (normalize text).toList = normalLines text.toList := by
    rw [hchars, normalizeChars_eq, textLines_unlines (areLines_normalLines _)]
  calc (textLines (normalize text).toList).filter (fun line => Text.trimEnd line ≠ [])
      = contentLines (textLines (normalize text).toList) :=
        List.filter_congr fun line hline => by rw [hnormal.stripped line hline]
    _ = contentLines ((textLines text.toList).map Text.trimEnd) := by
        rw [hlines, contentLines_normalLines]
    _ = ((textLines text.toList).filter fun line => Text.trimEnd line ≠ []).map Text.trimEnd :=
        List.filter_map

end DsdlHeaders

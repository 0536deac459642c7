import Mathlib.Data.List.DropRight
import DsdlHeaders.Proofs.Template.LineBoundaries

/-!
# Comments at the ends of lines

Comments are dropped by the fifth rule, after four rules that read them like any other text. So a
comment at the end of a line makes no difference as long as these rules find nothing in it that
concerns the rest of the template.

* **One rule at a time.** A rule that reaches neither into the comment nor out of it is applied to
  the text before the comment, to the comment, and to the text after it (`replaceMatches_note`). It
  leaves a comment at the end of a line. This covers continuations, block ends and most
  substitutions; one that is open around the comment takes the comment in as it is
  (`exists_note_markSubstitutions_of_open`).
* **Control lines** are made of whole lines, so the comment must not be on one
  (`exists_note_markControlLines`).
* **The comment goes** with the indentation before it (`dropComments_note`).

The conditions on a comment are those of `IsQuiet`. Main statement: `toPrimitive_of_commented`. Each
of the conditions is needed: `comments_show` has a comment that makes a difference for each.
-/

namespace DsdlHeaders.Text

variable {s : List Char}

/-- The last line of a text. -/
def lastLine (s : List Char) : List Char :=
  s.rtakeWhile (· != '\n')

/-- A text has only one line or a line feed before its last line. -/
theorem not_mem_or_exists_append_feed (s : List Char) :
    '\n' ∉ s ∨ ∃ before line, s = before ++ '\n' :: line ∧ '\n' ∉ line := by
  induction s with
  | nil => exact .inl (by simp)
  | cons c s ih =>
    obtain hs | ⟨before, line, rfl, hline⟩ := ih
    · by_cases hc : c = '\n'
      · exact .inr ⟨[], s, by rw [hc]; rfl, hs⟩
      · exact .inl (by simp [Ne.symm hc, hs])
    · exact .inr ⟨c :: before, line, rfl, hline⟩

/-- A text without line feeds is its last line. -/
theorem lastLine_of_not_mem (h : '\n' ∉ s) : lastLine s = s := by
  refine List.rtakeWhile_eq_self_iff.mpr fun c hc => ?_
  simp only [bne_iff_ne, ne_eq]
  rintro rfl
  exact h hc

/-- The last line comes after the last line feed. -/
theorem lastLine_append_feed (before line : List Char) :
    lastLine (before ++ '\n' :: line) = lastLine line := by
  unfold lastLine List.rtakeWhile
  rw [List.reverse_append, List.reverse_cons, List.append_assoc, List.takeWhile_append]
  split
  · rename_i hlength
    have hall : line.reverse.takeWhile (· != '\n') = line.reverse :=
      (List.takeWhile_prefix _).eq_of_length hlength
    rw [hall]
    simp
  · rfl

/-- There is no line feed in the last line. -/
theorem not_mem_lastLine (s : List Char) : '\n' ∉ lastLine s := fun hmem => by
  simpa using List.mem_rtakeWhile_imp hmem

/-- Unless it is empty, the last line ends with the last character of the text. -/
theorem getLast?_lastLine (h : lastLine s ≠ []) : (lastLine s).getLast? = s.getLast? := by
  obtain ⟨lead, hs⟩ := List.rtakeWhile_suffix (· != '\n') s
  have hlast : (lead ++ lastLine s).getLast? = s.getLast? := congrArg List.getLast? hs
  rwa [List.getLast?_append_of_ne_nil _ h] at hlast

/-- What holds no line feed goes on with the last line. -/
theorem lastLine_append {t : List Char} (h : '\n' ∉ t) : lastLine (s ++ t) = lastLine s ++ t := by
  obtain hs | ⟨before, line, rfl, hline⟩ := not_mem_or_exists_append_feed s
  · rw [lastLine_of_not_mem hs, lastLine_of_not_mem (by simp [hs, h])]
  · rw [List.append_assoc, List.cons_append, lastLine_append_feed, lastLine_append_feed,
      lastLine_of_not_mem hline, lastLine_of_not_mem (by simp [hline, h])]

/-- The first character that is not of a kind is in the first text, or else in the second. -/
theorem head?_dropWhile_append {p : Char → Bool} (s t : List Char) :
    ((s ++ t).dropWhile p).head? = (s.dropWhile p).head?.or (t.dropWhile p).head? := by
  rw [List.dropWhile_append]
  cases s.dropWhile p <;> rfl

end DsdlHeaders.Text

namespace DsdlHeaders.Template.Extended

open Text

variable {before note rest s t : List Char} {prev : Option Char} {rule : Rule}

/-! ## Comments -/

/-- Indentation, the mark of a comment and a text without line breaks. -/
def IsComment (note : List Char) : Prop :=
  ∃ gap text, note = gap ++ '#' :: '!' :: text ∧ (∀ c ∈ gap, isIndent c = true) ∧
    ∀ c ∈ text, isInLine c = true

/-- The two characters of indentation. -/
theorem mem_of_isIndent {c : Char} (h : isIndent c = true) : c ∈ [' ', '\t'] := by
  simpa [isIndent] using h

/-- Indentation is part of a line. -/
theorem isInLine_of_isIndent {c : Char} (h : isIndent c = true) : isInLine c = true := by
  simp only [isIndent, Bool.or_eq_true, beq_iff_eq] at h
  rcases h with rfl | rfl <;> rfl

/-- A comment is part of a line. -/
theorem IsComment.isInLine (h : IsComment note) : ∀ c ∈ note, isInLine c = true := by
  obtain ⟨gap, text, rfl, hgap, htext⟩ := h
  intro c hc
  simp only [List.mem_append, List.mem_cons] at hc
  rcases hc with hc | rfl | rfl | hc
  · exact isInLine_of_isIndent (hgap c hc)
  · rfl
  · rfl
  · exact htext c hc

/-- A comment starts with indentation or with its mark. -/
theorem IsComment.eq_cons (h : IsComment note) :
    ∃ c later, note = c :: later ∧ c ∈ [' ', '\t', '#'] := by
  obtain ⟨gap, text, rfl, hgap, -⟩ := h
  cases gap with
  | nil => exact ⟨'#', _, rfl, by decide⟩
  | cons c gap =>
    exact ⟨c, _, rfl, List.mem_append_left ['#'] (mem_of_isIndent (hgap c List.mem_cons_self))⟩

/-- A comment goes on to the end of the line. -/
theorem IsComment.append (h : IsComment note) (hs : ∀ c ∈ s, Extended.isInLine c = true) :
    IsComment (note ++ s) := by
  obtain ⟨gap, text, rfl, hgap, htext⟩ := h
  refine ⟨gap, text ++ s, by simp, hgap, fun c hc => ?_⟩
  rcases List.mem_append.mp hc with hc | hc
  · exact htext c hc
  · exact hs c hc

/-- A comment in front of a text goes up to a line break or to the end of the text. -/
theorem exists_comment_append (h : ['#', '!'] <+: s.dropWhile isIndent) :
    ∃ first later, s = first ++ later ∧ IsComment first ∧
      ∀ c ∈ later.head?, Extended.isInLine c = false := by
  obtain ⟨text, htext⟩ := h
  refine ⟨s.takeWhile isIndent ++ '#' :: '!' :: text.takeWhile isInLine,
    text.dropWhile isInLine, ?_, ⟨_, _, rfl, fun c hc => List.mem_takeWhile_imp hc,
      fun c hc => List.mem_takeWhile_imp hc⟩, fun c hc => ?_⟩
  · rw [List.append_assoc, List.cons_append, List.cons_append, List.takeWhile_append_dropWhile]
    calc s = s.takeWhile isIndent ++ s.dropWhile isIndent :=
          (List.takeWhile_append_dropWhile).symm
      _ = s.takeWhile isIndent ++ '#' :: '!' :: text := by rw [← htext]; rfl
  · have hnot := List.head?_dropWhile_not isInLine text
    rw [hc] at hnot
    exact hnot

/-- A comment is a piece of a line in which the mark stands after the indentation. -/
theorem isComment_iff : IsComment note ↔
    ['#', '!'] <+: note.dropWhile isIndent ∧ ∀ c ∈ note, Extended.isInLine c = true := by
  constructor
  · intro h
    refine ⟨?_, h.isInLine⟩
    obtain ⟨gap, text, rfl, hgap, -⟩ := h
    rw [List.dropWhile_append_of_pos hgap]
    exact ⟨text, rfl⟩
  · rintro ⟨hmark, hline⟩
    obtain ⟨first, later, rfl, hfirst, hlater⟩ := exists_comment_append hmark
    cases later with
    | nil => rwa [List.append_nil]
    | cons c later =>
      have hinside := hline c (by simp)
      rw [hlater c rfl] at hinside
      exact absurd hinside (by simp)

/-- Whether a text is a comment can be decided. -/
instance (note : List Char) : Decidable (IsComment note) :=
  decidable_of_iff (['#', '!'] <+: note.dropWhile isIndent ∧ note.all isInLine = true) <| by
    rw [List.all_eq_true]
    exact isComment_iff.symm

/-- A line ends between two texts. It ends neither with indentation nor with a backslash, so it is
not continued. -/
structure IsLineEnd (before rest : List Char) : Prop where
  ends : ∀ c ∈ rest.head?, isInLine c = false
  trimmed : ∀ c ∈ before.getLast?, isIndent c = false
  notContinued : before.getLast? ≠ some '\\'
  whole : ['\\', '\r'] <:+ before → rest.head? ≠ some '\n'

/-- The conditions of a line end can be decided. -/
instance (before rest : List Char) : Decidable (IsLineEnd before rest) :=
  decidable_of_iff (rest.head?.all (fun c => !isInLine c) = true ∧
      before.getLast?.all (fun c => !isIndent c) = true ∧ before.getLast? ≠ some '\\' ∧
        (['\\', '\r'] <:+ before → rest.head? ≠ some '\n')) <| by
    simp only [Option.all_eq_true, Bool.not_eq_true']
    exact ⟨fun ⟨ends, trimmed, notContinued, whole⟩ => ⟨ends, trimmed, notContinued, whole⟩,
      fun h => ⟨h.ends, h.trimmed, h.notContinued, h.whole⟩⟩

/-- A comment stands between the line before it, which does not end with indentation, and the end of
the line. -/
structure IsNote (before note rest : List Char) : Prop where
  comment : IsComment note
  trimmed : ∀ c ∈ before.getLast?, isIndent c = false
  ends : ∀ c ∈ rest.head?, isInLine c = false

/-- What follows a comment at the end of a line is nothing or starts with a line break. -/
theorem IsNote.eq_nil_or_cons (h : IsNote before note rest) :
    rest = [] ∨ ∃ c later, rest = c :: later ∧ c ∈ ['\r', '\n'] := by
  cases rest with
  | nil => exact .inl rfl
  | cons c later =>
    refine .inr ⟨c, later, rfl, ?_⟩
    have hc := h.ends c rfl
    simp only [Extended.isInLine, Bool.and_eq_false_iff, bne_eq_false_iff_eq] at hc
    rcases hc with rfl | rfl <;> decide

/-- What the comment stands behind may be cut short. -/
theorem IsNote.of_append (lead : List Char) (h : IsNote (lead ++ before) note rest) :
    IsNote before note rest := by
  refine ⟨h.comment, fun c hc => h.trimmed c ?_, h.ends⟩
  rw [List.getLast?_append, Option.mem_def.mp hc]
  rfl

/-- Neither a comment nor the end of a line starts with the second character of the mark. -/
theorem IsNote.head?_ne (h : IsNote before note rest) :
    rest.head? ≠ some '!' ∧ (note ++ rest).head? ≠ some '!' := by
  constructor
  · exact fun hhead => absurd (h.ends _ hhead) (by decide)
  · obtain ⟨c, later, rfl, hmem⟩ := h.comment.eq_cons
    intro hhead
    obtain rfl : c = '!' := Option.some.inj hhead
    exact absurd hmem (by decide)

/-- A text before a comment is empty or more than indentation. -/
theorem IsNote.dropWhile_ne_nil (h : IsNote before note rest) (hne : before ≠ []) :
    before.dropWhile isIndent ≠ [] := by
  intro hnil
  have hindent := List.dropWhile_eq_nil_iff.mp hnil _ (List.getLast_mem hne)
  rw [h.trimmed _ (List.getLast?_eq_some_getLast hne)] at hindent
  exact absurd hindent (by simp)

/-- The comment makes the difference between the texts. -/
def DiffersByNote (s t : List Char) : Prop :=
  ∃ before note rest, IsNote before note rest ∧ s = before ++ rest ∧ t = before ++ (note ++ rest)

/-! ## Rules that look for something inside lines -/

/-- A rule finds nothing at the characters that surround comments, and what it puts in place of
pieces of lines are pieces of lines. -/
structure KeepsComments (rule : Rule) : Prop where
  idle : ∀ prev c s, c ∈ [' ', '\t', '#', '!', '\r', '\n'] → rule prev (c :: s) = none
  inside : ∀ prev matched s found, rule prev (matched ++ s) = some found →
    matched.length = found.extra + 1 → (∀ c ∈ matched, isInLine c = true) →
    ∀ c ∈ found.text, isInLine c = true

/-- A comment is still a comment after the walk. -/
theorem KeepsComments.isComment (hrule : KeepsComments rule) (hbound : rule.Bounded)
    (h : IsComment note) (prev : Option Char) :
    IsComment (replaceMatchesFrom rule 0 prev note) := by
  obtain ⟨gap, text, rfl, hgap, htext⟩ := h
  have hfront : ∀ c ∈ gap ++ ['#', '!'], c ∈ [' ', '\t', '#', '!', '\r', '\n'] := by
    intro c hc
    rcases List.mem_append.mp hc with hc | hc
    · exact List.mem_append_left ['#', '!', '\r', '\n'] (mem_of_isIndent (hgap c hc))
    · exact List.mem_append_right [' ', '\t'] (List.mem_append_left ['\r', '\n'] hc)
  have hwalk : replaceMatchesFrom rule 0 prev (gap ++ ['#', '!'] ++ text) =
      gap ++ ['#', '!'] ++
        replaceMatchesFrom rule 0 ((gap ++ ['#', '!']).getLast?.or prev) text :=
    replaceMatchesFrom_append_of_none fun before c after hs =>
      hrule.idle _ c _ (hfront c (by rw [hs]; simp))
  rw [List.append_assoc] at hwalk
  refine ⟨gap, _, hwalk.trans (List.append_assoc _ _ _), hgap, ?_⟩
  exact (scans_replaceMatchesFrom hbound _ text).forall_mem hrule.inside htext

/-- The character before a line break makes no difference to the walk. -/
theorem KeepsComments.replaceMatchesFrom_rest (hrule : KeepsComments rule)
    (h : IsNote before note rest) (prev : Option Char) :
    replaceMatchesFrom rule 0 prev rest = replaceMatches rule rest := by
  obtain rfl | ⟨c, later, rfl, hc⟩ := h.eq_nil_or_cons
  · rfl
  · refine replaceMatchesFrom_congr_prev ?_
    have hmem : c ∈ [' ', '\t', '#', '!', '\r', '\n'] :=
      List.mem_append_right [' ', '\t', '#', '!'] hc
    rw [hrule.idle _ c _ hmem, hrule.idle _ c _ hmem]

/-- The walk keeps a line break in front. -/
theorem KeepsComments.head?_replaceMatches (hrule : KeepsComments rule)
    (h : IsNote before note rest) : (replaceMatches rule rest).head? = rest.head? := by
  obtain rfl | ⟨c, later, rfl, hc⟩ := h.eq_nil_or_cons
  · rfl
  · have hmem : c ∈ [' ', '\t', '#', '!', '\r', '\n'] :=
      List.mem_append_right [' ', '\t', '#', '!'] hc
    rw [replaceMatches, replaceMatchesFrom_cons_of_none (hrule.idle _ c _ hmem)]
    rfl

/-- The walk leaves no indentation at the end if no replacement does. -/
theorem isIndent_getLast?_replaceMatches (hbound : rule.Bounded)
    (h : ∀ prev s found, rule prev s = some found →
      ∃ last, found.text.getLast? = some last ∧ isIndent last = false)
    (htrimmed : ∀ c ∈ before.getLast?, isIndent c = false) :
    ∀ c ∈ (replaceMatches rule before).getLast?, isIndent c = false := by
  have hscan := (scans_replaceMatches hbound before).forall_getLast? h
  rw [Option.or_none, Option.or_none] at hscan
  exact hscan htrimmed

/-- A rule that finds nothing across the ends of the comment is applied before it, in it and after
it. -/
theorem replaceMatches_note (hbound : rule.Bounded) (hrule : KeepsComments rule)
    (h : IsNote before note rest) (hnoted : Settled rule none before (note ++ rest))
    (hplain : Settled rule none before rest) (hnote : Settled rule before.getLast? note rest)
    (htrimmed : ∀ c ∈ (replaceMatches rule before).getLast?, isIndent c = false) :
    IsNote (replaceMatches rule before) (replaceMatchesFrom rule 0 before.getLast? note)
        (replaceMatches rule rest) ∧
      replaceMatches rule (before ++ rest) =
        replaceMatches rule before ++ replaceMatches rule rest ∧
      replaceMatches rule (before ++ (note ++ rest)) = replaceMatches rule before ++
        (replaceMatchesFrom rule 0 before.getLast? note ++ replaceMatches rule rest) := by
  refine ⟨⟨hrule.isComment hbound h.comment _, htrimmed, ?_⟩, ?_, ?_⟩
  · rw [hrule.head?_replaceMatches h]
    exact h.ends
  · rw [replaceMatches, replaceMatchesFrom_append_of_settled hbound hplain, Option.or_none,
      hrule.replaceMatchesFrom_rest h]
    rfl
  · rw [replaceMatches, replaceMatchesFrom_append_of_settled hbound hnoted, Option.or_none,
      replaceMatchesFrom_append_of_settled hbound hnote, hrule.replaceMatchesFrom_rest h]
    rfl

/-! ## Continuations -/

/-- The rule for continuations keeps comments. -/
theorem continuationRule_keepsComments : KeepsComments continuationRule where
  idle prev c s hc := by
    rw [Option.eq_none_iff_forall_ne_some]
    intro found hfound
    obtain ⟨lead, next, -, hs, -⟩ := continuationRule_eq_some hfound
    obtain ⟨rfl, -⟩ := List.cons.inj hs
    exact absurd hc (by decide)
  inside prev matched s found h _ _ c hc := by
    obtain ⟨lead, next, -, -, rfl⟩ := continuationRule_eq_some h
    rw [List.mem_singleton.mp hc]
    rfl

/-- A line that does not end with indentation and is not continued does not do so after joining. -/
theorem isIndent_getLast?_joinContinuations (hfresh : ¬ EndsContinued before)
    (htrimmed : ∀ c ∈ before.getLast?, isIndent c = false) :
    ∀ c ∈ (joinContinuations before).getLast?, isIndent c = false := by
  rcases List.eq_nil_or_concat' before with rfl | ⟨lead, last, rfl⟩
  · exact htrimmed
  · have hlast : isIndent last = false := htrimmed last (by simp)
    have hsettled : Settled continuationRule none lead [last] := by
      refine settled_continuationRule (fun hslash ending hending hfeed => ?_)
        (fun hreturn hfeed => ?_) (fun c hc hindent => ?_)
      · obtain ⟨lead, rfl⟩ := List.getLast?_eq_some_iff.mp hslash
        rcases hending with rfl | rfl
        · obtain rfl := (List.cons_prefix_cons.mp hfeed).1
          exact hfresh (.inl ⟨lead, by simp⟩)
        · exact absurd hfeed.length_le (by simp)
      · obtain ⟨lead, rfl⟩ := hreturn
        obtain rfl : last = '\n' := Option.some.inj hfeed
        exact hfresh (.inr ⟨lead, by simp⟩)
      · obtain rfl : last = c := Option.some.inj hc
        rw [hlast] at hindent
        exact absurd hindent (by simp)
    have hkept : replaceMatchesFrom continuationRule 0 (lead.getLast?.or none) [last] = [last] := by
      refine replaceMatchesFrom_cons_of_none ?_
      rw [Option.eq_none_iff_forall_ne_some]
      intro found hfound
      obtain ⟨ending, next, hending, hs, -⟩ := continuationRule_eq_some hfound
      rcases hending with rfl | rfl <;> exact absurd hs (by simp)
    rw [joinContinuations, replaceMatches,
      replaceMatchesFrom_append_of_settled continuationRule_bounded hsettled, hkept,
      List.getLast?_concat]
    intro c hc
    obtain rfl : last = c := Option.some.inj hc
    exact hlast

/-- There is nothing to join in a comment. -/
theorem replaceMatchesFrom_continuationRule_note (h : IsComment note) (prev : Option Char) :
    replaceMatchesFrom continuationRule 0 prev note = note := by
  have hfeed : '\n' ∉ note := fun hmem => absurd (h.isInLine _ hmem) (by decide)
  have hnone : ¬ HasContinuation note := by
    rintro ⟨lead, later, rfl | rfl⟩ <;> exact hfeed (by simp)
  have hprev : replaceMatchesFrom continuationRule 0 prev note = joinContinuations note :=
    replaceMatchesFrom_congr_prev rfl
  rw [hprev, joinContinuations_eq_self_iff.mpr hnone]

/-- Lines are joined before the comment and after it. -/
theorem joinContinuations_note (hend : IsLineEnd before rest) (hcomment : IsComment note)
    (hfresh : ¬ EndsContinued before)
    (hcontained : note.getLast? = some '\\' → ¬ ['\n'] <+: rest ∧ ¬ ['\r', '\n'] <+: rest) :
    IsNote (joinContinuations before) note (joinContinuations rest) ∧
      joinContinuations (before ++ rest) = joinContinuations before ++ joinContinuations rest ∧
      joinContinuations (before ++ (note ++ rest)) =
        joinContinuations before ++ (note ++ joinContinuations rest) := by
  have h : IsNote before note rest := ⟨hcomment, hend.trimmed, hend.ends⟩
  have hindent : ∀ c ∈ rest.head?, isIndent c = true → False := by
    intro c hc hindent
    have hinside := isInLine_of_isIndent hindent
    rw [h.ends c hc] at hinside
    exact absurd hinside (by simp)
  obtain ⟨d, later, hd, hmem⟩ := h.comment.eq_cons
  have hsplit := replaceMatches_note continuationRule_bounded continuationRule_keepsComments h
    (settled_continuationRule (fun hslash => absurd hslash hend.notContinued)
      (fun _ hfeed => ?_) fun _ _ _ => ⟨hfresh, h.trimmed⟩)
    (settled_continuationRule (fun hslash => absurd hslash hend.notContinued) hend.whole
      fun c hc hc' => (hindent c hc hc').elim)
    (settled_continuationRule (fun hslash ending hending => ?_) (fun hreturn => ?_)
      fun c hc hc' => (hindent c hc hc').elim)
    (isIndent_getLast?_joinContinuations hfresh h.trimmed)
  · rwa [replaceMatchesFrom_continuationRule_note h.comment] at hsplit
  · rw [hd] at hfeed
    obtain rfl : d = '\n' := Option.some.inj hfeed
    exact absurd hmem (by decide)
  · rcases hending with rfl | rfl
    · exact (hcontained hslash).1
    · exact (hcontained hslash).2
  · exact absurd (h.comment.isInLine '\r' (hreturn.subset (by simp))) (by decide)

/-! ## Substitutions -/

/-- The rule for substitutions keeps comments. -/
theorem substitutionRule_keepsComments : KeepsComments substitutionRule where
  idle prev c s hc := by
    rw [Option.eq_none_iff_forall_ne_some]
    intro found hfound
    obtain ⟨-, body, after, hs, -⟩ := substitutionRule_eq_some_iff.mp hfound
    obtain ⟨rfl, -⟩ := List.cons.inj hs
    exact absurd hc (by decide)
  inside prev matched s found h hlength hmatched c hc := by
    obtain ⟨-, body, rfl, -, -, rfl⟩ := exists_body_of_substitution h hlength
    simp only [List.mem_append, List.mem_cons, List.not_mem_nil, or_false] at hc
    rcases hc with ((rfl | rfl) | hc) | rfl | rfl
    · rfl
    · rfl
    · exact hmatched c (by simp [hc])
    · rfl
    · rfl

/-- Substitutions are marked before the comment, in it and after it, unless one is open around the
comment and closed after it, or starts in the comment and is closed after it. -/
theorem markSubstitutions_note (h : IsNote before note rest)
    (hcloses : HasOpenSubstitution before → '\x7d' ∉ note ++ rest)
    (hopens : HasOpenSubstitution note → '\x7d' ∉ rest) :
    IsNote (markSubstitutions before)
        (replaceMatchesFrom substitutionRule 0 before.getLast? note) (markSubstitutions rest) ∧
      markSubstitutions (before ++ rest) = markSubstitutions before ++ markSubstitutions rest ∧
      markSubstitutions (before ++ (note ++ rest)) = markSubstitutions before ++
        (replaceMatchesFrom substitutionRule 0 before.getLast? note ++ markSubstitutions rest) := by
  obtain ⟨d, later, rfl, hd⟩ := h.comment.eq_cons
  have hbrace : rest.head? ≠ some '\x7b' := fun hhead =>
    absurd (h.ends _ hhead) (by decide)
  have hopen : StaysOpen before.getLast? (d :: later) → '\x7d' ∉ rest := by
    intro hstays
    refine hopens (hasOpenSubstitution_iff.mpr ?_)
    rw [StaysOpen] at hstays ⊢
    refine hstays.imp_left fun hfirst => ?_
    rw [hfirst.1] at hd
    exact absurd hd (by decide)
  refine replaceMatches_note substitutionRule_bounded substitutionRule_keepsComments h
    (settled_substitutionRule (fun hstays => hcloses (hasOpenSubstitution_iff.mpr hstays))
      fun _ hhead => ?_)
    (settled_substitutionRule (fun hstays hmem => ?_) fun _ => hbrace)
    (settled_substitutionRule hopen fun _ => hbrace) ?_
  · obtain rfl : d = '\x7b' := Option.some.inj hhead
    exact absurd hd (by decide)
  · exact hcloses (hasOpenSubstitution_iff.mpr hstays) (List.mem_append_right _ hmem)
  · refine isIndent_getLast?_replaceMatches substitutionRule_bounded (fun prev s found hfound => ?_)
      h.trimmed
    obtain ⟨-, body, after, -, -, -, rfl⟩ := substitutionRule_eq_some_iff.mp hfound
    exact ⟨'$', by rw [List.getLast?_append]; rfl, rfl⟩

/-- The first substitution that stays open. -/
theorem exists_first_open (h : StaysOpen prev s) :
    ∃ lead body, s = lead ++ '$' :: '\x7b' :: body ∧ lead.getLast?.or prev ≠ some '$' ∧
      '\x7d' ∉ body ∧ ¬ StaysOpen prev lead := by
  induction s generalizing prev with
  | nil => exact h.elim
  | cons c s ih =>
    by_cases hfirst : c = '$' ∧ prev ≠ some '$' ∧ s.head? = some '\x7b' ∧ '\x7d' ∉ s
    · obtain ⟨rfl, hprev, hhead, hclose⟩ := hfirst
      obtain ⟨body, rfl⟩ := List.head?_eq_some_iff.mp hhead
      exact ⟨[], body, rfl, hprev, fun hmem => hclose (List.mem_cons_of_mem _ hmem), id⟩
    · obtain ⟨lead, body, rfl, hprev, hclose, hlead⟩ := ih (h.resolve_left hfirst)
      refine ⟨c :: lead, body, rfl, by rwa [getLast?_cons_or], hclose, ?_⟩
      rintro (⟨hc, hdollar, hhead, hmem⟩ | hlater)
      · -- no closing brace comes later either, so the substitution at `c` would stay open
        obtain ⟨inner, rfl⟩ := List.head?_eq_some_iff.mp hhead
        refine hfirst ⟨hc, hdollar, rfl, fun hall => ?_⟩
        rcases List.mem_append.mp hall with hall | hall
        · exact hmem hall
        · exact hclose (by simpa using hall)
      · exact hlead hlater

/-- The last line of a text starts with indentation and a percent sign. -/
def OnControlLine (s : List Char) : Prop :=
  ((lastLine s).dropWhile isIndent).head? = some '%'

/-- Whether the last line is a control line can be decided. -/
instance (s : List Char) : Decidable (OnControlLine s) :=
  inferInstanceAs (Decidable (_ = _))

/-- Behind a dollar sign, the last line starts with what stands before it or after a line feed. -/
theorem onControlLine_dollar {c : Char} (hc : c ≠ '\n') (lead body : List Char) :
    OnControlLine (lead ++ '$' :: c :: body) ↔
      if '\n' ∈ body then OnControlLine body else OnControlLine lead := by
  unfold OnControlLine
  split
  · rename_i hfeed
    obtain hbody | ⟨inner, line, rfl, -⟩ := not_mem_or_exists_append_feed body
    · exact absurd hfeed hbody
    · have hsplit : lead ++ '$' :: c :: (inner ++ '\n' :: line) =
          (lead ++ '$' :: c :: inner) ++ '\n' :: line := by simp
      rw [hsplit, lastLine_append_feed, lastLine_append_feed]
  · rename_i hfeed
    rw [lastLine_append (by simp [Ne.symm hc, hfeed]), head?_dropWhile_append,
      List.dropWhile_cons_of_neg (by decide)]
    cases (lastLine lead).dropWhile isIndent <;> simp

/-- A substitution that is not closed is not marked. -/
theorem replaceMatchesFrom_substitutionRule_of_not_mem (h : '\x7d' ∉ s) (prev : Option Char) :
    replaceMatchesFrom substitutionRule 0 prev s = s := by
  have hwalk : replaceMatchesFrom substitutionRule 0 prev (s ++ []) = s ++ [] := by
    refine replaceMatchesFrom_append_of_none fun lead c later hs => ?_
    rw [Option.eq_none_iff_forall_ne_some]
    intro found hfound
    obtain ⟨-, body, after, hbody, -⟩ := substitutionRule_eq_some_iff.mp hfound
    rw [List.append_nil] at hbody
    exact h (by simp [hs, hbody])
  rwa [List.append_nil] at hwalk

/-- A substitution that is open around a comment and closed after it takes the comment in. -/
theorem exists_note_markSubstitutions_of_open (h : IsNote before note rest)
    (hopen : HasOpenSubstitution before) (hnote : '\x7d' ∉ note) (hrest : '\x7d' ∈ rest) :
    ∃ before' rest', IsNote before' note rest' ∧
      (OnControlLine before' ↔ OnControlLine (markSubstitutions before)) ∧
      markSubstitutions (before ++ rest) = before' ++ rest' ∧
      markSubstitutions (before ++ (note ++ rest)) = before' ++ (note ++ rest') := by
  obtain ⟨lead, body, rfl, hprev, hbody, hlead⟩ :=
    exists_first_open (hasOpenSubstitution_iff.mp hopen)
  obtain ⟨inner, later, rfl, hinner⟩ := List.eq_append_cons_of_mem hrest
  rw [Option.or_none] at hprev
  have hsplit : ∀ u, markSubstitutions (lead ++ '$' :: u) =
      markSubstitutions lead ++ replaceMatchesFrom substitutionRule 0 lead.getLast? ('$' :: u) := by
    intro u
    have hsettled : Settled substitutionRule none lead ('$' :: u) :=
      settled_substitutionRule (fun hstays => absurd hstays hlead) fun hlast => absurd hlast hprev
    rw [markSubstitutions, replaceMatches,
      replaceMatchesFrom_append_of_settled substitutionRule_bounded hsettled, Option.or_none]
    rfl
  have hkept : markSubstitutions (lead ++ '$' :: '\x7b' :: body) =
      markSubstitutions lead ++ '$' :: '\x7b' :: body := by
    rw [hsplit, replaceMatchesFrom_substitutionRule_of_not_mem (by simp [hbody])]
  -- the same closing brace ends the substitution with the comment and without it
  have hmark : ∀ u, '\x7d' ∉ u → u ≠ [] →
      markSubstitutions (lead ++ '$' :: '\x7b' :: (u ++ '\x7d' :: later)) =
        markSubstitutions lead ++ ('$' :: '!' :: u ++ ('!' :: '$' ::
          replaceMatchesFrom substitutionRule 0 (some '\x7d') later)) := by
    intro u hu hne
    have hfound : substitutionRule lead.getLast? (('$' :: '\x7b' :: (u ++ ['\x7d'])) ++ later) =
        some ⟨['$', '!'] ++ u ++ ['!', '$'], u.length + 2⟩ :=
      substitutionRule_eq_some_iff.mpr ⟨hprev, u, later, by simp, hne, hu, rfl⟩
    have hmatch := replaceMatchesFrom_of_found hfound (by simp)
    rw [hsplit, show '$' :: '\x7b' :: (u ++ '\x7d' :: later) =
      ('$' :: '\x7b' :: (u ++ ['\x7d'])) ++ later by simp, hmatch]
    simp [List.getLast?_cons]
  have hne : inner ≠ [] := by
    rintro rfl
    exact absurd (h.ends _ rfl) (by decide)
  refine ⟨markSubstitutions lead ++ '$' :: '!' :: body, inner ++ ('!' :: '$' ::
    replaceMatchesFrom substitutionRule 0 (some '\x7d') later), ⟨h.comment, ?_, ?_⟩, ?_, ?_, ?_⟩
  · have htrimmed := h.trimmed
    rw [List.getLast?_append_of_ne_nil _ (List.cons_ne_nil _ _)] at htrimmed ⊢
    rcases List.eq_nil_or_concat' body with rfl | ⟨body, last, rfl⟩
    · simp [isIndent]
    · simpa [List.getLast?_cons] using htrimmed
  · have hends := h.ends
    rw [List.head?_append_of_ne_nil _ hne] at hends ⊢
    exact hends
  · rw [hkept, onControlLine_dollar (by decide), onControlLine_dollar (by decide)]
  · have hmarked := hmark (body ++ inner) (by simp [hbody, hinner]) (by simp [hne])
    simpa using hmarked
  · have hmarked := hmark (body ++ (note ++ inner)) (by simp [hbody, hnote, hinner]) (by simp [hne])
    simpa using hmarked

/-- A comment stays a comment when substitutions are marked, if it does not close one that is open
before it, and none of its own is closed after it. -/
theorem exists_note_markSubstitutions (h : IsNote before note rest)
    (hcloses : HasOpenSubstitution before → '\x7d' ∉ note)
    (hopens : ¬ HasOpenSubstitution before → HasOpenSubstitution note → '\x7d' ∉ rest) :
    ∃ before' note' rest', IsNote before' note' rest' ∧
      (OnControlLine before' ↔ OnControlLine (markSubstitutions before)) ∧
      markSubstitutions (before ++ rest) = before' ++ rest' ∧
      markSubstitutions (before ++ (note ++ rest)) = before' ++ (note' ++ rest') := by
  by_cases hinner : HasOpenSubstitution before ∧ '\x7d' ∈ rest
  · obtain ⟨before', rest', hnote⟩ :=
      exists_note_markSubstitutions_of_open h hinner.1 (hcloses hinner.1) hinner.2
    exact ⟨before', note, rest', hnote⟩
  · have hafter : HasOpenSubstitution before → '\x7d' ∉ rest := fun hopen hmem =>
      hinner ⟨hopen, hmem⟩
    obtain ⟨hnote, hplain, hnoted⟩ := markSubstitutions_note h
      (fun hopen hmem => (List.mem_append.mp hmem).elim (hcloses hopen) (hafter hopen))
      (fun hopen => (em (HasOpenSubstitution before)).elim hafter fun hclosed =>
        hopens hclosed hopen)
    exact ⟨_, _, _, hnote, Iff.rfl, hplain, hnoted⟩

/-! ## Control lines -/

/-- Marking changes no line whose first character after the indentation is no percent sign. -/
theorem markControlLine_of_head? {line : List Char}
    (h : (line.dropWhile isIndent).head? ≠ some '%') : markControlLine line = line := by
  unfold markControlLine
  split
  · rename_i u hu
    rw [hu] at h
    exact absurd rfl h
  · rfl

/-- Control lines are marked before the last line of a text, whatever it goes on with. -/
theorem exists_front_markControlLines (s : List Char) :
    ∃ front, (front = [] ∨ front.getLast? = some '\n') ∧
      ∀ u, markControlLines (s ++ u) = front ++ markControlLines (lastLine s ++ u) := by
  obtain hs | ⟨lead, line, rfl, hline⟩ := not_mem_or_exists_append_feed s
  · refine ⟨[], .inl rfl, fun u => ?_⟩
    rw [lastLine_of_not_mem hs, List.nil_append]
  · refine ⟨markControlLines lead ++ ['\n'], .inr List.getLast?_concat, fun u => ?_⟩
    rw [lastLine_append_feed, lastLine_of_not_mem hline, List.append_assoc, List.cons_append,
      markControlLines_append, List.append_assoc]
    rfl

/-- Control lines are marked after the first line of a text, whatever comes before it. -/
theorem exists_back_markControlLines (s : List Char) :
    ∃ line back, '\n' ∉ line ∧ (line ++ back).head? = s.head? ∧
      ∀ u, '\n' ∉ u → markControlLines (u ++ s) = markControlLine (u ++ line) ++ back := by
  have hline : ∀ u, '\n' ∉ u → markControlLines u = markControlLine u := by
    intro u hu
    rw [markControlLines, splitOn_of_not_mem hu]
    rfl
  by_cases hs : '\n' ∈ s
  · obtain ⟨line, later, rfl, hfeed⟩ := List.eq_append_cons_of_mem hs
    refine ⟨line, '\n' :: markControlLines later, hfeed, ?_, fun u hu => ?_⟩
    · cases line <;> rfl
    · rw [← List.append_assoc, markControlLines_append, hline _ (by simp [hu, hfeed])]
  · refine ⟨s, [], hs, by rw [List.append_nil], fun u hu => ?_⟩
    rw [List.append_nil, hline _ (by simp [hu, hs])]

/-- A comment that is not on a control line stays where it is when control lines are marked. -/
theorem exists_note_markControlLines (h : IsNote before note rest)
    (hplain : ¬ OnControlLine before) :
    DiffersByNote (markControlLines (before ++ rest))
      (markControlLines (before ++ (note ++ rest))) := by
  obtain ⟨front, hfront, hbefore⟩ := exists_front_markControlLines before
  obtain ⟨line, back, hfeed, hhead, hrest⟩ := exists_back_markControlLines rest
  have hlast : '\n' ∉ lastLine before := not_mem_lastLine before
  have hnote : '\n' ∉ note := fun hmem => absurd (h.comment.isInLine _ hmem) (by decide)
  have hkept : ∀ u, (u.dropWhile isIndent).head? ≠ some '%' →
      markControlLine (lastLine before ++ u) = lastLine before ++ u := by
    intro u hu
    refine markControlLine_of_head? ?_
    rw [head?_dropWhile_append]
    cases hdrop : (lastLine before).dropWhile isIndent with
    | nil => exact hu
    | cons c later =>
      unfold OnControlLine at hplain
      rwa [hdrop] at hplain
  -- neither the end of the line nor the comment before it starts with a percent sign
  have hbreak : (line.dropWhile isIndent).head? ≠ some '%' := by
    cases line with
    | nil => simp
    | cons c line =>
      have hc : isInLine c = false := h.ends c hhead.symm
      rw [List.dropWhile_cons_of_neg fun hindent => by simp [isInLine_of_isIndent hindent] at hc]
      rintro hpercent
      obtain rfl : c = '%' := Option.some.inj hpercent
      exact absurd hc (by decide)
  have hmark : ((note ++ line).dropWhile isIndent).head? ≠ some '%' := by
    obtain ⟨gap, text, rfl, hgap, -⟩ := h.comment
    rw [List.append_assoc, List.dropWhile_append_of_pos hgap]
    exact (by decide : some '#' ≠ some '%')
  refine ⟨front ++ lastLine before, note, line ++ back, ⟨h.comment, ?_, ?_⟩, ?_, ?_⟩
  · by_cases hnil : lastLine before = []
    · rw [hnil, List.append_nil]
      rcases hfront with rfl | hfront
      · simp
      · simp [hfront, isIndent]
    · rw [List.getLast?_append_of_ne_nil _ hnil, getLast?_lastLine hnil]
      exact h.trimmed
  · rw [hhead]
    exact h.ends
  · rw [hbefore, hrest _ hlast, hkept line hbreak, List.append_assoc, List.append_assoc]
  · rw [hbefore, ← List.append_assoc (lastLine before), hrest _ (by simp [hlast, hnote]),
      List.append_assoc (lastLine before), hkept _ hmark]
    simp

/-! ## Block ends -/

/-- No block end holds indentation, the mark of a comment or a line break. -/
theorem IsBlockEnd.not_mem {w : List Char} (h : IsBlockEnd w) {c : Char}
    (hc : c ∈ [' ', '\t', '#', '\r', '\n']) : c ∉ w := by
  have hforeign : [' ', '\t', '#', '\r', '\n'].all (fun c =>
      !isBlockLetter c && !(tagOpen ++ endWord).contains c && !tagClose.contains c) := by decide
  have hplain := List.all_eq_true.mp hforeign c hc
  simp only [Bool.and_eq_true, Bool.not_eq_true', List.contains_eq_mem, decide_eq_false_iff_not]
    at hplain
  obtain ⟨⟨hletter, hopen⟩, hclose⟩ := hplain
  obtain ⟨name, rfl, -, hname⟩ := h
  simp only [List.mem_append, not_or] at hopen ⊢
  exact ⟨hopen, fun hmem => by simp [hname c hmem] at hletter, hclose⟩

/-- The rule for block ends keeps comments. -/
theorem blockEndRule_keepsComments : KeepsComments blockEndRule where
  idle prev c s hc := by
    rw [Option.eq_none_iff_forall_ne_some]
    intro found hfound
    obtain ⟨name, after, hs, -⟩ := blockEndRule_eq_some_iff.mp hfound
    obtain ⟨rfl, -⟩ := List.cons.inj hs
    exact absurd hc (by decide)
  inside prev matched s found h _ _ := by
    obtain ⟨name, after, -, -, -, rfl⟩ := blockEndRule_eq_some_iff.mp h
    exact List.all_eq_true.mp rfl

/-- No block end reaches into a text that starts with indentation, a comment or a line break. -/
theorem settled_blockEndRule (h : ∀ c ∈ rest.head?, c ∈ [' ', '\t', '#', '\r', '\n']) :
    Settled blockEndRule prev s rest := by
  intro lead c later _
  refine blockEndRule_congr fun w hw => ?_
  rw [← List.cons_append]
  refine ⟨fun hfront => ?_, fun hfront => hfront.trans (List.prefix_append _ _)⟩
  cases rest with
  | nil => rwa [List.append_nil] at hfront
  | cons d rest => exact prefix_of_prefix_append_cons hfront (hw.not_mem (h d rfl))

/-- Blocks are closed before the comment, in it and after it. -/
theorem exists_note_closeBlocks (h : IsNote before note rest) :
    DiffersByNote (closeBlocks (before ++ rest)) (closeBlocks (before ++ (note ++ rest))) := by
  have hbreak : ∀ c ∈ rest.head?, c ∈ [' ', '\t', '#', '\r', '\n'] := by
    intro c hc
    obtain rfl | ⟨d, later, rfl, hd⟩ := h.eq_nil_or_cons
    · exact absurd hc (by simp)
    · obtain rfl : d = c := Option.some.inj hc
      exact List.mem_append_right [' ', '\t', '#'] hd
  have hmark : ∀ c ∈ (note ++ rest).head?, c ∈ [' ', '\t', '#', '\r', '\n'] := by
    intro c hc
    obtain ⟨d, later, rfl, hd⟩ := h.comment.eq_cons
    obtain rfl : d = c := Option.some.inj hc
    exact List.mem_append_left ['\r', '\n'] hd
  obtain ⟨hnote, hplain, hnoted⟩ := replaceMatches_note blockEndRule_bounded
    blockEndRule_keepsComments h (settled_blockEndRule hmark) (settled_blockEndRule hbreak)
    (settled_blockEndRule hbreak) <|
      isIndent_getLast?_replaceMatches blockEndRule_bounded (fun prev s found hfound => by
        obtain ⟨name, after, -, -, -, rfl⟩ := blockEndRule_eq_some_iff.mp hfound
        exact ⟨'>', rfl, rfl⟩) h.trimmed
  exact ⟨_, _, _, hnote, hplain, hnoted⟩

/-! ## Dropping comments -/

/-- The rule for comments finds nothing unless the mark stands after the indentation. -/
theorem commentRule_eq_none (h : ¬ ['#', '!'] <+: s.dropWhile isIndent) :
    commentRule prev s = none := by
  have hstarts : ¬ startsWith ['#', '!'] (s.dropWhile isIndent) = true := fun hstarts =>
    h (startsWith_iff.mp hstarts)
  unfold commentRule
  simp only [hstarts, Bool.false_eq_true, if_false]

/-- The rule for comments matches a comment up to the end of the line. -/
theorem commentRule_append (h : IsComment note) (hends : ∀ c ∈ rest.head?, isInLine c = false)
    (prev : Option Char) : commentRule prev (note ++ rest) = some ⟨[], note.length - 1⟩ := by
  obtain ⟨gap, text, rfl, hgap, htext⟩ := h
  have hdrop : (gap ++ '#' :: '!' :: text ++ rest).dropWhile isIndent =
      '#' :: '!' :: (text ++ rest) := by
    rw [List.append_assoc, List.dropWhile_append_of_pos hgap]
    rfl
  have htake : (gap ++ '#' :: '!' :: text ++ rest).takeWhile isIndent = gap := by
    rw [List.append_assoc, List.takeWhile_append_of_pos hgap, List.cons_append,
      List.takeWhile_cons_of_neg (by decide), List.append_nil]
  have hline : ('#' :: '!' :: (text ++ rest)).takeWhile isInLine = '#' :: '!' :: text := by
    rw [List.takeWhile_cons_of_pos (by decide), List.takeWhile_cons_of_pos (by decide),
      takeWhile_append_of_head fun _ => hends, List.takeWhile_eq_self_iff.mpr htext]
  have hstarts : startsWith ['#', '!'] ('#' :: '!' :: (text ++ rest)) = true :=
    startsWith_iff.mpr ⟨text ++ rest, rfl⟩
  unfold commentRule
  simp only [hdrop, htake, hline, hstarts, if_true, List.length_append]

/-- The walk goes on behind a comment. -/
theorem replaceMatchesFrom_commentRule_note (h : IsComment note)
    (hends : ∀ c ∈ rest.head?, isInLine c = false) (prev : Option Char) :
    replaceMatchesFrom commentRule 0 prev (note ++ rest) = dropComments rest := by
  have hlength : note.length = note.length - 1 + 1 := by
    obtain ⟨c, later, rfl, -⟩ := h.eq_cons
    rfl
  rw [replaceMatchesFrom_of_found (commentRule_append h hends prev) hlength, List.nil_append]
  exact replaceMatchesFrom_eq_of_isLocal commentRule_isLocal 0 _ none rest

/-- The mark of a comment does not reach beyond a text, unless its second character comes next. -/
theorem not_mark_prefix_append (hne : s ≠ []) (h : ¬ ['#', '!'] <+: s)
    (hrest : rest.head? ≠ some '!') : ¬ ['#', '!'] <+: s ++ rest := by
  rintro ⟨later, hlater⟩
  rcases s with - | ⟨c, - | ⟨d, s⟩⟩
  · exact hne rfl
  · obtain ⟨-, htail⟩ := List.cons.inj hlater
    have hhead := congrArg List.head? htail
    exact hrest hhead.symm
  · obtain ⟨rfl, htail⟩ := List.cons.inj hlater
    obtain ⟨rfl, -⟩ := List.cons.inj htail
    exact h ⟨s, rfl⟩

/-- Whatever comments stand in the text before it, a comment at the end of a line makes no
difference to the walk. -/
theorem replaceMatchesFrom_commentRule_append (h : IsNote before note rest) (prev : Option Char) :
    replaceMatchesFrom commentRule 0 prev (before ++ (note ++ rest)) =
      replaceMatchesFrom commentRule 0 prev (before ++ rest) := by
  induction hlength : before.length using Nat.strongRecOn generalizing before prev with
  | ind length ih =>
    subst hlength
    cases before with
    | nil =>
      rw [List.nil_append, List.nil_append,
        replaceMatchesFrom_commentRule_note h.comment h.ends]
      exact replaceMatchesFrom_eq_of_isLocal commentRule_isLocal 0 none prev rest
    | cons c before =>
      by_cases hmark : ['#', '!'] <+: (c :: before).dropWhile isIndent
      · -- a comment stands in front: the other one is part of it or comes on a later line
        obtain ⟨first, later, hbefore, hfirst, hlater⟩ := exists_comment_append hmark
        rw [hbefore, List.append_assoc, List.append_assoc]
        cases later with
        | nil =>
          rw [List.nil_append, List.nil_append, ← List.append_assoc,
            replaceMatchesFrom_commentRule_note (hfirst.append h.comment.isInLine) h.ends,
            replaceMatchesFrom_commentRule_note hfirst h.ends]
        | cons d later =>
          have hshorter : (d :: later).length < (c :: before).length := by
            obtain ⟨e, inner, rfl, -⟩ := hfirst.eq_cons
            simp only [hbefore, List.length_append, List.length_cons]
            omega
          have hskip : ∀ u, replaceMatchesFrom commentRule 0 prev (first ++ (d :: later ++ u)) =
              dropComments (d :: later ++ u) := by
            intro u
            have hends : ∀ e ∈ (d :: later ++ u).head?, isInLine e = false := hlater
            exact replaceMatchesFrom_commentRule_note hfirst hends prev
          rw [hbefore] at h
          rw [hskip, hskip]
          exact ih _ hshorter (.of_append first h) none rfl
      · have hne := h.dropWhile_ne_nil (List.cons_ne_nil c before)
        have hnone : ∀ u, u.head? ≠ some '!' → commentRule prev (c :: (before ++ u)) = none := by
          intro u hu
          refine commentRule_eq_none ?_
          rw [← List.cons_append, List.dropWhile_append, if_neg (by simpa using hne)]
          exact not_mark_prefix_append hne hmark hu
        rw [List.cons_append, List.cons_append,
          replaceMatchesFrom_cons_of_none (hnone _ h.head?_ne.2),
          replaceMatchesFrom_cons_of_none (hnone _ h.head?_ne.1),
          ih before.length (by simp) (.of_append [c] h) _ rfl]

/-- A comment at the end of a line is dropped with the indentation before it. -/
theorem dropComments_note (h : IsNote before note rest) :
    dropComments (before ++ (note ++ rest)) = dropComments (before ++ rest) :=
  replaceMatchesFrom_commentRule_append h none

/-! ## One comment -/

/-- A comment stands on a quiet line: the line is no control line and does not start right after one
that is continued, the comment does not continue the line, and no substitution is closed too early
or opened by the comment. -/
structure IsQuiet (before note rest : List Char) : Prop where
  plain : ¬ OnControlLine (beforeControlLines before)
  fresh : ¬ EndsContinued before
  contained : note.getLast? = some '\\' → ¬ ['\n'] <+: rest ∧ ¬ ['\r', '\n'] <+: rest
  closes : HasOpenSubstitution before → '\x7d' ∉ note
  opens : ¬ HasOpenSubstitution before → HasOpenSubstitution note → '\x7d' ∉ rest

/-- Whether a line is quiet can be decided. -/
instance (before note rest : List Char) : Decidable (IsQuiet before note rest) :=
  decidable_of_iff (¬ OnControlLine (beforeControlLines before) ∧ ¬ EndsContinued before ∧
      (note.getLast? = some '\\' → ¬ ['\n'] <+: rest ∧ ¬ ['\r', '\n'] <+: rest) ∧
        (HasOpenSubstitution before → '\x7d' ∉ note) ∧
          (¬ HasOpenSubstitution before → HasOpenSubstitution note → '\x7d' ∉ rest))
    ⟨fun ⟨plain, fresh, contained, closes, opens⟩ => ⟨plain, fresh, contained, closes, opens⟩,
      fun h => ⟨h.plain, h.fresh, h.contained, h.closes, h.opens⟩⟩

/-- A comment at the end of a quiet line makes no difference. -/
theorem toPrimitive_note (hend : IsLineEnd before rest) (hcomment : IsComment note)
    (hquiet : IsQuiet before note rest) :
    toPrimitive (before ++ (note ++ rest)) = toPrimitive (before ++ rest) := by
  obtain ⟨hjoined, hplain, hnoted⟩ :=
    joinContinuations_note hend hcomment hquiet.fresh hquiet.contained
  -- joining lines neither opens nor closes a substitution
  have hopen : HasOpenSubstitution (joinContinuations before) ↔ HasOpenSubstitution before :=
    hasOpenSubstitution_joinContinuations
  have hbrace : '\x7d' ∈ joinContinuations rest ↔ '\x7d' ∈ rest :=
    (scans_replaceMatches continuationRule_bounded rest).mem_iff fun prev matched s found =>
      not_mem_of_continuation (by decide)
  obtain ⟨before₂, note₂, rest₂, hnote, hline, hplain₂, hnoted₂⟩ :=
    exists_note_markSubstitutions hjoined (by rw [hopen]; exact hquiet.closes)
      (by rw [hopen, hbrace]; exact hquiet.opens)
  obtain ⟨before₃, note₃, rest₃, hnote, hplain₃, hnoted₃⟩ :=
    exists_note_markControlLines hnote fun hcontrol => hquiet.plain (hline.mp hcontrol)
  obtain ⟨before₄, note₄, rest₄, hnote, hplain₄, hnoted₄⟩ := exists_note_closeBlocks hnote
  unfold toPrimitive
  rw [hplain, hnoted, hplain₂, hnoted₂, hplain₃, hnoted₃, hplain₄, hnoted₄,
    dropComments_note hnote]

/-! ## All comments -/

/-- The second text is the first one, which follows `before`, with comments at the ends of lines.
Each of them fits between the text before it, without comments, and what comes after it. -/
inductive Commented (fits : List Char → List Char → List Char → Prop) :
    List Char → List Char → List Char → Prop where
  | done {before : List Char} : Commented fits before [] []
  | keep {before s t : List Char} {c : Char} (hrest : Commented fits (before ++ [c]) s t) :
    Commented fits before (c :: s) (c :: t)
  | comment {before note s t : List Char} (hend : IsLineEnd before s) (hcomment : IsComment note)
    (hfits : fits before note t) (hhead : t.head? = s.head?) (hrest : Commented fits before s t) :
    Commented fits before s (note ++ t)

/-- Comments on quiet lines, as many as there may be, make no difference. -/
theorem toPrimitive_append_of_commented (h : Commented IsQuiet before s t) :
    toPrimitive (before ++ t) = toPrimitive (before ++ s) := by
  induction h with
  | done => rfl
  | keep _ ih => simpa using ih
  | comment hend hcomment hfits hhead _ ih =>
    rw [← ih]
    refine toPrimitive_note ⟨?_, hend.trimmed, hend.notContinued, ?_⟩ hcomment hfits
    · rw [hhead]
      exact hend.ends
    · rw [hhead]
      exact hend.whole

/-- A template with comments on quiet lines is the same in primitive notation as the template
without them. -/
theorem toPrimitive_of_commented (h : Commented IsQuiet [] s t) : toPrimitive t = toPrimitive s :=
  toPrimitive_append_of_commented h

/-- Text in front of both templates. -/
theorem Commented.append_left {fits : List Char → List Char → List Char → Prop}
    (lead : List Char) (h : Commented fits (before ++ lead) s t) :
    Commented fits before (lead ++ s) (lead ++ t) := by
  induction lead generalizing before with
  | nil => simpa using h
  | cons c lead ih =>
    refine .keep (ih ?_)
    simpa using h

/-- A template without comments. -/
theorem Commented.refl {fits : List Char → List Char → List Char → Prop} (before s : List Char) :
    Commented fits before s s := by
  induction s generalizing before with
  | nil => exact .done
  | cons c s ih => exact .keep (ih _)

/-- A comment inside a substitution over two lines makes no difference, nor does one after it that
holds a substitution, a percent sign and a backslash. -/
theorem toPrimitive_of_commented_call :
    Commented IsQuiet [] "$\x7bf(1,\n  2)\x7d;\n% endif".toList
        "$\x7bf(1, #! one\n  2)\x7d;\t#!$\x7bx\x7d % \\\t\n% endif".toList ∧
      toPrimitive "$\x7bf(1, #! one\n  2)\x7d;\t#!$\x7bx\x7d % \\\t\n% endif".toList =
        toPrimitive "$\x7bf(1,\n  2)\x7d;\n% endif".toList ∧
      toPrimitive "$\x7bf(1,\n  2)\x7d;\n% endif".toList =
        "$!f(1,\n  2)!$;\n<!--(end)-->".toList := by
  have hlast : Commented IsQuiet "$\x7bf(1,\n  2)\x7d;".toList "\n% endif".toList
      ("\t#!$\x7bx\x7d % \\\t".toList ++ "\n% endif".toList) :=
    .comment (by decide +kernel) (by decide +kernel) (by decide +kernel) rfl (.refl _ _)
  have hfirst : Commented IsQuiet "$\x7bf(1,".toList ("\n  2)\x7d;".toList ++ "\n% endif".toList)
      (" #! one".toList ++ ("\n  2)\x7d;".toList ++
        ("\t#!$\x7bx\x7d % \\\t".toList ++ "\n% endif".toList))) :=
    .comment (by decide +kernel) (by decide +kernel) (by decide +kernel) rfl
      (hlast.append_left "\n  2)\x7d;".toList)
  have hall : Commented IsQuiet [] ("$\x7bf(1,".toList ++ ("\n  2)\x7d;".toList ++
      "\n% endif".toList)) _ := hfirst.append_left "$\x7bf(1,".toList
  exact ⟨hall, toPrimitive_of_commented hall, by decide +kernel⟩

/-- A comment at the end of a line is the only one in a template, and it makes a difference. -/
structure IsLoud (before note rest : List Char) : Prop where
  commented : Commented (fun _ _ _ => True) [] (before ++ rest) (before ++ (note ++ rest))
  plain : ¬ HasComment (before ++ rest)
  differs : toPrimitive (before ++ (note ++ rest)) ≠ toPrimitive (before ++ rest)

/-- A comment that stands at the end of a line is loud if it shows in primitive notation. -/
theorem isLoud_of_differs (hend : IsLineEnd before rest) (hcomment : IsComment note)
    (hplain : ¬ HasComment (before ++ rest))
    (hdiffers : toPrimitive (before ++ (note ++ rest)) ≠ toPrimitive (before ++ rest)) :
    IsLoud before note rest where
  commented := .append_left before (.comment hend hcomment trivial rfl (.refl _ _))
  plain := hplain
  differs := hdiffers

/-- A comment makes a difference on a control line, on an empty line that a continued one takes in,
with a backslash at its end, with a brace that closes a substitution around it, and with a
substitution that is closed after it. -/
theorem comments_show :
    IsLoud "% if x:".toList " #! c".toList "\n".toList ∧
      IsLoud "a\\\n".toList " #! c".toList "\nb".toList ∧
      IsLoud "a".toList " #! c\\".toList "\nb".toList ∧
      IsLoud "$\x7bf(".toList " #! \x7d".toList "\n1)\x7d".toList ∧
      IsLoud "a".toList " #! $\x7bc".toList "\n\x7d".toList := by
  refine ⟨?_, ?_, ?_, ?_, ?_⟩
  all_goals
    exact isLoud_of_differs (by decide +kernel) (by decide +kernel)
      (by decide +kernel : ¬ ['#', '!'] <:+: _) (by decide +kernel)

end DsdlHeaders.Template.Extended

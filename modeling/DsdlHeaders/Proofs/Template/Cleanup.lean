import DsdlHeaders.Proofs.Template.Shorthand

/-!
# The rules that clean up

After the shorthand is resolved, three rules clean up: block ends lose the name of their block,
comments go, and a line break is put after every tag that opens a macro. Each of them settles at
once what it is about, and what one of them settled the later ones leave settled:

* **Block ends**: no end tag names its block after `closeBlocks` (`not_hasBlockEnd_closeBlocks`),
  and neither of the other two rules makes one.
* **Comments**: no comment is left after `dropComments` (`not_hasComment_dropComments`). What a
  comment leaves behind is a line break or the end of the text, so nothing that lies inside a line
  is put together from both sides of a comment (`infix_of_comments`).
* **Macros**: after `spaceBodies` a line break follows every tag that opens a macro
  (`spaced_spaceBodies`). Parameters hold no closing parenthesis, so a tag that starts inside
  another one ends with it.
-/

namespace DsdlHeaders.Template.Extended

open Text

variable {s t w tag : List Char} {prev : Option Char} {found : Replacement}

/-! ## Block ends -/

/-- An end tag that names its block. -/
def IsBlockEnd (w : List Char) : Prop :=
  ∃ name, w = tagOpen ++ endWord ++ (name ++ tagClose) ∧ name ≠ [] ∧
    ∀ c ∈ name, isBlockLetter c = true

/-- Somewhere an end tag names its block. -/
def HasBlockEnd (s : List Char) : Prop :=
  ∃ w, IsBlockEnd w ∧ w <:+: s

/-- What the rule for block ends matches. -/
theorem blockEndRule_eq_some_iff : blockEndRule prev s = some found ↔
    ∃ name rest, s = tagOpen ++ endWord ++ (name ++ (tagClose ++ rest)) ∧ name ≠ [] ∧
      (∀ c ∈ name, isBlockLetter c = true) ∧
        found = ⟨tagOpen ++ endWord ++ tagClose, name.length + 11⟩ := by
  unfold blockEndRule
  constructor
  · intro h
    split at h
    · exact absurd h (by simp)
    · rename_i rest hrest
      simp only at h
      split at h
      · exact absurd h (by simp)
      · rename_i hname
        simp only [Bool.or_eq_true, decide_eq_true_eq, Bool.not_eq_true', not_or,
          Bool.not_eq_false, startsWith_iff] at hname
        obtain ⟨hne, ⟨after, hafter⟩⟩ := hname
        refine ⟨rest.takeWhile isBlockLetter, after, ?_, hne,
          fun c hc => List.mem_takeWhile_imp hc, (Option.some.inj h).symm⟩
        rw [after?_eq_some_iff.mp hrest, hafter, List.takeWhile_append_dropWhile]
  · rintro ⟨name, rest, rfl, hne, hname, rfl⟩
    have hclose : isBlockLetter ')' = false := by decide
    have htake : (name ++ (tagClose ++ rest)).takeWhile isBlockLetter = name := by
      rw [List.takeWhile_append_of_pos hname]
      simp [tagClose, hclose]
    have hdrop : (name ++ (tagClose ++ rest)).dropWhile isBlockLetter = tagClose ++ rest := by
      rw [List.dropWhile_append_of_pos hname]
      simp [tagClose, hclose]
    have hstarts : startsWith tagClose (tagClose ++ rest) = true :=
      startsWith_iff.mpr (List.prefix_append _ _)
    rw [after?_append]
    simp [htake, hdrop, hstarts, hne]

/-- The text that the rule for block ends takes, and what it leaves. -/
theorem exists_name_of_blockEnd {matched : List Char}
    (h : blockEndRule prev (matched ++ s) = some found)
    (hlength : matched.length = found.extra + 1) :
    ∃ name, matched = tagOpen ++ endWord ++ (name ++ tagClose) ∧ name ≠ [] ∧
      (∀ c ∈ name, isBlockLetter c = true) ∧
        found = ⟨tagOpen ++ endWord ++ tagClose, name.length + 11⟩ := by
  obtain ⟨name, rest, hs, hne, hname, rfl⟩ := blockEndRule_eq_some_iff.mp h
  have hsplit : matched ++ s = (tagOpen ++ endWord ++ (name ++ tagClose)) ++ rest := by
    rw [hs]
    simp
  obtain ⟨rfl, -⟩ := List.append_inj hsplit (by simp [hlength, tagOpen, endWord, tagClose])
  exact ⟨name, rfl, hne, hname, rfl⟩

/-- A block end reaches at most to the end of the text. -/
theorem blockEndRule_bounded : Rule.Bounded blockEndRule := by
  intro prev c s found h
  obtain ⟨name, rest, hs, -, -, rfl⟩ := blockEndRule_eq_some_iff.mp h
  have hlength := congrArg List.length hs
  simp only [List.length_cons, List.length_append, tagOpen, endWord, tagClose, List.length_nil]
    at hlength
  show name.length + 11 ≤ s.length
  omega

/-- A block end takes the letters of a name away. -/
theorem blockEndRule_spends : Rule.Spends isSpent blockEndRule := by
  intro prev matched s found h hlength
  obtain ⟨name, rfl, hne, hname, rfl⟩ := exists_name_of_blockEnd h hlength
  have hall : name.countP isSpent = name.length := by
    refine List.countP_eq_length.mpr fun c hc => ?_
    simp [isSpent, hname c hc]
  have hpos := List.length_pos_iff.mpr hne
  simp only [List.countP_append, hall]
  omega

/-- A block end in front of a text is a match. -/
theorem blockEndRule_ne_none (hw : IsBlockEnd w) (h : w <+: s) : blockEndRule prev s ≠ none := by
  obtain ⟨name, rfl, hne, hname⟩ := hw
  obtain ⟨rest, rfl⟩ := h
  have hsource : tagOpen ++ endWord ++ (name ++ tagClose) ++ rest =
      tagOpen ++ endWord ++ (name ++ (tagClose ++ rest)) := by simp
  rw [blockEndRule_eq_some_iff.mpr ⟨name, rest, hsource, hne, hname, rfl⟩]
  simp

/-- A text without block ends stays as it is. -/
theorem closeBlocks_of_not_hasBlockEnd (h : ¬ HasBlockEnd s) : closeBlocks s = s := by
  refine (replaceMatches_eq_self_iff blockEndRule_bounded blockEndRule_spends).mpr ?_
  rw [noMatch_iff]
  intro before c after hs
  rw [Option.eq_none_iff_forall_ne_some]
  intro found hfound
  obtain ⟨name, rest, hc, hne, hname, -⟩ := blockEndRule_eq_some_iff.mp hfound
  refine h ⟨_, ⟨name, rfl, hne, hname⟩, before, rest, ?_⟩
  rw [hs, hc]
  simp

/-- A block end starts with the only angle bracket that opens in it. -/
theorem IsBlockEnd.eq_cons (h : IsBlockEnd w) : ∃ rest, w = '<' :: rest ∧ '<' ∉ rest := by
  obtain ⟨name, rfl, -, hname⟩ := h
  refine ⟨_, rfl, ?_⟩
  have hnot : '<' ∉ name := fun hmem => absurd (hname _ hmem) (by decide)
  simp [endWord, tagClose, hnot]

/-- A block end lies inside a line. -/
theorem IsBlockEnd.isInLine (h : IsBlockEnd w) : ∀ c ∈ w, isInLine c = true := by
  obtain ⟨name, rfl, -, hname⟩ := h
  intro c hc
  simp only [List.mem_append] at hc
  rcases hc with (hc | hc) | hc | hc
  · exact List.all_eq_true.mp (by decide) c hc
  · exact List.all_eq_true.mp (by decide) c hc
  · have hletter := hname c hc
    unfold Extended.isInLine
    simp only [bne_iff_ne, ne_eq, Bool.and_eq_true]
    constructor <;> rintro rfl <;> exact absurd hletter (by decide)
  · exact List.all_eq_true.mp (by decide) c hc

/-- The generic end tag is no block end that names its block. -/
theorem IsBlockEnd.not_generic (h : IsBlockEnd w) (rest : List Char) :
    ¬ w <+: tagOpen ++ endWord ++ tagClose ++ rest := by
  obtain ⟨name, rfl, hne, hname⟩ := h
  rintro ⟨after, hafter⟩
  cases name with
  | nil => exact hne rfl
  | cons c name =>
    simp only [List.append_assoc] at hafter
    have hafter := List.append_cancel_left (List.append_cancel_left hafter)
    obtain ⟨rfl, -⟩ := List.cons.inj hafter
    exact absurd (hname ')' (by simp)) (by decide)

/-- What the rule for block ends leaves starts with an angle bracket. -/
theorem blockEndRule_traces : Rule.Traces blockEndRule (· ≠ '<') := by
  refine .of_head fun prev s found hfound => ?_
  obtain ⟨name, rest, -, -, -, rfl⟩ := blockEndRule_eq_some_iff.mp hfound
  exact ⟨'<', _, rfl, not_not_intro rfl⟩

/-- No end tag names its block after the walk. -/
theorem not_hasBlockEnd_of_scans (h : Scans blockEndRule prev s t) : ¬ HasBlockEnd t := by
  rintro ⟨w, hw, hinfix⟩
  obtain ⟨inner, rfl, hinner⟩ := hw.eq_cons
  refine h.not_infix_of_traces (fun prev s => blockEndRule_ne_none hw) blockEndRule_traces
    (fun d hd hopen => hinner (hopen ▸ hd)) (fun prev matched s found t hfound _ hlies => ?_) hinfix
  obtain ⟨name, rest, -, -, -, rfl⟩ := blockEndRule_eq_some_iff.mp hfound
  rcases List.infix_cons_iff.mp hlies with hfront | hlater
  · exact absurd hfront (hw.not_generic _)
  · exact infix_of_infix_append hlater (by decide)

/-- No end tag names its block once blocks are closed. -/
theorem not_hasBlockEnd_closeBlocks (s : List Char) : ¬ HasBlockEnd (closeBlocks s) :=
  not_hasBlockEnd_of_scans (scans_replaceMatches blockEndRule_bounded s)

/-- Closing blocks changes exactly the texts with a block end. -/
theorem closeBlocks_eq_self_iff : closeBlocks s = s ↔ ¬ HasBlockEnd s := by
  constructor
  · intro h
    rw [← h]
    exact not_hasBlockEnd_closeBlocks s
  · exact closeBlocks_of_not_hasBlockEnd

/-! ## Comments -/

/-- There is a comment somewhere. -/
def HasComment (s : List Char) : Prop :=
  ['#', '!'] <:+: s

/-- What the rule for comments matches: indentation, the mark and the rest of the line. -/
theorem commentRule_eq_some (h : commentRule prev s = some found) :
    ∃ lead comment rest, s = lead ++ '#' :: '!' :: (comment ++ rest) ∧
      (∀ c ∈ rest.head?, isInLine c = false) ∧
        found = ⟨[], lead.length + comment.length + 1⟩ := by
  unfold commentRule at h
  simp only at h
  split at h
  · rename_i hstarts
    obtain ⟨after, hafter⟩ := startsWith_iff.mp hstarts
    have htail : (s.dropWhile isIndent).takeWhile isInLine =
        '#' :: '!' :: after.takeWhile isInLine := by
      rw [← hafter]
      have hhash : isInLine '#' = true := by decide
      have hbang : isInLine '!' = true := by decide
      simp [hhash, hbang]
    refine ⟨s.takeWhile isIndent, after.takeWhile isInLine, after.dropWhile isInLine, ?_, ?_, ?_⟩
    · rw [List.takeWhile_append_dropWhile]
      calc s = s.takeWhile isIndent ++ s.dropWhile isIndent :=
            (List.takeWhile_append_dropWhile).symm
        _ = s.takeWhile isIndent ++ '#' :: '!' :: after := by rw [← hafter]; rfl
    · intro c hc
      have hnot := List.head?_dropWhile_not isInLine after
      rw [hc] at hnot
      exact hnot
    · rw [← Option.some.inj h, htail]
      simp only [List.length_cons, Replacement.mk.injEq, true_and]
      omega
  · exact absurd h (by simp)

/-- The mark of a comment in front of a text is a match. -/
theorem commentRule_ne_none (h : ['#', '!'] <+: s) : commentRule prev s ≠ none := by
  obtain ⟨rest, rfl⟩ := h
  have hindent : isIndent '#' = false := by decide
  have hstarts : startsWith ['#', '!'] ('#' :: '!' :: rest) = true :=
    startsWith_iff.mpr ⟨rest, rfl⟩
  simp [commentRule, hindent, hstarts]

/-- A comment reaches at most to the end of the text. -/
theorem commentRule_bounded : Rule.Bounded commentRule := by
  intro prev c s found h
  obtain ⟨lead, comment, rest, hs, -, rfl⟩ := commentRule_eq_some h
  have hlength := congrArg List.length hs
  simp only [List.length_cons, List.length_append] at hlength
  show lead.length + comment.length + 1 ≤ s.length
  omega

/-- What a match of the rule for comments leaves. -/
theorem eq_of_comment {matched : List Char} (h : commentRule prev (matched ++ s) = some found)
    (hlength : matched.length = found.extra + 1) :
    found.text = [] ∧ '#' ∈ matched ∧ ∀ c ∈ s.head?, isInLine c = false := by
  obtain ⟨lead, comment, rest, hs, hrest, rfl⟩ := commentRule_eq_some h
  have hfront : matched ++ s = (lead ++ '#' :: '!' :: comment) ++ rest := by
    rw [hs]
    simp
  have hsame : matched.length = (lead ++ '#' :: '!' :: comment).length := by
    simp only [hlength, List.length_append, List.length_cons]
    omega
  obtain ⟨rfl, rfl⟩ := List.append_inj hfront hsame
  exact ⟨rfl, by simp, hrest⟩

/-- A comment takes a hash sign away. -/
theorem commentRule_spends : Rule.Spends isSpent commentRule := by
  intro prev matched s found h hlength
  obtain ⟨htext, hhash, -⟩ := eq_of_comment h hlength
  rw [htext, List.countP_nil]
  exact List.countP_pos_iff.mpr ⟨'#', hhash, by decide⟩

/-- Nothing inside a line is put together across a comment. -/
theorem commentRule_traces : Rule.Traces commentRule (isInLine · = true) := by
  intro prev matched s found w t hfound hlength hline ih hw
  obtain ⟨htext, -, hhead⟩ := eq_of_comment hfound hlength
  rw [htext, List.nil_append] at hw
  -- the text after a comment starts with a line break, so nothing of `w` can stand there
  cases w with
  | nil => exact List.nil_prefix
  | cons c w =>
    obtain ⟨rest, rfl⟩ := ih hw
    have hbreak := hhead c (by simp)
    rw [hline c List.mem_cons_self] at hbreak
    exact absurd hbreak (by simp)

/-- What lies inside a line of the result lies inside a line of the source. -/
theorem infix_of_comments (h : Scans commentRule prev s t) (hw : w <:+: t)
    (hline : ∀ c ∈ w, isInLine c = true) : w <:+: s := by
  refine h.infix_of_result commentRule_traces hline ?_ hw
  intro prev matched s found t hfound hlength ih hlies
  obtain ⟨htext, -, -⟩ := eq_of_comment hfound hlength
  rw [htext, List.nil_append] at hlies
  exact (ih hlies).trans (List.suffix_append _ _).isInfix

/-- No comment is left after the walk. -/
theorem not_hasComment_of_scans (h : Scans commentRule prev s t) : ¬ HasComment t := by
  refine h.not_infix_of_traces (fun prev s => commentRule_ne_none) commentRule_traces
    (List.all_eq_true.mp (by decide)) fun prev matched s found t hfound hlength hlies => ?_
  obtain ⟨htext, -, -⟩ := eq_of_comment hfound hlength
  rwa [htext, List.nil_append] at hlies

/-- No comment is left once comments are dropped. -/
theorem not_hasComment_dropComments (s : List Char) : ¬ HasComment (dropComments s) :=
  not_hasComment_of_scans (scans_replaceMatches commentRule_bounded s)

/-- A text without comments stays as it is. -/
theorem dropComments_of_not_hasComment (h : ¬ HasComment s) : dropComments s = s := by
  refine (replaceMatches_eq_self_iff commentRule_bounded commentRule_spends).mpr ?_
  rw [noMatch_iff]
  intro before c after hs
  rw [Option.eq_none_iff_forall_ne_some]
  intro found hfound
  obtain ⟨lead, comment, rest, hc, -, -⟩ := commentRule_eq_some hfound
  refine h ⟨before ++ lead, comment ++ rest, ?_⟩
  rw [hs, hc]
  simp

/-- Dropping comments changes exactly the texts with a comment. -/
theorem dropComments_eq_self_iff : dropComments s = s ↔ ¬ HasComment s := by
  constructor
  · intro h
    rw [← h]
    exact not_hasComment_dropComments s
  · exact dropComments_of_not_hasComment

/-- Dropping comments makes no block end. -/
theorem not_hasBlockEnd_dropComments (h : ¬ HasBlockEnd s) : ¬ HasBlockEnd (dropComments s) := by
  rintro ⟨w, hw, hinfix⟩
  have hscan := scans_replaceMatches commentRule_bounded s
  exact h ⟨w, hw, infix_of_comments hscan hinfix hw.isInLine⟩

/-! ## Macros -/

/-- A list of parameters between parentheses, or nothing. -/
def IsParameters (parameters : List Char) : Prop :=
  parameters = [] ∨ ∃ inner, parameters = '(' :: (inner ++ [')']) ∧
    ∀ c ∈ inner, c ≠ ')' ∧ isInLine c = true

/-- A tag that opens a macro. -/
def IsBodyOpener (tag : List Char) : Prop :=
  ∃ name parameters, tag = tagOpen ++ definitionWord ++ (name ++ (parameters ++ tagClose)) ∧
    name ≠ [] ∧ (∀ c ∈ name, isNamePart c = true) ∧ IsParameters parameters

/-- The line breaks that may follow a tag. -/
def IsLineBreak (ending : List Char) : Prop :=
  ending = ['\n'] ∨ ending = ['\r', '\n']

/-- A line break follows every tag that opens a macro. -/
def Spaced (s : List Char) : Prop :=
  ∀ before tag rest, s = before ++ (tag ++ rest) → IsBodyOpener tag →
    ∃ ending, IsLineBreak ending ∧ ending <+: rest

/-- A parameter list as it is read. -/
theorem parameterList?_eq_some {parameters rest : List Char}
    (h : parameterList? s = some (parameters, rest)) :
    s = parameters ++ rest ∧ IsParameters parameters := by
  unfold parameterList? at h
  split at h
  · rename_i inner
    simp only at h
    split at h
    · rename_i after hafter
      obtain ⟨rfl, rfl⟩ := Prod.mk.inj (Option.some.inj h)
      refine ⟨?_, .inr ⟨_, rfl, fun c hc => ?_⟩⟩
      · simp only [List.cons_append, List.append_assoc, List.cons.injEq, true_and]
        rw [List.nil_append, ← hafter, List.takeWhile_append_dropWhile]
      · have hparameter := List.mem_takeWhile_imp hc
        simpa using hparameter
    · exact absurd h (by simp)
  · obtain ⟨rfl, rfl⟩ := Prod.mk.inj (Option.some.inj h)
    exact ⟨rfl, .inl rfl⟩

/-- A parameter list before the end of a tag is read. -/
theorem parameterList?_append {parameters : List Char} (h : IsParameters parameters)
    (rest : List Char) :
    parameterList? (parameters ++ (tagClose ++ rest)) = some (parameters, tagClose ++ rest) := by
  rcases h with rfl | ⟨inner, rfl, hinner⟩
  · rfl
  · have hall : ∀ c ∈ inner, (c != ')' && isInLine c) = true := by simpa using hinner
    have hdrop : (inner ++ ')' :: (tagClose ++ rest)).dropWhile
        (fun c => c != ')' && isInLine c) = ')' :: (tagClose ++ rest) := by
      rw [List.dropWhile_append_of_pos hall]
      simp
    have htake : (inner ++ ')' :: (tagClose ++ rest)).takeWhile
        (fun c => c != ')' && isInLine c) = inner := by
      rw [List.takeWhile_append_of_pos hall]
      simp
    simp [parameterList?, hdrop, htake]

/-- The tags that open a macro are those that are read as such. -/
theorem bodyOpener?_eq_some_iff {rest : List Char} :
    bodyOpener? s = some (tag, rest) ↔ s = tag ++ rest ∧ IsBodyOpener tag := by
  unfold bodyOpener?
  simp only [Option.bind_eq_bind, Option.bind_eq_some_iff]
  constructor
  · rintro ⟨inner, hinner, h⟩
    split at h
    · exact absurd h (by simp)
    · rename_i hname
      simp only [Option.bind_eq_some_iff] at h
      obtain ⟨⟨parameters, later⟩, hparameters, after, hafter, hresult⟩ := h
      obtain ⟨rfl, rfl⟩ := Prod.mk.inj (Option.some.inj hresult)
      obtain ⟨hdrop, hlist⟩ := parameterList?_eq_some hparameters
      refine ⟨?_, _, parameters, by simp, hname, fun c hc => List.mem_takeWhile_imp hc, hlist⟩
      have hlater := after?_eq_some_iff.mp hafter
      simp only at hlater
      rw [after?_eq_some_iff.mp hinner]
      have hsplit : inner = inner.takeWhile isNamePart ++ (parameters ++ (tagClose ++ after)) := by
        rw [← hlater, ← hdrop, List.takeWhile_append_dropWhile]
      simp only [List.append_assoc]
      rw [← hsplit]
  · rintro ⟨rfl, name, parameters, rfl, hne, hname, hparameters⟩
    refine ⟨name ++ (parameters ++ (tagClose ++ rest)), after?_eq_some_iff.mpr (by simp), ?_⟩
    have hstop : ∀ tail, ((parameters ++ (tagClose ++ tail)).takeWhile isNamePart = []) ∧
        (parameters ++ (tagClose ++ tail)).dropWhile isNamePart =
          parameters ++ (tagClose ++ tail) := by
      intro tail
      rcases hparameters with rfl | ⟨inner, rfl, -⟩
      · exact ⟨rfl, rfl⟩
      · exact ⟨rfl, rfl⟩
    have htake : (name ++ (parameters ++ (tagClose ++ rest))).takeWhile isNamePart = name := by
      rw [List.takeWhile_append_of_pos hname, (hstop rest).1, List.append_nil]
    have hdrop : (name ++ (parameters ++ (tagClose ++ rest))).dropWhile isNamePart =
        parameters ++ (tagClose ++ rest) := by
      rw [List.dropWhile_append_of_pos hname, (hstop rest).2]
    rw [htake, hdrop, if_neg hne, parameterList?_append hparameters]
    simp

/-- What the rule for macros matches: a tag that opens a macro, with its line break if there is
one. -/
theorem bodyRule_eq_some (h : bodyRule prev s = some found) :
    ∃ tag ending rest, IsBodyOpener tag ∧ IsLineBreak ending ∧ found.text = tag ++ ending ∧
      s = tag ++ rest ∧
        (ending <+: rest ∧ found.extra + 1 = tag.length + ending.length ∨
          ending = ['\n'] ∧ found.extra + 1 = tag.length) := by
  unfold bodyRule at h
  split at h
  · exact absurd h (by simp)
  · rename_i tag rest hopener
    obtain ⟨hs, htag⟩ := bodyOpener?_eq_some_iff.mp hopener
    obtain rfl := Option.some.inj h
    exact ⟨tag, ['\n'], _, htag, .inl rfl, rfl, hs, .inl ⟨⟨rest, rfl⟩, rfl⟩⟩
  · rename_i tag rest hopener
    obtain ⟨hs, htag⟩ := bodyOpener?_eq_some_iff.mp hopener
    obtain rfl := Option.some.inj h
    exact ⟨tag, ['\r', '\n'], _, htag, .inr rfl, rfl, hs, .inl ⟨⟨rest, rfl⟩, rfl⟩⟩
  · rename_i tag rest _ _ hopener
    obtain ⟨hs, htag⟩ := bodyOpener?_eq_some_iff.mp hopener
    obtain rfl := Option.some.inj h
    have hpos : 0 < tag.length := by
      obtain ⟨name, parameters, rfl, -, -, -⟩ := htag
      simp [tagOpen]
    refine ⟨tag, ['\n'], rest, htag, .inl rfl, rfl, hs, .inr ⟨rfl, ?_⟩⟩
    show tag.length - 1 + 1 = tag.length
    omega

/-- A tag that opens a macro in front of a text is a match. -/
theorem bodyRule_ne_none (htag : IsBodyOpener tag) (h : tag <+: s) : bodyRule prev s ≠ none := by
  obtain ⟨rest, rfl⟩ := h
  have hopener : bodyOpener? (tag ++ rest) = some (tag, rest) :=
    bodyOpener?_eq_some_iff.mpr ⟨rfl, htag⟩
  unfold bodyRule
  rw [hopener]
  split <;> simp_all

/-- A tag that opens a macro lies inside a line. -/
theorem IsBodyOpener.isInLine (h : IsBodyOpener tag) : ∀ c ∈ tag, isInLine c = true := by
  obtain ⟨name, parameters, rfl, -, hname, hparameters⟩ := h
  intro c hc
  simp only [List.mem_append] at hc
  rcases hc with (hc | hc) | hc | hc | hc
  · exact List.all_eq_true.mp (by decide) c hc
  · exact List.all_eq_true.mp (by decide) c hc
  · have hpart := hname c hc
    unfold Extended.isInLine
    simp only [bne_iff_ne, ne_eq, Bool.and_eq_true]
    constructor <;> rintro rfl <;> exact absurd hpart (by decide)
  · rcases hparameters with rfl | ⟨inner, rfl, hinner⟩
    · exact absurd hc (by simp)
    · simp only [List.mem_cons, List.mem_append, List.not_mem_nil, or_false] at hc
      rcases hc with rfl | hc | rfl
      · rfl
      · exact (hinner c hc).2
      · rfl
  · exact List.all_eq_true.mp (by decide) c hc

/-- A macro tag takes no weight away and adds none. -/
theorem bodyRule_keeps : Rule.Keeps isSpent bodyRule := by
  intro prev matched s found h hlength
  obtain ⟨tag, ending, rest, -, hending, htext, hs, hmatch⟩ := bodyRule_eq_some h
  have hweight : ending.countP isSpent = 0 := by
    rcases hending with rfl | rfl <;> decide
  have hle : tag.length ≤ matched.length := by
    rcases hmatch with ⟨-, hextra⟩ | ⟨-, hextra⟩ <;> omega
  obtain ⟨later, rfl⟩ := List.prefix_of_prefix_length_le ⟨rest, hs.symm⟩ ⟨s, rfl⟩ hle
  rw [htext, List.countP_append, List.countP_append, hweight]
  omega

/-- A macro tag reaches at most to the end of the text. -/
theorem bodyRule_bounded : Rule.Bounded bodyRule := by
  intro prev c s found h
  obtain ⟨tag, ending, rest, -, -, -, hs, hmatch⟩ := bodyRule_eq_some h
  have hlength := congrArg List.length hs
  rw [List.length_cons, List.length_append] at hlength
  rcases hmatch with ⟨hinitial, hextra⟩ | ⟨-, hextra⟩
  · have hle := hinitial.length_le
    omega
  · omega

/-- What holds no line feed is put together nowhere: the line feed that is put in ends what comes
from the source. -/
theorem bodyRule_traces : Rule.Traces bodyRule (· ≠ '\n') := by
  intro prev matched s found w t hfound _ hfeed _ hw
  obtain ⟨tag, ending, rest, -, hending, htext, hs, hmatch⟩ := bodyRule_eq_some hfound
  have hnot : '\n' ∉ w := fun hmem => hfeed _ hmem rfl
  rw [htext, List.append_assoc] at hw
  rw [hs]
  rcases hending with rfl | rfl
  · exact (prefix_of_prefix_append_cons hw hnot).trans (List.prefix_append _ _)
  · obtain ⟨⟨later, rfl⟩, -⟩ | ⟨hending, -⟩ := hmatch
    · have hfront : w <+: tag ++ ['\r'] :=
        prefix_of_prefix_append_cons (d := '\n') (by simpa using hw) hnot
      exact hfront.trans ⟨'\n' :: later, by simp⟩
    · exact absurd hending (by simp)

/-- What holds no line feed and lies in the result lies in the source. -/
theorem infix_of_bodies (h : Scans bodyRule prev s t) (hw : w <:+: t) (hfeed : '\n' ∉ w) :
    w <:+: s := by
  refine h.infix_of_result bodyRule_traces (fun c hc heq => hfeed (heq ▸ hc)) ?_ hw
  intro prev matched s found t hfound _ ih hlies
  obtain ⟨tag, ending, rest, -, hending, htext, hs, hmatch⟩ := bodyRule_eq_some hfound
  -- the replacement ends with its only line feed, so `w` lies before or after it
  obtain ⟨front, hfront, hsource⟩ : ∃ front, tag ++ ending = front ++ ['\n'] ∧
      front <+: tag ++ rest := by
    rcases hending with rfl | rfl
    · exact ⟨tag, rfl, List.prefix_append _ _⟩
    · obtain ⟨⟨later, rfl⟩, -⟩ | ⟨hending, -⟩ := hmatch
      · exact ⟨tag ++ ['\r'], by simp, ⟨'\n' :: later, by simp⟩⟩
      · exact absurd hending (by simp)
  rw [htext, hfront, List.append_assoc] at hlies
  rcases infix_or_infix_of_infix_append_cons hlies hfeed with hbefore | hafter
  · rw [hs]
    exact hbefore.trans hsource.isInfix
  · exact (ih hafter).trans (List.suffix_append _ _).isInfix

/-- A tag that opens a macro ends where it first says so. -/
theorem IsBodyOpener.eq_nil_of_close {before after : List Char} (h : IsBodyOpener tag)
    (htag : tag = before ++ (tagClose ++ after)) : after = [] := by
  obtain ⟨name, parameters, rfl, -, hname, hparameters⟩ := h
  have hnot : ')' ∉ tagOpen ++ definitionWord ++ name := by
    have hnotName : ')' ∉ name := fun hmem => absurd (hname _ hmem) (by decide)
    simp [tagOpen, definitionWord, hnotName]
  -- without its closing mark the tag holds no closing parenthesis, or ends with the only one
  obtain ⟨front, tail, hfront, htail, hsplit⟩ : ∃ front tail,
      tagOpen ++ definitionWord ++ (name ++ (parameters ++ tagClose)) = front ++ ')' :: tail ∧
        (tail = ['-', '-', '>'] ∨ tail = ')' :: ['-', '-', '>']) ∧ ')' ∉ front := by
    rcases hparameters with rfl | ⟨inner, rfl, hinner⟩
    · exact ⟨_, ['-', '-', '>'], by simp [tagClose], .inl rfl, hnot⟩
    · refine ⟨tagOpen ++ definitionWord ++ name ++ '(' :: inner, ')' :: ['-', '-', '>'],
        by simp [tagClose], .inr rfl, ?_⟩
      have hnotInner : ')' ∉ inner := fun hmem => (hinner _ hmem).1 rfl
      simpa [hnotInner] using hnot
  rw [hfront] at htag
  have hbefore : front <+: before := by
    have hle : front.length ≤ before.length := by
      by_contra hlt
      have hinside : before ++ [')'] <+: front ++ ')' :: tail :=
        ⟨['-', '-', '>'] ++ after, by rw [htag]; simp [tagClose]⟩
      have hinitial := List.prefix_of_prefix_length_le hinside
        (List.prefix_append front (')' :: tail)) (by simp; omega)
      exact hsplit (hinitial.subset (by simp))
    exact List.prefix_of_prefix_length_le ⟨')' :: tail, rfl⟩
      ⟨tagClose ++ after, htag.symm⟩ hle
  obtain ⟨middle, rfl⟩ := hbefore
  rw [List.append_assoc] at htag
  have hrest := List.append_cancel_left htag
  rcases htail with rfl | rfl
  · cases middle with
    | nil =>
      have hlength := congrArg List.length hrest
      simp only [tagClose, List.length_cons, List.length_append, List.length_nil] at hlength
      exact List.length_eq_zero_iff.mp (by omega)
    | cons c middle =>
      have hlength := congrArg List.length hrest
      simp only [tagClose, List.length_cons, List.length_append, List.length_nil] at hlength
      omega
  · cases middle with
    | nil => exact absurd hrest (by simp [tagClose])
    | cons c middle =>
      have hlength := congrArg List.length hrest
      simp only [tagClose, List.length_cons, List.length_append, List.length_nil] at hlength
      exact List.length_eq_zero_iff.mp (by omega)

/-- A tag that opens a macro and starts inside another one, with a line break behind it, ends with
it. -/
theorem IsBodyOpener.eq_of_inside {before middle ending rest : List Char} (htag : IsBodyOpener tag)
    (hfirst : IsBodyOpener (before ++ middle)) (hending : IsLineBreak ending)
    (h : tag ++ rest = middle ++ (ending ++ t)) : tag = middle := by
  obtain ⟨d, later, rfl, hd⟩ : ∃ d later, ending = d :: later ∧ Extended.isInLine d = false := by
    rcases hending with rfl | rfl
    · exact ⟨'\n', [], rfl, by decide⟩
    · exact ⟨'\r', ['\n'], rfl, by decide⟩
  have hfront : tag <+: middle := by
    refine prefix_of_prefix_append_cons (d := d) (t := later ++ t) ⟨rest, h⟩ fun hmem => ?_
    have hline := htag.isInLine d hmem
    rw [hd] at hline
    exact absurd hline (by simp)
  obtain ⟨beyond, rfl⟩ := hfront
  obtain ⟨init, rfl⟩ : ∃ init, tag = init ++ tagClose := by
    obtain ⟨name, parameters, rfl, -⟩ := htag
    exact ⟨tagOpen ++ definitionWord ++ (name ++ parameters), by simp⟩
  -- the closing mark of the tag closes the first one as well
  have htwice : before ++ (init ++ tagClose ++ beyond) =
      (before ++ init) ++ (tagClose ++ beyond) := by simp
  rw [hfirst.eq_nil_of_close htwice, List.append_nil]

/-- A line break follows every tag that opens a macro after the walk. -/
theorem spaced_of_scans (h : Scans bodyRule prev s t) : Spaced t := by
  induction h with
  | done =>
    rintro before tag rest hs ⟨name, parameters, rfl, -⟩
    exact absurd hs (by simp [tagOpen])
  | @keep prev c s t hnone hrest ih =>
    intro before tag rest hs htag
    cases before with
    | nil =>
      have hfeed : ∀ d ∈ tag, d ≠ '\n' := by
        rintro _ hmem rfl
        exact absurd (htag.isInLine _ hmem) (by decide)
      have hsource : tag <+: c :: s :=
        Scans.prefix_of_result (.keep hnone hrest) bodyRule_traces hfeed ⟨rest, hs.symm⟩
      exact absurd hnone (bodyRule_ne_none htag hsource)
    | cons d before =>
      obtain ⟨-, rfl⟩ := List.cons.inj hs
      exact ih before tag rest rfl htag
  | @replace prev found matched s t hfound _ hrest ih =>
    obtain ⟨first, ending, after, hfirst, hending, htext, -, -⟩ := bodyRule_eq_some hfound
    intro before tag rest hs htag
    rw [htext, List.append_assoc] at hs
    rcases List.append_eq_append_iff.mp hs with ⟨middle, rfl, hmiddle⟩ | ⟨middle, rfl, hmiddle⟩
    · -- the tag starts after the first one, so it starts after the line break too
      rcases List.append_eq_append_iff.mp hmiddle with ⟨later, rfl, hlater⟩ | ⟨later, hend, hlater⟩
      · exact ih later tag rest hlater htag
      · cases later with
        | nil => exact ih [] tag rest hlater.symm htag
        | cons c later =>
          obtain ⟨name, parameters, rfl, -⟩ := htag
          have hc : c ∈ ending := by rw [hend]; simp
          obtain ⟨rfl, -⟩ := List.cons.inj hlater
          rcases hending with rfl | rfl <;> exact absurd hc (by decide)
    · obtain rfl := htag.eq_of_inside hfirst hending hmiddle
      exact ⟨ending, hending, t, (List.append_cancel_left hmiddle).symm⟩

/-- A line break follows every tag that opens a macro once bodies are spaced. -/
theorem spaced_spaceBodies (s : List Char) : Spaced (spaceBodies s) :=
  spaced_of_scans (scans_replaceMatches bodyRule_bounded s)

/-- In a spaced text every match of the rule for macros stands for itself. -/
theorem Spaced.idle (h : Spaced s) : Idle bodyRule prev s := by
  induction s generalizing prev with
  | nil => exact trivial
  | cons c s ih =>
    have htail : Spaced s := by
      intro before tag rest hs htag
      exact h (c :: before) tag rest (by rw [hs, List.cons_append]) htag
    refine ⟨fun found hfound => ?_, ih htail⟩
    unfold bodyRule at hfound
    split at hfound
    · exact absurd hfound (by simp)
    · rename_i tag rest hopener
      obtain ⟨hs, -⟩ := bodyOpener?_eq_some_iff.mp hopener
      obtain rfl := Option.some.inj hfound
      rw [hs, List.take_length_add_append]
      rfl
    · rename_i tag rest hopener
      obtain ⟨hs, -⟩ := bodyOpener?_eq_some_iff.mp hopener
      obtain rfl := Option.some.inj hfound
      rw [hs, Nat.add_assoc, List.take_length_add_append]
      rfl
    · rename_i tag rest hfeed hreturn hopener
      obtain ⟨hs, htag⟩ := bodyOpener?_eq_some_iff.mp hopener
      obtain ⟨ending, hending, later, rfl⟩ := h [] tag rest hs htag
      rcases hending with rfl | rfl
      · exact absurd rfl (hfeed later)
      · exact absurd rfl (hreturn later)

/-- A spaced text stays as it is. -/
theorem spaceBodies_of_spaced (h : Spaced s) : spaceBodies s = s :=
  replaceMatches_of_idle h.idle

/-- Spacing bodies changes exactly the texts in which a macro tag has no line break after it. -/
theorem spaceBodies_eq_self_iff : spaceBodies s = s ↔ Spaced s := by
  constructor
  · intro h
    rw [← h]
    exact spaced_spaceBodies s
  · exact spaceBodies_of_spaced

/-- Spacing bodies makes no block end. -/
theorem not_hasBlockEnd_spaceBodies (h : ¬ HasBlockEnd s) : ¬ HasBlockEnd (spaceBodies s) := by
  rintro ⟨w, hw, hinfix⟩
  have hfeed : '\n' ∉ w := fun hmem => absurd (hw.isInLine _ hmem) (by decide)
  exact h ⟨w, hw, infix_of_bodies (scans_replaceMatches bodyRule_bounded s) hinfix hfeed⟩

/-- Spacing bodies makes no comment. -/
theorem not_hasComment_spaceBodies (h : ¬ HasComment s) : ¬ HasComment (spaceBodies s) := fun hw =>
  h (infix_of_bodies (scans_replaceMatches bodyRule_bounded s) hw (by decide))

end DsdlHeaders.Template.Extended

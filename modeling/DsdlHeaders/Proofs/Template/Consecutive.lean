import DsdlHeaders.Proofs.Template.Lockstep
import DsdlHeaders.Proofs.Template.Markers
import DsdlHeaders.Proofs.Text.Boundaries

/-!
# Lowering templates one after the other

A primitive template that ends with a line feed and is lowered without an error leaves nothing
behind for the next one: no block is open, no line has begun, and no brace waits for its successor.
So the output of both is both outputs one after the other.

* **Segments.** What stands before the last line feed is never looked at again
  (`segmentsFrom_append_feed`). The segments of both templates are those of the first one, whose
  last text goes over into the first text of the second one (`goesOver_of_closed`).
* **Line numbers.** A template that starts further down has the same segments and the same pieces,
  with other line numbers (`segmentsFrom_movedBy`, `lowerFrom_movedBy`).
* **Pieces and texts.** Without open blocks the tags of the second template are read as if nothing
  stood before them (`lowerFrom_append`), and a line feed separates what is escaped
  (`renderText_append`).

Main statement: `lowered_append`.
-/

namespace DsdlHeaders.Template.Primitive

open Text Extended

variable {s pending rest : List Char} {fresh : Bool}

/-! ## Tags at the end of a template -/

/-- A tag is alone on its line or not, whatever stands before the line. -/
theorem aloneOnLine?_append_feed (fresh : Bool) (recent older rest : List Char) :
    aloneOnLine? fresh (recent ++ '\n' :: older) rest =
      (aloneOnLine? true recent rest).map fun around =>
        ((older.reverse ++ ['\n']) ++ around.1, around.2) := by
  have hbefore : (recent ++ '\n' :: older).dropWhile isPadding =
      recent.dropWhile isPadding ++ '\n' :: older := by
    rw [List.dropWhile_append, List.dropWhile_cons_of_neg (by decide)]
    cases recent.dropWhile isPadding <;> rfl
  have hstart : ((recent.dropWhile isPadding ++ '\n' :: older).head?.elim fresh (· == '\n')) =
      (recent.dropWhile isPadding).head?.elim true (· == '\n') := by
    cases recent.dropWhile isPadding <;> rfl
  rw [aloneOnLine?_eq, aloneOnLine?_eq, hbefore, hstart]
  split
  · cases rest.dropWhile isPadding with
    | nil => simp
    | cons c next =>
      by_cases hc : c = '\n' <;> simp [hc]
  · rfl

/-- A tag is alone on its line or not, whatever stands after the line. -/
theorem aloneOnLine?_append (hrest : rest.getLast? = some '\n') (more : List Char) :
    aloneOnLine? fresh pending (rest ++ more) =
      (aloneOnLine? fresh pending rest).map fun around => (around.1, around.2 ++ more) := by
  have hne : rest.dropWhile isPadding ≠ [] := fun hnil =>
    absurd (List.dropWhile_eq_nil_iff.mp hnil '\n' (List.mem_of_getLast? hrest)) (by decide)
  have hbehind : (rest ++ more).dropWhile isPadding = rest.dropWhile isPadding ++ more := by
    rw [List.dropWhile_append, if_neg (by simpa using hne)]
  rw [aloneOnLine?_eq, aloneOnLine?_eq, hbehind]
  split
  · cases hdrop : rest.dropWhile isPadding with
    | nil => exact absurd hdrop hne
    | cons c next => by_cases hc : c = '\n' <;> simp [hc]
  · rfl

/-! ## Segments -/

/-- The pending text ends before a substitution. -/
theorem segmentsFrom_of_substitution {line : Nat} {inner : List Char}
    {parts : List Char × List Char} (hsub : after? ['$', '!'] s = some inner)
    (hcut : cut? ['!', '$'] inner = some parts) :
    segmentsFrom line fresh pending s =
      .text pending.reverse :: .substitution line parts.1 ::
        segmentsFrom (line + lineFeeds parts.1) false [] parts.2 := by
  cases s with
  | nil => exact absurd hsub (by simp [after?])
  | cons c s =>
    rw [segmentsFrom_cons, hsub]
    simp only [hcut]

/-- The pending text ends before a tag, or where the line of the tag starts. -/
theorem segmentsFrom_of_tag {line : Nat} {inner : List Char} {parts : List Char × List Char}
    (hsub : after? ['$', '!'] s = none) (htag : after? tagOpen s = some inner)
    (hcut : cut? tagClose inner = some parts) :
    segmentsFrom line fresh pending s =
      (aloneOnLine? fresh pending parts.2).elim
        (.text pending.reverse :: .tag line parts.1 ::
          segmentsFrom (line + lineFeeds parts.1) false [] parts.2)
        fun around => .text around.1 :: .tag line parts.1 ::
          segmentsFrom (line + lineFeeds parts.1 + 1) true [] around.2 := by
  cases s with
  | nil => exact absurd htag (by simp [after?, tagOpen])
  | cons c s =>
    rw [segmentsFrom_cons, hsub, htag]
    simp only [hcut]
    cases aloneOnLine? fresh pending parts.2 <;> rfl

/-- A character at which no marker starts is added to the pending text. -/
theorem segmentsFrom_of_none {line : Nat} {c : Char} (hsub : after? ['$', '!'] (c :: s) = none)
    (htag : after? tagOpen (c :: s) = none) :
    segmentsFrom line fresh pending (c :: s) =
      segmentsFrom (line + lineFeeds [c]) fresh (c :: pending) s := by
  rw [segmentsFrom_cons, hsub, htag]

/-- Puts a text in front of segments that start with a text. -/
def prependText (lead : List Char) : List Segment → List Segment
  | .text s :: rest => .text (lead ++ s) :: rest
  | parts => parts

/-- Nothing in front changes nothing. -/
theorem prependText_nil (parts : List Segment) : prependText [] parts = parts := by
  unfold prependText
  split <;> rfl

/-- What stands before the last line feed of the pending text is not looked at again. -/
theorem segmentsFrom_append_feed (line : Nat) (fresh : Bool) (recent older s : List Char) :
    segmentsFrom line fresh (recent ++ '\n' :: older) s =
      prependText (older.reverse ++ ['\n']) (segmentsFrom line true recent s) := by
  induction s generalizing line recent with
  | nil =>
    rw [segmentsFrom, segmentsFrom]
    simp [prependText]
  | cons c s ih =>
    rw [segmentsFrom_cons, segmentsFrom_cons]
    split
    · split
      · rfl
      · simp [prependText]
    · split
      · split
        · rfl
        · rw [aloneOnLine?_append_feed]
          rename_i parts hcut
          cases aloneOnLine? true recent parts.2 <;> simp [prependText]
      · exact ih (line + lineFeeds [c]) (c :: recent)

/-- The same segment further down. -/
def Segment.movedBy (lines : Nat) : Segment → Segment
  | .text s => .text s
  | .substitution line body => .substitution (line + lines) body
  | .tag line content => .tag (line + lines) content
  | .broken line fault => .broken (line + lines) fault

/-- A text that starts further down has the same segments further down. -/
theorem segmentsFrom_movedBy (lines line : Nat) (fresh : Bool) (pending s : List Char) :
    segmentsFrom (line + lines) fresh pending s =
      (segmentsFrom line fresh pending s).map (Segment.movedBy lines) := by
  fun_induction segmentsFrom line fresh pending s with
  | case1 =>
    rw [segmentsFrom]
    rfl
  | case2 line fresh pending c s inner hsub hcut =>
    rw [segmentsFrom_cons]
    simp [hsub, hcut, Segment.movedBy]
  | case3 line fresh pending c s inner hsub parts hcut shorter ih =>
    rw [Nat.add_right_comm] at ih
    rw [segmentsFrom_of_substitution hsub hcut, ih]
    rfl
  | case4 line fresh pending c s hsub inner htag hcut =>
    rw [segmentsFrom_cons]
    simp [hsub, htag, hcut, Segment.movedBy]
  | case5 line fresh pending c s hsub inner htag parts hcut shorter around halone _ ih =>
    have hline : line + lines + lineFeeds parts.1 + 1 = line + lineFeeds parts.1 + 1 + lines := by
      omega
    rw [segmentsFrom_of_tag hsub htag hcut, halone, Option.elim_some, hline, ih]
    rfl
  | case6 line fresh pending c s hsub inner htag parts hcut shorter halone ih =>
    rw [Nat.add_right_comm] at ih
    rw [segmentsFrom_of_tag hsub htag hcut, halone, Option.elim_none, ih]
    rfl
  | case7 line fresh pending c s hsub htag ih =>
    rw [segmentsFrom_of_none hsub htag, Nat.add_right_comm, ih]

/-- Segments start with a text, unless there is only a marker that is never closed. -/
theorem segmentsFrom_eq_text_or_broken (line : Nat) (fresh : Bool) (pending s : List Char) :
    (∃ t parts, segmentsFrom line fresh pending s = .text t :: parts) ∨
      ∃ line' fault, segmentsFrom line fresh pending s = [.broken line' fault] := by
  induction s generalizing line pending with
  | nil =>
    rw [segmentsFrom]
    exact .inl ⟨_, _, rfl⟩
  | cons c s ih =>
    rw [segmentsFrom_cons]
    split
    · split
      · exact .inr ⟨_, _, rfl⟩
      · exact .inl ⟨_, _, rfl⟩
    · split
      · split
        · exact .inr ⟨_, _, rfl⟩
        · split
          · exact .inl ⟨_, _, rfl⟩
          · exact .inl ⟨_, _, rfl⟩
      · exact ih _ _

/-- A line starts after the text; `fresh` says whether one starts before it. -/
def StartsLine (fresh : Bool) (s : List Char) : Prop :=
  s.getLast?.elim (fresh = true) (· = '\n')

/-- A line starts after a line feed. -/
theorem startsLine_of_getLast? (h : s.getLast? = some '\n') : StartsLine fresh s := by
  unfold StartsLine
  rw [h]
  rfl

/-- Where a line starts after a text that goes on, the text ends with a line feed. -/
theorem StartsLine.getLast?_eq {c : Char} (h : StartsLine fresh (pending.reverse ++ c :: s)) :
    (c :: s).getLast? = some '\n' := by
  unfold StartsLine at h
  rw [List.getLast?_append_of_ne_nil _ (List.cons_ne_nil c s),
    List.getLast?_eq_some_getLast (List.cons_ne_nil c s)] at h
  rw [List.getLast?_eq_some_getLast (List.cons_ne_nil c s)]
  exact congrArg some h

/-- The segments of a text go over into those of any text after it: `front` is what ends with the
last marker, and `tail` is the literal text after that. -/
def GoesOver (line : Nat) (fresh : Bool) (pending s : List Char) : Prop :=
  ∃ front tail, StartsLine true tail ∧
    ∀ rest, segmentsFrom line fresh pending (s ++ rest) =
      front ++ prependText tail (segmentsFrom (line + lineFeeds s) true [] rest)

/-- Pending text after which a line starts goes over into any text. -/
theorem goesOver_nil {line : Nat} (h : StartsLine fresh pending.reverse) :
    GoesOver line fresh pending [] := by
  cases pending with
  | nil =>
    obtain rfl : fresh = true := h
    refine ⟨[], [], rfl, fun rest => ?_⟩
    rw [prependText_nil]
    rfl
  | cons c older =>
    obtain rfl : c = '\n' := by
      rw [List.reverse_cons] at h
      unfold StartsLine at h
      rwa [List.getLast?_concat] at h
    refine ⟨[], (older.reverse ++ ['\n']), startsLine_of_getLast? List.getLast?_concat,
      fun rest => ?_⟩
    exact segmentsFrom_append_feed line fresh [] older rest

/-- Segments in front of segments that go over. -/
theorem GoesOver.of_step {line line' : Nat} {fresh' : Bool} {pending' s' : List Char}
    (h : GoesOver line' fresh' pending' s') (hlines : line' + lineFeeds s' = line + lineFeeds s)
    (parts : List Segment)
    (hstep : ∀ rest, segmentsFrom line fresh pending (s ++ rest) =
      parts ++ segmentsFrom line' fresh' pending' (s' ++ rest)) :
    GoesOver line fresh pending s := by
  obtain ⟨front, tail, htail, happend⟩ := h
  refine ⟨parts ++ front, tail, htail, fun rest => ?_⟩
  rw [hstep, happend, hlines, List.append_assoc]

/-- Behind a marker, a text that ends with a line feed still does so, and openers and closers hold
no line feeds. -/
theorem MarkerKind.behind_feed (kind : MarkerKind) {inner : List Char}
    {parts : List Char × List Char} (hopen : after? kind.opener s = some inner)
    (hcut : cut? kind.closer inner = some parts) (hs : s.getLast? = some '\n') :
    parts.2.getLast? = some '\n' ∧ lineFeeds s = lineFeeds parts.1 + lineFeeds parts.2 := by
  obtain ⟨body, later⟩ := parts
  have hopener : '\n' ∉ kind.opener := by cases kind <;> decide
  have hcloser : '\n' ∉ kind.closer := by cases kind <;> decide
  have hne : kind.closer ≠ [] := by cases kind <;> decide
  obtain rfl := after?_eq_some_iff.mp hopen
  obtain rfl := eq_append_of_cut? hcut
  refine ⟨getLast?_of_append_mark (kind.opener ++ body) hne hcloser (by simpa using hs), ?_⟩
  simp only [lineFeeds_append]
  rw [show lineFeeds kind.opener = 0 from List.count_eq_zero.mpr hopener,
    show lineFeeds kind.closer = 0 from List.count_eq_zero.mpr hcloser]
  omega

/-- A tag that is alone on its line takes one line feed with it, after which a line starts. -/
theorem behind_feed_of_aloneOnLine? {around : List Char × List Char}
    (hrest : rest.getLast? = some '\n') (h : aloneOnLine? fresh pending rest = some around) :
    StartsLine true around.2 ∧ lineFeeds rest = lineFeeds around.2 + 1 := by
  obtain ⟨padding, hpadding, hend⟩ := eq_append_of_aloneOnLine? h
  have hfeed : '\n' ∉ padding := fun hmem => absurd (hpadding '\n' hmem) (by decide)
  obtain ⟨rfl, -⟩ | rfl := hend
  · exact absurd (List.mem_of_getLast? hrest) hfeed
  · constructor
    · cases hnext : around.2 with
      | nil => rfl
      | cons c next =>
        rw [hnext] at hrest
        exact startsLine_of_getLast? (by simpa using hrest)
    · rw [lineFeeds_append, show lineFeeds padding = 0 from List.count_eq_zero.mpr hfeed,
        Nat.zero_add]
      exact List.count_cons_self

/-- An opener of a text that ends with a line feed is one whatever follows the text. -/
theorem MarkerKind.opens_append (kind : MarkerKind) (hs : s.getLast? = some '\n')
    {inner : List Char} (h : after? kind.opener s = some inner) (rest : List Char) :
    after? kind.opener (s ++ rest) = some (inner ++ rest) := by
  rw [after?_append_of_getLast? (by cases kind <;> decide) hs, h]
  rfl

/-- Where no opener stands in a text that ends with a line feed, none does whatever follows. -/
theorem MarkerKind.opens_not_append (kind : MarkerKind) (hs : s.getLast? = some '\n')
    (h : after? kind.opener s = none) (rest : List Char) :
    after? kind.opener (s ++ rest) = none := by
  rw [after?_append_of_getLast? (by cases kind <;> decide) hs, h]
  rfl

/-- If every marker of a text is closed and a line starts after it, its segments go over into those
of any text after it. -/
theorem goesOver_of_closed {line : Nat} (hline : StartsLine fresh (pending.reverse ++ s))
    (hclosed : ∀ line' fault, .broken line' fault ∉ segmentsFrom line fresh pending s) :
    GoesOver line fresh pending s := by
  fun_induction segmentsFrom line fresh pending s with
  | case1 line fresh pending =>
    rw [List.append_nil] at hline
    exact goesOver_nil hline
  | case2 => exact absurd List.mem_cons_self (hclosed _ _)
  | case3 line fresh pending c s inner hsub parts hcut shorter ih =>
    have hend := hline.getLast?_eq
    obtain ⟨hlater, hfeeds⟩ := MarkerKind.substitution.behind_feed hsub hcut hend
    have hnext := ih (startsLine_of_getLast? hlater) fun line' fault hmem =>
      hclosed line' fault (List.mem_cons_of_mem _ (List.mem_cons_of_mem _ hmem))
    refine hnext.of_step ?_ [.text pending.reverse, .substitution line parts.1] fun rest => ?_
    · rw [hfeeds, Nat.add_assoc]
    · have hopened := MarkerKind.substitution.opens_append hend hsub rest
      rw [segmentsFrom_of_substitution hopened (cut?_append hcut rest)]
      rfl
  | case4 => exact absurd List.mem_cons_self (hclosed _ _)
  | case5 line fresh pending c s hsub inner htag parts hcut shorter around halone _ ih =>
    have hend := hline.getLast?_eq
    obtain ⟨hlater, hfeeds⟩ := MarkerKind.tag.behind_feed htag hcut hend
    obtain ⟨hstart, hfeed⟩ := behind_feed_of_aloneOnLine? hlater halone
    have hnext := ih hstart fun line' fault hmem =>
      hclosed line' fault (List.mem_cons_of_mem _ (List.mem_cons_of_mem _ hmem))
    refine hnext.of_step ?_ [.text around.1, .tag line parts.1] fun rest => ?_
    · rw [hfeeds, hfeed]
      omega
    · have hother := MarkerKind.substitution.opens_not_append hend hsub rest
      have hopened := MarkerKind.tag.opens_append hend htag rest
      rw [segmentsFrom_of_tag hother hopened (cut?_append hcut rest), aloneOnLine?_append hlater,
        halone]
      rfl
  | case6 line fresh pending c s hsub inner htag parts hcut shorter halone ih =>
    have hend := hline.getLast?_eq
    obtain ⟨hlater, hfeeds⟩ := MarkerKind.tag.behind_feed htag hcut hend
    have hnext := ih (startsLine_of_getLast? hlater) fun line' fault hmem =>
      hclosed line' fault (List.mem_cons_of_mem _ (List.mem_cons_of_mem _ hmem))
    refine hnext.of_step ?_ [.text pending.reverse, .tag line parts.1] fun rest => ?_
    · rw [hfeeds, Nat.add_assoc]
    · have hother := MarkerKind.substitution.opens_not_append hend hsub rest
      have hopened := MarkerKind.tag.opens_append hend htag rest
      rw [segmentsFrom_of_tag hother hopened (cut?_append hcut rest), aloneOnLine?_append hlater,
        halone]
      rfl
  | case7 line fresh pending c s hsub htag ih =>
    have hend := hline.getLast?_eq
    refine (ih ?_ hclosed).of_step ?_ [] fun rest => ?_
    · simpa using hline
    · rw [Nat.add_assoc, ← lineFeeds_append, List.singleton_append]
    · exact segmentsFrom_of_none (MarkerKind.substitution.opens_not_append hend hsub rest)
        (MarkerKind.tag.opens_not_append hend htag rest)

/-! ## Pieces -/

/-- The same open blocks, with their tags further down. -/
def Open.movedBy (lines : Nat) (blocks : Open) : Open :=
  blocks.map fun opened => (opened.1, opened.2 + lines)

/-- The same error further down. -/
def Error.movedBy (lines : Nat) (error : Error) : Error :=
  ⟨error.line + lines, error.fault⟩

/-- Whether the innermost block is a condition does not depend on where it was opened. -/
theorem Open.inCondition_movedBy (lines : Nat) (blocks : Open) :
    (blocks.movedBy lines).inCondition = blocks.inCondition := by
  cases blocks with
  | nil => rfl
  | cons opened outer =>
    obtain ⟨block, line⟩ := opened
    cases block <;> rfl

/-- A tag further down stands for the same piece. -/
theorem lowerTag_movedBy (lines line : Nat) (blocks : Open) (content : List Char) :
    lowerTag (blocks.movedBy lines) (line + lines) content =
      (lowerTag blocks line content).map fun next => (next.1, next.2.movedBy lines) := by
  unfold lowerTag
  simp only [Open.inCondition_movedBy]
  split
  -- `for`, `if`, `elif` and `else`
  · split <;> rfl
  · split <;> rfl
  · split
    · rfl
    · split <;> rfl
  · split
    · rfl
    · split <;> rfl
  -- `macro`, `set` and `end`
  · cases signature? (keywordOf (trim content)).2 <;> rfl
  · split <;> rfl
  · split
    · rfl
    · cases blocks <;> rfl
  · rfl

/-- The piece that a segment stands for, and the blocks that are open after it. -/
def lowerSegment (blocks : Open) : Segment → Except Error (Piece × Open)
  | .text s => .ok (.text s, blocks)
  | .substitution line body =>
    if trim body = [] then .error ⟨line, .emptySubstitution⟩
    else .ok (.output (trim body), blocks)
  | .tag line content => (lowerTag blocks line content).mapError (⟨line, ·⟩)
  | .broken line fault => .error ⟨line, fault⟩

/-- Segments are lowered one by one. -/
theorem lowerFrom_cons (blocks : Open) (part : Segment) (parts : List Segment) :
    lowerFrom blocks (part :: parts) =
      (lowerSegment blocks part).bind fun next => (lowerFrom next.2 parts).map (next.1 :: ·) := by
  cases part with
  | text s => rfl
  | broken line fault => rfl
  | substitution line body =>
    rw [lowerFrom, lowerSegment]
    split <;> rfl
  | tag line content =>
    rw [lowerFrom, lowerSegment]
    cases lowerTag blocks line content <;> rfl

/-- What is lowered without an error starts with the piece of its first segment. -/
theorem eq_ok_of_lowerFrom_cons {blocks : Open} {part : Segment} {parts : List Segment}
    {pieces : List Piece} (h : lowerFrom blocks (part :: parts) = .ok pieces) :
    ∃ piece inner later, lowerSegment blocks part = .ok (piece, inner) ∧
      lowerFrom inner parts = .ok later ∧ pieces = piece :: later := by
  rw [lowerFrom_cons] at h
  cases hpart : lowerSegment blocks part with
  | error error =>
    rw [hpart] at h
    exact absurd h (by simp [Except.bind])
  | ok next =>
    rw [hpart, Except.bind] at h
    cases hlater : lowerFrom next.2 parts with
    | error error =>
      rw [hlater] at h
      exact absurd h (by simp [Except.map])
    | ok later =>
      rw [hlater] at h
      exact ⟨next.1, next.2, later, rfl, hlater, (Except.ok.inj h).symm⟩

/-- A segment further down stands for the same piece. -/
theorem lowerSegment_movedBy (lines : Nat) (blocks : Open) (part : Segment) :
    lowerSegment (blocks.movedBy lines) (part.movedBy lines) =
      ((lowerSegment blocks part).map fun next => (next.1, next.2.movedBy lines)).mapError
        (Error.movedBy lines) := by
  cases part with
  | text s => rfl
  | broken line fault => rfl
  | substitution line body =>
    rw [Segment.movedBy, lowerSegment, lowerSegment]
    split <;> rfl
  | tag line content =>
    rw [Segment.movedBy, lowerSegment, lowerSegment, lowerTag_movedBy]
    cases lowerTag blocks line content <;> rfl

/-- Segments further down stand for the same pieces. -/
theorem lowerFrom_movedBy (lines : Nat) (blocks : Open) (parts : List Segment) :
    lowerFrom (blocks.movedBy lines) (parts.map (Segment.movedBy lines)) =
      (lowerFrom blocks parts).mapError (Error.movedBy lines) := by
  induction parts generalizing blocks with
  | nil => cases blocks <;> rfl
  | cons part parts ih =>
    rw [List.map_cons, lowerFrom_cons, lowerFrom_cons, lowerSegment_movedBy]
    cases lowerSegment blocks part with
    | error error => rfl
    | ok next =>
      show (lowerFrom (next.2.movedBy lines) (parts.map _)).map _ =
        ((lowerFrom next.2 parts).map _).mapError _
      rw [ih]
      cases lowerFrom next.2 parts <;> rfl

/-- If the segments before a text are lowered without an error and no block is open after it, the
segments after it are lowered on their own. -/
theorem lowerFrom_append {blocks : Open} {front : List Segment} {tail : List Char}
    {pieces : List Piece} (h : lowerFrom blocks (front ++ [.text tail]) = .ok pieces) :
    ∃ lead, pieces = lead ++ [.text tail] ∧
      ∀ parts, lowerFrom blocks (front ++ parts) = (lowerFrom [] parts).map (lead ++ ·) := by
  induction front generalizing blocks pieces with
  | nil =>
    obtain ⟨piece, inner, later, hpart, hlater, rfl⟩ := eq_ok_of_lowerFrom_cons h
    obtain ⟨rfl, rfl⟩ := Prod.mk.inj (Except.ok.inj hpart)
    cases blocks with
    | nil =>
      refine ⟨[], by rw [← Except.ok.inj hlater]; rfl, fun parts => ?_⟩
      rw [List.nil_append]
      cases lowerFrom [] parts <;> rfl
    | cons opened outer => exact absurd hlater (by simp [lowerFrom])
  | cons part front ih =>
    obtain ⟨piece, inner, later, hpart, hlater, rfl⟩ := eq_ok_of_lowerFrom_cons h
    obtain ⟨lead, rfl, happend⟩ := ih hlater
    refine ⟨piece :: lead, rfl, fun parts => ?_⟩
    rw [List.cons_append, lowerFrom_cons, hpart]
    show (lowerFrom inner (front ++ parts)).map _ = _
    rw [happend]
    cases lowerFrom [] parts <;> rfl

/-- Segments that are lowered without an error hold no marker that is never closed. -/
theorem not_mem_broken_of_lowerFrom {blocks : Open} {parts : List Segment} {pieces : List Piece}
    (h : lowerFrom blocks parts = .ok pieces) (line : Nat) (fault : MarkerFault) :
    .broken line fault ∉ parts := by
  induction parts generalizing blocks pieces with
  | nil => exact List.not_mem_nil
  | cons part parts ih =>
    obtain ⟨piece, inner, later, hpart, hlater, -⟩ := eq_ok_of_lowerFrom_cons h
    refine fun hmem => (List.mem_cons.mp hmem).elim ?_ (ih hlater)
    rintro rfl
    exact absurd hpart (by simp [lowerSegment])

/-! ## Texts -/

/-- Braces are escaped on both sides of a line feed. -/
theorem escapeBraces_append_feed (followed : Bool) (s rest : List Char) :
    escapeBraces followed (s ++ '\n' :: rest) =
      escapeBraces false s ++ '\n' :: escapeBraces followed rest := by
  induction s with
  | nil => rfl
  | cons c s ih =>
    have hnext : startsDelimiter followed (s ++ '\n' :: rest) = startsDelimiter false s := by
      cases s <;> rfl
    rw [List.cons_append, escapeBraces, escapeBraces, ih, hnext, List.append_assoc]

/-- Literal text is written on both sides of a line feed. -/
theorem renderText_append_feed (followed : Bool) (s rest : List Char) :
    renderText followed (s ++ '\n' :: rest) =
      renderText false s ++ '\n' :: renderText followed rest := by
  unfold renderText
  rw [replaceAll_append_cons (by decide) (by decide), escapeBraces_append_feed]

/-- Literal text is written as if nothing stood before the line it starts with. -/
theorem renderText_append {tail : List Char} (h : StartsLine true tail) (followed : Bool)
    (s : List Char) :
    renderText followed (tail ++ s) = renderText false tail ++ renderText followed s := by
  rcases List.eq_nil_or_concat' tail with rfl | ⟨lead, c, rfl⟩
  · rfl
  · obtain rfl : c = '\n' := by
      unfold StartsLine at h
      rwa [List.getLast?_concat] at h
    rw [List.append_assoc, List.singleton_append, renderText_append_feed, renderText_append_feed,
      List.append_assoc]
    rfl

/-- Pieces in front of others are written as if something followed. -/
theorem render_append (lead : List Piece) {pieces : List Piece} (h : pieces ≠ []) :
    render (lead ++ pieces) = lead.flatMap (Piece.render true) ++ render pieces := by
  induction lead with
  | nil => rfl
  | cons piece lead ih =>
    have hnot : (!(lead ++ pieces).isEmpty) = true := by simp [h]
    rw [List.cons_append, render, hnot, ih, List.flatMap_cons, List.append_assoc]

/-! ## Both templates -/

/-- The pieces of a template that ends with a line feed end with a text. It goes over into the first
piece of the next template, whose other pieces are its own. -/
theorem lower_append {first : List Char} {pieces : List Piece} (hfeed : first.getLast? = some '\n')
    (hfirst : lower first = .ok pieces) :
    ∃ lead tail, pieces = lead ++ [.text tail] ∧ StartsLine true tail ∧ ∀ second,
      (∃ t later, lower second = .ok (.text t :: later) ∧
        lower (first ++ second) = .ok (lead ++ .text (tail ++ t) :: later)) ∨
      ∃ error, lower second = .error error ∧
        lower (first ++ second) = .error (error.movedBy (lineFeeds first)) := by
  obtain ⟨front, tail, htail, happend⟩ : GoesOver 1 true [] first :=
    goesOver_of_closed (startsLine_of_getLast? hfeed) (not_mem_broken_of_lowerFrom hfirst)
  have hown : segments first = front ++ [.text tail] := by
    have hnil := happend []
    rwa [List.append_nil, segmentsFrom, List.reverse_nil, prependText, List.append_nil] at hnil
  unfold lower at hfirst
  rw [hown] at hfirst
  obtain ⟨lead, rfl, hrest⟩ := lowerFrom_append hfirst
  refine ⟨lead, tail, rfl, htail, fun second => ?_⟩
  have hboth : lower (first ++ second) =
      (lowerFrom [] (prependText tail ((segments second).map
        (Segment.movedBy (lineFeeds first))))).map (lead ++ ·) := by
    rw [← hrest, segments, ← segmentsFrom_movedBy, ← happend]
    rfl
  rw [hboth, lower]
  obtain ⟨t, parts, hsegments⟩ | ⟨line, fault, hsegments⟩ :=
    segmentsFrom_eq_text_or_broken 1 true [] second
  · have hmoved : lowerFrom [] (parts.map (Segment.movedBy (lineFeeds first))) =
        (lowerFrom [] parts).mapError (Error.movedBy (lineFeeds first)) :=
      lowerFrom_movedBy (lineFeeds first) [] parts
    have hlowered : (lowerFrom [] (prependText tail ((Segment.text t :: parts).map
        (Segment.movedBy (lineFeeds first))))).map (lead ++ ·) =
        ((lowerFrom [] parts).mapError (Error.movedBy (lineFeeds first))).map
          (lead ++ .text (tail ++ t) :: ·) := by
      rw [← hmoved, List.map_cons, Segment.movedBy, prependText, lowerFrom]
      cases lowerFrom [] (parts.map (Segment.movedBy (lineFeeds first))) <;> rfl
    rw [segments, hsegments, hlowered, lowerFrom]
    cases lowerFrom [] parts with
    | error error => exact .inr ⟨error, rfl, rfl⟩
    | ok later => exact .inl ⟨t, later, rfl, rfl⟩
  · rw [segments, hsegments]
    exact .inr ⟨⟨line, fault⟩, rfl, rfl⟩

/-- A template that ends with a line feed and is lowered without an error does not affect what
follows it: the output of the next template comes after its output, and an error of the next
template is that error further down. -/
theorem lowered_append {first second output : List Char} (hfeed : first.getLast? = some '\n')
    (hfirst : lowered first = .ok output) :
    (∀ later, lowered second = .ok later → lowered (first ++ second) = .ok (output ++ later)) ∧
      ∀ error, lowered second = .error error →
        lowered (first ++ second) = .error ⟨error.line + lineFeeds first, error.fault⟩ := by
  unfold lowered at *
  cases hpieces : lower first with
  | error error =>
    rw [hpieces] at hfirst
    exact absurd hfirst (by simp [Except.map])
  | ok pieces =>
    rw [hpieces] at hfirst
    obtain rfl : render pieces = output := Except.ok.inj hfirst
    obtain ⟨lead, tail, rfl, htail, hboth⟩ := lower_append hfeed hpieces
    obtain ⟨t, more, hsecond, hboth⟩ | ⟨error, hsecond, hboth⟩ := hboth second
    · have hrender : render (lead ++ .text (tail ++ t) :: more) =
          render (lead ++ [.text tail]) ++ render (.text t :: more) := by
        rw [render_append lead (List.cons_ne_nil _ _), render_append lead (List.cons_ne_nil _ _),
          render, Piece.render, renderText_append htail, render, Piece.render]
        simp [render, Piece.render]
      rw [hsecond, hboth]
      refine ⟨fun later hlater => ?_, fun error herror => absurd herror (by simp [Except.map])⟩
      obtain rfl : render (.text t :: more) = later := Except.ok.inj hlater
      exact congrArg Except.ok hrender
    · rw [hsecond, hboth]
      refine ⟨fun later hlater => absurd hlater (by simp [Except.map]), fun error' herror => ?_⟩
      obtain rfl : error = error' := Except.error.inj herror
      rfl

/-- A template with a block whose tags are alone on their lines, and with literal braces. -/
def guardedLine : List Char :=
  "$$\x7bk\x7d\n  <!--(if x)-->\n$!x!$ \x7b\n\t<!--(end)--> \n".toList

/-- A loop may follow a complete template, and an end tag must not, whatever that template closed. -/
theorem lowered_append_guardedLine :
    guardedLine.getLast? = some '\n' ∧
      lowered guardedLine =
        .ok "$\x7bk\x7d\n\x7b% if x %\x7d\x7b\x7b x \x7d\x7d \x7b\n\x7b% endif %\x7d".toList ∧
      lowered (guardedLine ++ " <!--(for a in b)-->\r\n% \x7b\n<!--(end)-->".toList) =
        .ok ("$\x7bk\x7d\n\x7b% if x %\x7d\x7b\x7b x \x7d\x7d \x7b\n\x7b% endif %\x7d".toList ++
          "\x7b% for a in b %\x7d% \x7b\n\x7b% endfor %\x7d".toList) ∧
      lowered (guardedLine ++ "a\n<!--(end)-->".toList) = .error ⟨2 + 4, .endWithoutBlock⟩ := by
  have hfeed : guardedLine.getLast? = some '\n' := by decide +kernel
  have hfirst : lowered guardedLine =
      .ok "$\x7bk\x7d\n\x7b% if x %\x7d\x7b\x7b x \x7d\x7d \x7b\n\x7b% endif %\x7d".toList := by
    decide +kernel
  have hloop : lowered " <!--(for a in b)-->\r\n% \x7b\n<!--(end)-->".toList =
      .ok "\x7b% for a in b %\x7d% \x7b\n\x7b% endfor %\x7d".toList := by
    decide +kernel
  have hend : lowered "a\n<!--(end)-->".toList = .error ⟨2, .endWithoutBlock⟩ := by decide +kernel
  exact ⟨hfeed, hfirst, (lowered_append hfeed hfirst).1 _ hloop,
    (lowered_append hfeed hfirst).2 _ hend⟩

end DsdlHeaders.Template.Primitive

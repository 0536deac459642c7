import Mathlib.Data.List.TakeWhile
import DsdlHeaders.Proofs.Text.Marks
import DsdlHeaders.Template.Primitive

/-!
# The markers of a primitive template

A primitive template is read from left to right. The next marker is the leftmost opener from the
present position on, and reading goes on after its closer. `markers` is this search on its own: it
keeps the text before each marker, so that the line of a marker is a matter of counting
(`Marker.line`), and knows nothing about tags that are alone on their lines.

Main statement: `segments` cuts a template at the same places. Without their literal text, the
segments of a template are its markers, each with its line (`segments_filter_isMarker`). A tag that
is alone on its line takes only padding and a line feed with it, where no marker can start
(`markersFrom_append`).
-/

namespace DsdlHeaders.Template.Primitive

open Text Extended

/-! ## Searching for markers -/

/-- The kinds of marker. -/
inductive MarkerKind where
  | substitution
  | tag
deriving DecidableEq, Repr

/-- What opens a marker. -/
def MarkerKind.opener : MarkerKind → List Char
  | .substitution => ['$', '!']
  | .tag => tagOpen

/-- What closes a marker. -/
def MarkerKind.closer : MarkerKind → List Char
  | .substitution => ['!', '$']
  | .tag => tagClose

/-- A marker of a template. -/
structure Marker where
  /-- The template before the marker. -/
  before : List Char
  kind : MarkerKind
  /-- What stands between opener and closer, if the marker is closed. -/
  body : Option (List Char)
deriving DecidableEq, Repr

/-- The line of a marker, counted from one. -/
def Marker.line (marker : Marker) : Nat :=
  lineFeeds marker.before + 1

/-- The leftmost opener of a text: the text before it, its kind, and the text after it. -/
def nextMarker? (s : List Char) : Option (List Char × MarkerKind × List Char) :=
  match cut? MarkerKind.substitution.opener s, cut? MarkerKind.tag.opener s with
  | some (lead, rest), some (lead', rest') =>
    if lead.length < lead'.length then some (lead, .substitution, rest)
    else some (lead', .tag, rest')
  | some (lead, rest), none => some (lead, .substitution, rest)
  | none, some (lead, rest) => some (lead, .tag, rest)
  | none, none => none

/-- The leftmost opener stands between the text before it and the text after it. -/
theorem eq_append_of_nextMarker? {s lead rest : List Char} {kind : MarkerKind}
    (h : nextMarker? s = some (lead, kind, rest)) : s = lead ++ (kind.opener ++ rest) := by
  unfold nextMarker? at h
  split at h
  · rename_i hfirst hsecond
    split at h
    · obtain ⟨rfl, rfl, rfl⟩ : _ ∧ _ ∧ _ := by simpa using h
      exact eq_append_of_cut? hfirst
    · obtain ⟨rfl, rfl, rfl⟩ : _ ∧ _ ∧ _ := by simpa using h
      exact eq_append_of_cut? hsecond
  · rename_i hfirst _
    obtain ⟨rfl, rfl, rfl⟩ : _ ∧ _ ∧ _ := by simpa using h
    exact eq_append_of_cut? hfirst
  · rename_i _ hsecond
    obtain ⟨rfl, rfl, rfl⟩ : _ ∧ _ ∧ _ := by simpa using h
    exact eq_append_of_cut? hsecond
  · exact absurd h (by simp)

/-- Every opener takes a character. -/
theorem MarkerKind.opener_ne_nil (kind : MarkerKind) : kind.opener ≠ [] := by
  cases kind <;> simp [MarkerKind.opener, tagOpen]

/-- What follows the leftmost opener is shorter than the text. -/
theorem nextMarker?_length_lt {s : List Char} {found : List Char × MarkerKind × List Char}
    (h : nextMarker? s = some found) : found.2.2.length < s.length := by
  obtain ⟨lead, kind, rest⟩ := found
  have hlength := congrArg List.length (eq_append_of_nextMarker? h)
  have hpos := List.length_pos_iff.mpr kind.opener_ne_nil
  simp only [List.length_append] at hlength
  show rest.length < s.length
  omega

/-- The markers of a text that follows `before`. A marker that is never closed is the last one. -/
def markersFrom (before s : List Char) : List Marker :=
  match hnext : nextMarker? s with
  | none => []
  | some (lead, kind, inner) =>
    match hcut : cut? kind.closer inner with
    | none => [⟨before ++ lead, kind, none⟩]
    | some (body, rest) =>
      have _ : rest.length < s.length :=
        Nat.lt_of_le_of_lt (cut?_length_le hcut) (nextMarker?_length_lt hnext)
      ⟨before ++ lead, kind, some body⟩ ::
        markersFrom (before ++ lead ++ kind.opener ++ body ++ kind.closer) rest
termination_by s.length
decreasing_by assumption

/-- The markers of a template. -/
def markers (source : List Char) : List Marker :=
  markersFrom [] source

/-! ## One step of the search -/

/-- Where no opener stands, the search goes on with the next character. -/
theorem nextMarker?_cons {c : Char} {s : List Char}
    (hsub : after? ['$', '!'] (c :: s) = none) (htag : after? tagOpen (c :: s) = none) :
    nextMarker? (c :: s) = (nextMarker? s).map fun found => (c :: found.1, found.2) := by
  have hfirst : cut? MarkerKind.substitution.opener (c :: s) =
      (cut? MarkerKind.substitution.opener s).map fun parts => (c :: parts.1, parts.2) := by
    rw [cut?, show after? MarkerKind.substitution.opener (c :: s) = none from hsub]
  have hsecond : cut? MarkerKind.tag.opener (c :: s) =
      (cut? MarkerKind.tag.opener s).map fun parts => (c :: parts.1, parts.2) := by
    rw [cut?, show after? MarkerKind.tag.opener (c :: s) = none from htag]
  unfold nextMarker?
  rw [hfirst, hsecond]
  cases cut? MarkerKind.substitution.opener s with
  | none => cases cut? MarkerKind.tag.opener s <;> rfl
  | some one =>
    cases cut? MarkerKind.tag.opener s with
    | none => rfl
    | some other =>
      simp only [Option.map_some, List.length_cons, Nat.add_lt_add_iff_right]
      split <;> rfl

/-- An opener in front is the leftmost one. -/
theorem nextMarker?_opener (kind : MarkerKind) (rest : List Char) :
    nextMarker? (kind.opener ++ rest) = some ([], kind, rest) := by
  have hfront : ∀ mark : List Char, mark ≠ [] → cut? mark (mark ++ rest) = some ([], rest) := by
    intro mark hmark
    cases mark with
    | nil => exact absurd rfl hmark
    | cons c mark =>
      rw [List.cons_append, cut?, ← List.cons_append, after?_append]
  cases kind with
  | substitution =>
    unfold nextMarker?
    rw [hfront _ (MarkerKind.opener_ne_nil _)]
    cases hother : cut? MarkerKind.tag.opener (MarkerKind.substitution.opener ++ rest) with
    | none => rfl
    | some other =>
      obtain ⟨lead, later⟩ := other
      have happend := eq_append_of_cut? hother
      cases lead with
      | nil => exact absurd happend (by simp [MarkerKind.opener, tagOpen])
      | cons c lead => simp
  | tag =>
    unfold nextMarker?
    rw [hfront _ (MarkerKind.opener_ne_nil _)]
    cases cut? MarkerKind.substitution.opener (MarkerKind.tag.opener ++ rest) <;> simp

/-- Without an opener a text has no markers. -/
theorem markersFrom_of_none {s : List Char} (before : List Char) (h : nextMarker? s = none) :
    markersFrom before s = [] := by
  rw [markersFrom]
  split
  · rfl
  · rename_i hsome
    rw [h] at hsome
    exact absurd hsome (by simp)

/-- What the first opener starts, and what the search finds behind it. -/
theorem markersFrom_of_some {s lead inner : List Char} {kind : MarkerKind} (before : List Char)
    (h : nextMarker? s = some (lead, kind, inner)) :
    markersFrom before s = match cut? kind.closer inner with
      | none => [⟨before ++ lead, kind, none⟩]
      | some parts => ⟨before ++ lead, kind, some parts.1⟩ ::
          markersFrom (before ++ lead ++ kind.opener ++ parts.1 ++ kind.closer) parts.2 := by
  rw [markersFrom]
  split
  · rename_i hnone
    rw [h] at hnone
    exact absurd hnone (by simp)
  · rename_i hsome
    rw [h] at hsome
    obtain ⟨rfl, rfl, rfl⟩ : _ ∧ _ ∧ _ := by simpa using hsome
    split <;> rename_i hcut <;> simp only [hcut]

/-- A marker that is never closed ends the search. -/
theorem markersFrom_unclosed {s lead inner : List Char} {kind : MarkerKind} (before : List Char)
    (h : nextMarker? s = some (lead, kind, inner)) (hcut : cut? kind.closer inner = none) :
    markersFrom before s = [⟨before ++ lead, kind, none⟩] := by
  rw [markersFrom_of_some before h, hcut]

/-- After a marker the search goes on behind its closer. -/
theorem markersFrom_closed {s lead inner body rest : List Char} {kind : MarkerKind}
    (before : List Char) (h : nextMarker? s = some (lead, kind, inner))
    (hcut : cut? kind.closer inner = some (body, rest)) :
    markersFrom before s = ⟨before ++ lead, kind, some body⟩ ::
      markersFrom (before ++ lead ++ kind.opener ++ body ++ kind.closer) rest := by
  rw [markersFrom_of_some before h, hcut]

/-- Where no opener stands, the search goes on with the next character. -/
theorem markersFrom_cons {c : Char} {s : List Char} (before : List Char)
    (hsub : after? ['$', '!'] (c :: s) = none) (htag : after? tagOpen (c :: s) = none) :
    markersFrom before (c :: s) = markersFrom (before ++ [c]) s := by
  have hstep := nextMarker?_cons hsub htag
  cases hnext : nextMarker? s with
  | none =>
    rw [hnext] at hstep
    rw [markersFrom_of_none _ hstep, markersFrom_of_none _ hnext]
  | some found =>
    obtain ⟨lead, kind, inner⟩ := found
    rw [hnext] at hstep
    cases hcut : cut? kind.closer inner with
    | none =>
      rw [markersFrom_unclosed _ hstep hcut, markersFrom_unclosed _ hnext hcut]
      simp
    | some parts =>
      rw [markersFrom_closed _ hstep hcut, markersFrom_closed _ hnext hcut]
      simp

/-- The search at an opener whose closer is missing. -/
theorem markersFrom_of_after?_unclosed (kind : MarkerKind) {s inner : List Char}
    (before : List Char) (h : after? kind.opener s = some inner)
    (hcut : cut? kind.closer inner = none) : markersFrom before s = [⟨before, kind, none⟩] := by
  have hnext := nextMarker?_opener kind inner
  rw [← after?_eq_some_iff.mp h] at hnext
  rw [markersFrom_unclosed before hnext hcut, List.append_nil]

/-- The search at an opener with its closer. -/
theorem markersFrom_of_after?_closed (kind : MarkerKind) {s inner body rest : List Char}
    (before : List Char) (h : after? kind.opener s = some inner)
    (hcut : cut? kind.closer inner = some (body, rest)) :
    markersFrom before s = ⟨before, kind, some body⟩ ::
      markersFrom (before ++ kind.opener ++ body ++ kind.closer) rest := by
  have hnext := nextMarker?_opener kind inner
  rw [← after?_eq_some_iff.mp h] at hnext
  rw [markersFrom_closed before hnext hcut, List.append_nil]

/-- May an opener start with this character? -/
def startsOpener (c : Char) : Bool :=
  c == '$' || c == '<'

/-- No marker starts in a text without the first characters of openers. -/
theorem markersFrom_append {lead : List Char} (h : ∀ c ∈ lead, startsOpener c = false)
    (before s : List Char) : markersFrom before (lead ++ s) = markersFrom (before ++ lead) s := by
  induction lead generalizing before with
  | nil => rw [List.nil_append, List.append_nil]
  | cons c lead ih =>
    obtain ⟨hc, hlead⟩ := List.forall_mem_cons.mp h
    simp only [startsOpener, Bool.or_eq_false_iff, beq_eq_false_iff_ne, ne_eq] at hc
    have hsub : after? ['$', '!'] (c :: (lead ++ s)) = none := by
      simp [after?, Ne.symm hc.1]
    have htag : after? tagOpen (c :: (lead ++ s)) = none := by
      simp [tagOpen, after?, Ne.symm hc.2]
    rw [List.cons_append, markersFrom_cons before hsub htag, ih hlead]
    simp

/-! ## Markers and segments -/

/-- Is a segment something else than literal text? -/
def Segment.isMarker : Segment → Bool
  | .text _ => false
  | _ => true

/-- The segment of a marker. -/
def Marker.segment (marker : Marker) : Segment :=
  match marker.kind, marker.body with
  | .substitution, some body => .substitution marker.line body
  | .substitution, none => .broken marker.line .unterminatedSubstitution
  | .tag, some content => .tag marker.line content
  | .tag, none => .broken marker.line .unterminatedTag

/-- No opener starts with padding. -/
theorem startsOpener_of_isPadding {c : Char} (h : isPadding c = true) :
    startsOpener c = false := by
  simp only [isPadding, isIndent, Bool.or_eq_true, beq_iff_eq] at h
  rcases h with (rfl | rfl) | rfl <;> rfl

/-- What a tag that is alone on its line takes with it: padding, and a line feed unless the text
ends there. -/
theorem eq_append_of_aloneOnLine? {fresh : Bool} {pending rest : List Char}
    {around : List Char × List Char} (h : aloneOnLine? fresh pending rest = some around) :
    ∃ padding, (∀ c ∈ padding, isPadding c = true) ∧
      (rest = padding ∧ around.2 = [] ∨ rest = padding ++ '\n' :: around.2) := by
  unfold aloneOnLine? at h
  simp only at h
  have hpadding : ∀ c ∈ rest.takeWhile isPadding, isPadding c = true :=
    fun c hc => List.mem_takeWhile_imp hc
  have hsplit := List.takeWhile_append_dropWhile (p := isPadding) (l := rest)
  split at h
  · rename_i hdrop
    rw [hdrop, List.append_nil] at hsplit
    obtain rfl := Option.some.inj h
    exact ⟨_, hpadding, .inl ⟨hsplit.symm, rfl⟩⟩
  · rename_i next hdrop
    rw [hdrop] at hsplit
    obtain rfl := Option.some.inj h
    exact ⟨_, hpadding, .inr hsplit.symm⟩
  · exact absurd h (by simp)

/-- The line feeds of two texts one after the other. -/
theorem lineFeeds_append (s t : List Char) : lineFeeds (s ++ t) = lineFeeds s + lineFeeds t :=
  List.count_append

/-- Openers and closers hold no line feeds, so only the body of a marker moves the line on. -/
theorem nextLine_eq (kind : MarkerKind) (before body : List Char) :
    lineFeeds (before ++ kind.opener ++ body ++ kind.closer) + 1 =
      lineFeeds before + 1 + lineFeeds body := by
  have hopener : lineFeeds kind.opener = 0 := by cases kind <;> decide
  have hcloser : lineFeeds kind.closer = 0 := by cases kind <;> decide
  simp only [lineFeeds_append, hopener, hcloser]
  omega

/-- What follows a tag that is alone on its line has the markers that follow the tag. -/
theorem markersFrom_of_aloneOnLine? {fresh : Bool} {pending rest : List Char}
    {around : List Char × List Char} (h : aloneOnLine? fresh pending rest = some around)
    (before : List Char) :
    ∃ after, markersFrom before rest = markersFrom after around.2 ∧
      (around.2 ≠ [] → lineFeeds after = lineFeeds before + 1) := by
  obtain ⟨padding, hpadding, ⟨hrest, hend⟩ | rfl⟩ := eq_append_of_aloneOnLine? h
  · refine ⟨before ++ padding, ?_, fun hne => absurd hend hne⟩
    have hsearch := markersFrom_append (fun c hc => startsOpener_of_isPadding (hpadding c hc))
      before []
    rw [List.append_nil] at hsearch
    rw [hrest, hsearch, hend]
  · have hline : ∀ c ∈ padding ++ ['\n'], startsOpener c = false := by
      intro c hc
      rcases List.mem_append.mp hc with hc | hc
      · exact startsOpener_of_isPadding (hpadding c hc)
      · rw [List.mem_singleton.mp hc]
        rfl
    have hnone : lineFeeds padding = 0 := by
      refine List.count_eq_zero.mpr fun hmem => ?_
      exact absurd (hpadding '\n' hmem) (by decide)
    refine ⟨before ++ (padding ++ ['\n']), ?_, fun _ => ?_⟩
    · rw [← markersFrom_append hline, List.append_assoc]
      rfl
    · rw [lineFeeds_append, lineFeeds_append, hnone]
      rfl

/-- Without literal text, the segments of a text are its markers. -/
theorem segmentsFrom_filter_isMarker (line : Nat) (fresh : Bool) (pending s before : List Char)
    (hline : s ≠ [] → line = lineFeeds before + 1) :
    (segmentsFrom line fresh pending s).filter Segment.isMarker =
      (markersFrom before s).map Marker.segment := by
  fun_induction segmentsFrom line fresh pending s generalizing before with
  | case1 =>
    rw [markersFrom_of_none before (by rfl)]
    rfl
  | case2 line fresh pending c s inner hsub hcut =>
    obtain rfl := hline (List.cons_ne_nil _ _)
    rw [markersFrom_of_after?_unclosed .substitution before hsub hcut]
    rfl
  | case3 line fresh pending c s inner hsub parts hcut shorter ih =>
    obtain ⟨body, rest⟩ := parts
    obtain rfl := hline (List.cons_ne_nil _ _)
    have hrest := ih _ fun _ => (nextLine_eq .substitution before body).symm
    rw [markersFrom_of_after?_closed .substitution before hsub hcut, List.map_cons, ← hrest]
    rfl
  | case4 line fresh pending c s hsub inner htag hcut =>
    obtain rfl := hline (List.cons_ne_nil _ _)
    rw [markersFrom_of_after?_unclosed .tag before htag hcut]
    rfl
  | case5 line fresh pending c s hsub inner htag parts hcut shorter around halone _ ih =>
    -- The tag takes the rest of its line with it, in which no marker starts.
    obtain ⟨body, rest⟩ := parts
    obtain rfl := hline (List.cons_ne_nil _ _)
    obtain ⟨after, hafter, hfeeds⟩ := markersFrom_of_aloneOnLine? halone
      (before ++ MarkerKind.tag.opener ++ body ++ MarkerKind.tag.closer)
    have hrest := ih after fun hne => by
      rw [hfeeds hne, nextLine_eq .tag before body]
    rw [markersFrom_of_after?_closed .tag before htag hcut, List.map_cons, hafter, ← hrest]
    rfl
  | case6 line fresh pending c s hsub inner htag parts hcut shorter halone ih =>
    obtain ⟨body, rest⟩ := parts
    obtain rfl := hline (List.cons_ne_nil _ _)
    have hrest := ih _ fun _ => (nextLine_eq .tag before body).symm
    rw [markersFrom_of_after?_closed .tag before htag hcut, List.map_cons, ← hrest]
    rfl
  | case7 line fresh pending c s hsub htag ih =>
    obtain rfl := hline (List.cons_ne_nil _ _)
    have hnext : lineFeeds before + 1 + lineFeeds [c] = lineFeeds (before ++ [c]) + 1 := by
      rw [lineFeeds_append]
      omega
    rw [markersFrom_cons before hsub htag, ih (before ++ [c]) fun _ => hnext]

/-- Without literal text, the segments of a template are its markers. -/
theorem segments_filter_isMarker (source : List Char) :
    (segments source).filter Segment.isMarker = (markers source).map Marker.segment :=
  segmentsFrom_filter_isMarker 1 true [] source [] fun _ => rfl

end DsdlHeaders.Template.Primitive

import DsdlHeaders.Proofs.Template.Shorthand
import DsdlHeaders.Proofs.Text.Boundaries

/-!
# Marking substitutions neither loses nor repeats text

The rule for substitutions changes the marks around a body and nothing else. So a template and its
marked form are two readings of one division of the text.

* **Divisions**: a `Division` is the bodies of a text's substitutions with the chunks of text around
  them. It can be put together with the marks of the shorthand (`Division.source`) or with those of
  the primitive notation (`Division.marked`).
* **Exact divisions**: a division is `Exact` if its bodies are what the rule looks for and its
  chunks hold nothing that the rule looks for. A chunk may still hold an opening mark, if that is
  escaped, has an empty body or is never closed (`LeftAlone`).
* **One step**: an exact division stays exact when the walk keeps a character (`Exact.keep`) and
  when it marks a substitution (`Exact.mark`).

Main statement: every text has an exact division with the text as its source and the marked text as
its marked form (`exists_division`).
-/

namespace DsdlHeaders.Template.Extended

open Text

variable {s t before chunk after : List Char} {prev : Option Char}

/-! ## Divisions -/

/-- A text around its substitutions. -/
structure Division where
  /-- The chunk before the first substitution. -/
  lead : List Char
  /-- The body of every substitution, each with the chunk after it. -/
  later : List (List Char × List Char)

namespace Division

/-- Bodies between two marks, each with the chunk after it. -/
def textBetween (opening closing : List Char) (later : List (List Char × List Char)) : List Char :=
  later.flatMap fun part => opening ++ part.1 ++ closing ++ part.2

/-- The text with the marks of the shorthand. -/
def source (d : Division) : List Char :=
  d.lead ++ textBetween ['$', '\x7b'] ['\x7d'] d.later

/-- The text with the marks of the primitive notation. -/
def marked (d : Division) : List Char :=
  d.lead ++ textBetween ['$', '!'] ['!', '$'] d.later

/-- A chunk of a division, with what stands before and after it in the source. -/
inductive HasChunk (d : Division) : List Char → List Char → List Char → Prop where
  | lead : HasChunk d [] d.lead (textBetween ['$', '\x7b'] ['\x7d'] d.later)
  | later {body chunk : List Char} {front back : List (List Char × List Char)}
      (hlater : d.later = front ++ (body, chunk) :: back) :
      HasChunk d (source ⟨d.lead, front⟩ ++ '$' :: '\x7b' :: (body ++ ['\x7d'])) chunk
        (textBetween ['$', '\x7b'] ['\x7d'] back)

/-- A chunk stands where it is said to stand. -/
theorem HasChunk.source_eq {d : Division} (h : d.HasChunk before chunk after) :
    d.source = before ++ (chunk ++ after) := by
  cases h with
  | lead => rfl
  | later hlater => simp [source, hlater, textBetween]

end Division

/-! ## Exact divisions -/

/-- Why the rule leaves `$` and an opening brace alone that stand between two texts: another `$` is
before them, the closing brace comes at once, or there is none. -/
def LeftAlone (prev : Option Char) (before after : List Char) : Prop :=
  before.getLast?.or prev = some '$' ∨ after.head? = some '\x7d' ∨ '\x7d' ∉ after

/-- The bodies of a division are those of substitutions, and its chunks hold no substitution. The
character `prev` stands before the text. -/
structure Division.Exact (d : Division) (prev : Option Char) : Prop where
  /-- A body is not empty, ends with the first closing brace, and is not escaped. -/
  bodies : ∀ front body chunk back, d.later = front ++ (body, chunk) :: back →
    body ≠ [] ∧ '\x7d' ∉ body ∧ (source ⟨d.lead, front⟩).getLast?.or prev ≠ some '$'
  /-- Opening marks in a chunk are left alone. -/
  chunks : ∀ before chunk after, d.HasChunk before chunk after →
    ∀ lead rest, chunk = lead ++ '$' :: '\x7b' :: rest →
      LeftAlone prev (before ++ lead) (rest ++ after)

/-- An opening mark that is no match is left alone. -/
theorem leftAlone_of_substitutionRule_eq_none {rest : List Char}
    (h : substitutionRule prev ('$' :: '\x7b' :: rest) = none) : LeftAlone prev [] rest := by
  by_cases hprev : prev = some '$'
  · exact .inl hprev
  by_cases hclose : '\x7d' ∈ rest
  · obtain ⟨body, after, rfl, hbody⟩ := List.eq_append_cons_of_mem hclose
    rcases eq_or_ne body [] with rfl | hne
    · exact .inr (.inl rfl)
    · have hmatch := substitutionRule_eq_some_iff.mpr ⟨hprev, body, after, rfl, hne, hbody, rfl⟩
      exact absurd (h.symm.trans hmatch) (by simp)
  · exact .inr (.inr hclose)

/-- A text in front of another one is seen by the character before the other one. -/
theorem leftAlone_append (lead : List Char) (h : LeftAlone (lead.getLast?.or prev) before after) :
    LeftAlone prev (lead ++ before) after := by
  unfold LeftAlone
  rwa [List.getLast?_append, Option.or_assoc]

/-- The empty text has no substitution. -/
theorem exact_nil (prev : Option Char) : Division.Exact ⟨[], []⟩ prev where
  bodies front body chunk back h := by simp at h
  chunks before chunk after h lead rest hchunk := by
    cases h with
    | lead => simp at hchunk
    | later hlater => simp at hlater

/-- A character that is kept goes to the first chunk. -/
theorem Division.Exact.keep {d : Division} {c : Char} (h : d.Exact (some c))
    (hnone : substitutionRule prev (c :: d.source) = none) :
    Division.Exact ⟨c :: d.lead, d.later⟩ prev where
  bodies front body chunk back hlater := by
    obtain ⟨hbody, hclose, hescape⟩ := h.bodies front body chunk back hlater
    rw [← getLast?_cons_or] at hescape
    exact ⟨hbody, hclose, hescape⟩
  chunks before chunk after hchunk lead rest hsplit := by
    cases hchunk with
    | lead =>
      cases lead with
      | nil =>
        -- the kept character is the `$` of the mark, so the rule was asked about this mark
        obtain ⟨rfl, hrest⟩ := List.cons.inj hsplit
        rw [Division.source, hrest, List.cons_append] at hnone
        exact leftAlone_of_substitutionRule_eq_none hnone
      | cons b lead =>
        obtain ⟨rfl, hrest⟩ := List.cons.inj hsplit
        exact leftAlone_append [c] (h.chunks _ _ _ .lead lead rest hrest)
    | later hlater =>
      exact leftAlone_append [c] (h.chunks _ _ _ (.later hlater) lead rest hsplit)

/-- A substitution that is marked goes before the first chunk. -/
theorem Division.Exact.mark {d : Division} {body : List Char} (h : d.Exact (some '\x7d'))
    (hprev : prev ≠ some '$') (hbody : body ≠ []) (hclose : '\x7d' ∉ body) :
    Division.Exact ⟨[], (body, d.lead) :: d.later⟩ prev := by
  have hlast : ∀ rest : List Char,
      ('$' :: '\x7b' :: (body ++ ['\x7d']) ++ rest).getLast?.or prev =
        rest.getLast?.or (some '\x7d') := by
    intro rest
    simp [List.getLast?_append, List.getLast?_cons]
  have hfront : ∀ front, Division.source ⟨[], (body, d.lead) :: front⟩ =
      '$' :: '\x7b' :: (body ++ ['\x7d']) ++ Division.source ⟨d.lead, front⟩ := by
    intro front
    simp [Division.source, Division.textBetween]
  constructor
  case bodies =>
    intro front other chunk back hlater
    cases front with
    | nil =>
      obtain ⟨hpair, -⟩ := List.cons.inj hlater
      obtain ⟨rfl, -⟩ := Prod.mk.inj hpair
      exact ⟨hbody, hclose, hprev⟩
    | cons part front =>
      obtain ⟨rfl, hrest⟩ := List.cons.inj hlater
      obtain ⟨hother, hfree, hescape⟩ := h.bodies front other chunk back hrest
      rw [hfront, hlast]
      exact ⟨hother, hfree, hescape⟩
  case chunks =>
    intro before chunk after hchunk lead rest hsplit
    have hpast : ∀ {text : List Char}, LeftAlone (some '\x7d') text (rest ++ after) →
        LeftAlone prev ('$' :: '\x7b' :: (body ++ ['\x7d']) ++ text) (rest ++ after) := by
      intro text hleft
      unfold LeftAlone
      rwa [hlast]
    cases hchunk with
    | lead => simp at hsplit
    | @later other chunk front back hlater =>
      cases front with
      | nil =>
        obtain ⟨hpair, rfl⟩ := List.cons.inj hlater
        obtain ⟨rfl, rfl⟩ := Prod.mk.inj hpair
        exact hpast (h.chunks _ _ _ .lead lead rest hsplit)
      | cons part front =>
        obtain ⟨rfl, hrest⟩ := List.cons.inj hlater
        rw [hfront, List.append_assoc, List.append_assoc, ← List.append_assoc _ _ lead]
        exact hpast (h.chunks _ _ _ (.later hrest) lead rest hsplit)

/-! ## The walk -/

/-- The walk marks the bodies of an exact division. -/
theorem exists_division_of_scans (h : Scans substitutionRule prev s t) :
    ∃ d : Division, d.source = s ∧ d.marked = t ∧ d.Exact prev := by
  induction h with
  | @done prev => exact ⟨⟨[], []⟩, rfl, rfl, exact_nil prev⟩
  | @keep prev c s t hnone _ ih =>
    obtain ⟨d, rfl, rfl, hexact⟩ := ih
    exact ⟨⟨c :: d.lead, d.later⟩, rfl, rfl, hexact.keep hnone⟩
  | @replace prev found matched s t hfound hlength _ ih =>
    obtain ⟨d, rfl, rfl, hexact⟩ := ih
    obtain ⟨hprev, body, rfl, hbody, hclose, rfl⟩ := exists_body_of_substitution hfound hlength
    have hlast : ('$' :: '\x7b' :: (body ++ ['\x7d'])).getLast? = some '\x7d' := by
      simp [List.getLast?_cons]
    rw [hlast] at hexact
    refine ⟨⟨[], (body, d.lead) :: d.later⟩, ?_, ?_, hexact.mark hprev hbody hclose⟩
    · simp [Division.source, Division.textBetween]
    · simp [Division.marked, Division.textBetween]

/-- Every text has a division whose marked form is the marked text. Its bodies are not empty, hold
no closing brace and are not escaped, and what its chunks hold of opening marks is escaped, empty or
never closed. -/
theorem exists_division (s : List Char) : ∃ d : Division,
    d.source = s ∧ markSubstitutions s = d.marked ∧
    (∀ front body chunk back, d.later = front ++ (body, chunk) :: back →
      (∃ after, s = Division.source ⟨d.lead, front⟩ ++
        '$' :: '\x7b' :: (body ++ '\x7d' :: (chunk ++ after))) ∧
      body ≠ [] ∧ '\x7d' ∉ body ∧
        (Division.source ⟨d.lead, front⟩).getLast? ≠ some '$') ∧
    (∀ before chunk after, d.HasChunk before chunk after →
      s = before ++ (chunk ++ after) ∧
      ∀ lead rest, chunk = lead ++ '$' :: '\x7b' :: rest →
        (before ++ lead).getLast? = some '$' ∨ (rest ++ after).head? = some '\x7d' ∨
          '\x7d' ∉ rest ++ after) := by
  obtain ⟨d, rfl, hmarked, hexact⟩ :=
    exists_division_of_scans (scans_replaceMatches substitutionRule_bounded s)
  refine ⟨d, rfl, hmarked.symm, ?_, ?_⟩
  · intro front body chunk back hlater
    have hbody := hexact.bodies front body chunk back hlater
    rw [Option.or_none] at hbody
    have hsource := (Division.HasChunk.later hlater).source_eq
    exact ⟨⟨Division.textBetween ['$', '\x7b'] ['\x7d'] back, by simpa using hsource⟩, hbody⟩
  · intro before chunk after hchunk
    refine ⟨hchunk.source_eq, fun lead rest hsplit => ?_⟩
    have hleft := hexact.chunks before chunk after hchunk lead rest hsplit
    unfold LeftAlone at hleft
    rwa [Option.or_none] at hleft

end DsdlHeaders.Template.Extended

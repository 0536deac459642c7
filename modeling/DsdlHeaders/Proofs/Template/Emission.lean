import DsdlHeaders.Proofs.Template.Nesting

/-!
# The text of a lowered template

A well-nested template is lowered to a text in which every marker has become an output or a
statement, with literal text in between.

* **`IsInert`** says what literal text must not hold: it opens no statement and no comment, not even
  together with the delimiter after it. Escaping braces makes every text inert
  (`isInert_escapeBraces`).
* **`Emission`** relates the markers in their places to a text and to the statements in it, which
  are those of the tags, one for each and in order.

Main result: lowering succeeds exactly on well-nested templates, and then gives an emission of the
markers whose statements are properly nested; otherwise the error names the line of the first
offence (`lowered_outcome`). The pieces of a template are written as an emission
(`emission_render`), and the statements of every emission close all blocks that its markers close
(`Emission.closesAll`).
-/

namespace DsdlHeaders.Template.Primitive

open Text Extended

/-! ## Inert text -/

/-- Text that opens no statement and no comment, not even together with the delimiter that comes
next, if it is `followed` by one. -/
structure IsInert (followed : Bool) (s : List Char) : Prop where
  noStatement : ¬ ['\x7b', '%'] <:+: s
  noComment : ¬ ['\x7b', '#'] <:+: s
  apart : followed = true → s.getLast? ≠ some '\x7b'

/-- The empty text is inert. -/
theorem isInert_nil (followed : Bool) : IsInert followed [] where
  noStatement := by simp
  noComment := by simp
  apart _ := by simp

/-- A pair of characters occurs at the start of a text or after it. -/
theorem pair_infix_cons_iff {a b c : Char} {s : List Char} :
    [a, b] <:+: c :: s ↔ (a = c ∧ s.head? = some b) ∨ [a, b] <:+: s := by
  rw [List.infix_cons_iff, List.cons_prefix_cons]
  cases s with
  | nil => simp
  | cons d s => simp [List.cons_prefix_cons, eq_comm]

/-- A text with one more character in front is inert if that character does not open anything
together with the next one. -/
theorem isInert_cons_iff {followed : Bool} {c : Char} {s : List Char} :
    IsInert followed (c :: s) ↔
      (c = '\x7b' → s.head? ≠ some '%' ∧ s.head? ≠ some '#' ∧ (followed = true → s ≠ [])) ∧
        IsInert followed s := by
  have hlast : s ≠ [] → (c :: s).getLast? = s.getLast? := by
    intro hs
    cases s with
    | nil => exact absurd rfl hs
    | cons d s => rw [List.getLast?_cons_cons]
  constructor
  · rintro ⟨hstatement, hcomment, hapart⟩
    rw [pair_infix_cons_iff, not_or] at hstatement hcomment
    refine ⟨?_, hstatement.2, hcomment.2, ?_⟩
    · rintro rfl
      refine ⟨fun h => hstatement.1 ⟨rfl, h⟩, fun h => hcomment.1 ⟨rfl, h⟩, ?_⟩
      rintro hfollowed rfl
      exact hapart hfollowed rfl
    · intro hfollowed hbrace
      have hs : s ≠ [] := by
        rintro rfl
        exact absurd hbrace (by simp)
      exact hapart hfollowed ((hlast hs).trans hbrace)
  · rintro ⟨hc, hs⟩
    refine ⟨?_, ?_, ?_⟩
    · rw [pair_infix_cons_iff]
      rintro (⟨rfl, hhead⟩ | hinfix)
      · exact (hc rfl).1 hhead
      · exact hs.noStatement hinfix
    · rw [pair_infix_cons_iff]
      rintro (⟨rfl, hhead⟩ | hinfix)
      · exact (hc rfl).2.1 hhead
      · exact hs.noComment hinfix
    · intro hfollowed hbrace
      by_cases hnil : s = []
      · subst hnil
        obtain rfl : c = '\x7b' := by simpa using hbrace
        exact (hc rfl).2.2 hfollowed rfl
      · exact hs.apart hfollowed ((hlast hnil).symm.trans hbrace)

/-- Inert text after inert text that keeps apart from what comes next. -/
theorem IsInert.append {followed : Bool} {lead s : List Char} (hlead : IsInert true lead)
    (hs : IsInert followed s) : IsInert followed (lead ++ s) := by
  induction lead with
  | nil => exact hs
  | cons c lead ih =>
    obtain ⟨hc, hrest⟩ := isInert_cons_iff.mp hlead
    rw [List.cons_append]
    refine isInert_cons_iff.mpr ⟨?_, ih hrest⟩
    intro hbrace
    obtain ⟨hpercent, hhash, hmore⟩ := hc hbrace
    have hne := hmore rfl
    rw [List.head?_append_of_ne_nil lead hne]
    exact ⟨hpercent, hhash, fun _ => by simp [hne]⟩

/-- What stands for an opening brace is inert. -/
theorem isInert_braceOutput : IsInert true braceOutput where
  noStatement := by decide
  noComment := by decide
  apart _ := by decide

/-- Escaping braces makes a text inert. -/
theorem isInert_escapeBraces (followed : Bool) (s : List Char) :
    IsInert followed (escapeBraces followed s) := by
  induction s with
  | nil => exact isInert_nil followed
  | cons c s ih =>
    rw [escapeBraces]
    split
    · exact isInert_braceOutput.append ih
    · rename_i hkept
      refine isInert_cons_iff.mpr ⟨?_, ih⟩
      rintro rfl
      -- The brace is kept because nothing that could complete a delimiter comes after it.
      have hstarts : startsDelimiter followed s = false := by simpa using hkept
      cases s with
      | nil =>
        obtain rfl : followed = false := hstarts
        exact ⟨by simp [escapeBraces], by simp [escapeBraces], by simp⟩
      | cons d s =>
        obtain ⟨⟨hbrace, hpercent⟩, hhash⟩ : (d ≠ '\x7b' ∧ d ≠ '%') ∧ d ≠ '#' := by
          simpa [startsDelimiter] using hstarts
        rw [escapeBraces, if_neg (by simp [hbrace])]
        exact ⟨by simpa using hpercent, by simpa using hhash, fun _ => by simp⟩

/-! ## Emissions -/

/-- The output of an expression. -/
def outputOf (expression : List Char) : List Char :=
  "\x7b\x7b ".toList ++ expression ++ " \x7d\x7d".toList

/-- A text is what markers in their places become, in order and with inert text before, between and
after them, and `statements` are what the tags among them become. -/
inductive Emission : List Placed → List (List Char) → List Char → Prop where
  | rest {literal : List Char} (hliteral : IsInert false literal) : Emission [] [] literal
  | substitution {places : List Placed} {statements : List (List Char)}
    {literal text before body expression : List Char} {around : List Block}
    (hliteral : IsInert true literal) (hbody : ∃ c ∈ body, isBlank c = false)
    (hexpression : IsTrimmed body expression) (htext : Emission places statements text) :
    Emission (⟨around, before, .substitution, some body⟩ :: places) statements
      (literal ++ outputOf expression ++ text)
  | tag {places : List Placed} {statements : List (List Char)}
    {literal statement text before content arguments : List Char} {keyword : String}
    {around : List Block} (hliteral : IsInert true literal)
    (hreads : Reads content keyword arguments)
    (hrule : TagRule around keyword arguments statement)
    (htext : Emission places statements text) :
    Emission (⟨around, before, .tag, some content⟩ :: places) (statement :: statements)
      (literal ++ statement ++ text)

/-- Inert text before an emission belongs to its literal text. -/
theorem Emission.literal {places : List Placed} {statements : List (List Char)}
    {lead text : List Char} (hlead : IsInert true lead) (h : Emission places statements text) :
    Emission places statements (lead ++ text) := by
  cases h with
  | rest hliteral => exact .rest (hlead.append hliteral)
  | substitution hliteral hbody hexpression htext =>
    rw [← List.append_assoc, ← List.append_assoc]
    exact .substitution (hlead.append hliteral) hbody hexpression htext
  | tag hliteral hreads hrule htext =>
    rw [← List.append_assoc, ← List.append_assoc]
    exact .tag (hlead.append hliteral) hreads hrule htext

/-- The markers of an emission are allowed in their places. -/
theorem Emission.isAllowed {places : List Placed} {statements : List (List Char)}
    {text : List Char} (h : Emission places statements text) :
    ∀ place ∈ places, place.IsAllowed := by
  induction h with
  | rest => exact List.forall_mem_nil _
  | substitution _ hbody _ _ ih => exact List.forall_mem_cons.mpr ⟨hbody, ih⟩
  | tag _ hreads hrule _ ih => exact List.forall_mem_cons.mpr ⟨⟨_, _, _, hreads, hrule⟩, ih⟩

/-- The statements of an emission close the blocks that its markers close, and are nested. -/
theorem Emission.closesAll {opened : List (Block × Marker)} {ms : List Marker}
    {statements : List (List Char)} {text : List Char}
    (h : Emission (placed opened ms) statements text) (hclosed : openAfter opened ms = []) :
    ClosesAll (opened.map Prod.fst) statements := by
  induction ms generalizing opened statements text with
  | nil =>
    obtain rfl : opened = [] := hclosed
    cases h with
    | rest => exact .nil
  | cons marker ms ih =>
    obtain ⟨before, kind, body⟩ := marker
    cases h with
    | substitution _ _ _ htext => exact ih htext hclosed
    | tag _ hreads hrule htext =>
      have hnested := ih htext hclosed
      rw [openNext_tag hreads] at hnested
      exact ClosesAll.tag hrule hnested

/-- Pieces that stand for markers in their places are written as an emission. -/
theorem emission_render {places : List Placed} {pieces : List Piece}
    (h : List.Forall₂ Placed.StandsFor places (pieces.filter Piece.isMarker)) :
    ∃ statements, Emission places statements (render pieces) := by
  induction pieces generalizing places with
  | nil =>
    cases h with
    | nil => exact ⟨[], .rest (isInert_nil false)⟩
  | cons piece pieces ih =>
    rw [render]
    cases hpiece : piece.isMarker with
    | false =>
      rw [List.filter_cons_of_neg (by simp [hpiece])] at h
      cases piece with
      | text s =>
        cases pieces with
        | nil =>
          cases h with
          | nil =>
            have hlast : IsInert false (renderText false s) := isInert_escapeBraces false _
            rw [render, List.append_nil]
            exact ⟨[], .rest hlast⟩
        | cons next pieces =>
          obtain ⟨statements, htext⟩ := ih h
          exact ⟨statements, htext.literal (isInert_escapeBraces true _)⟩
      | output | statement | otherwise | close => exact absurd hpiece (by simp [Piece.isMarker])
    | true =>
      rw [List.filter_cons_of_pos hpiece] at h
      cases h with
      | cons hstands hrest =>
        obtain ⟨statements, htext⟩ := ih hrest
        cases hstands with
        | substitution hbody =>
          refine ⟨statements, ?_⟩
          rw [← List.nil_append (Piece.render _ _)]
          exact .substitution (isInert_nil true) hbody (trim_eq_iff.mp rfl) htext
        | @tag _ _ _ _ statement _ _ hreads hrule hpiece =>
          refine ⟨statement :: statements, ?_⟩
          rw [← List.nil_append (Piece.render _ _), hpiece.render]
          exact .tag (isInert_nil true) hreads hrule htext

/-! ## Lowering -/

/-- A primitive template can be lowered if and only if its markers are well nested. Then the text it
gives is an emission of the markers in their places: it holds a statement for every tag, in order,
the one of an `end` closing the innermost block that is open before it, and these statements are
properly nested. Otherwise the error names the line of the first offence. -/
theorem lowered_outcome (source : List Char) :
    ((∃ text, lowered source = .ok text) ↔ WellNested (markers source)) ∧
      match lowered source with
      | .ok text => ∃ statements,
          Emission (placed [] (markers source)) statements text ∧ IsNested false statements
      | .error error => IsFirstOffence [] (markers source) error.line := by
  have houtcome := lower_outcome source
  unfold lowered
  cases hlower : lower source with
  | ok pieces =>
    rw [hlower] at houtcome
    obtain ⟨statements, hemission⟩ := emission_render houtcome.standFor
    refine ⟨⟨fun _ => ⟨?_, houtcome.closed⟩, fun _ => ⟨render pieces, rfl⟩⟩, ?_⟩
    · exact hemission.isAllowed
    · exact ⟨statements, hemission, hemission.closesAll houtcome.closed⟩
  | error error =>
    rw [hlower] at houtcome
    refine ⟨⟨?_, fun h => absurd houtcome (h.not_isFirstOffence error.line)⟩, houtcome⟩
    rintro ⟨text, htext⟩
    exact absurd htext (by simp [Except.map])

/-- A definition with a loop and a condition in it, each with an end of its own. -/
def nestedBlocks : List Char :=
  ("<!--(macro show( t ))-->\n<!--(for f in t.fields)-->\n<!--(if f.name)-->$!f.name!$" ++
    "<!--(elif f.width)-->\x7b%\x7b<!--(else)-->_<!--(end)-->;\n<!--(end)-->\n" ++
    "<!--(end)-->\n").toList

/-- The same blocks in statement notation. -/
def nestedStatements : List Char :=
  ("\x7b% macro show(t) %\x7d\x7b% for f in t.fields %\x7d\x7b% if f.name %\x7d" ++
    "\x7b\x7b f.name \x7d\x7d\x7b% elif f.width %\x7d\x7b\x7b \"\x7b\" \x7d\x7d%" ++
    "\x7b\x7b \"\x7b\" \x7d\x7d\x7b% else %\x7d_\x7b% endif %\x7d;\n" ++
    "\x7b% endfor %\x7d\x7b% endmacro %\x7d").toList

/-- A loop with an alternative in it, which belongs to no condition. -/
def strayAlternative : List Char :=
  "a\n<!--(for f in t.fields)-->\n$!f.name!$\n<!--(else)-->\n<!--(end)-->\n".toList

/-- Three ends close the condition, the loop and the definition around them. A stray alternative is
the first offence of its template, on line four. -/
theorem lowered_outcome_nestedBlocks :
    (lowered nestedBlocks = .ok nestedStatements ∧ WellNested (markers nestedBlocks) ∧
      ∃ statements, Emission (placed [] (markers nestedBlocks)) statements nestedStatements ∧
        IsNested false statements) ∧
    lowered strayAlternative = .error ⟨4, .outsideCondition "else"⟩ ∧
      ¬ WellNested (markers strayAlternative) ∧
      IsFirstOffence [] (markers strayAlternative) 4 := by
  have hnested : lowered nestedBlocks = .ok nestedStatements := by decide +kernel
  have hstray : lowered strayAlternative = .error ⟨4, .outsideCondition "else"⟩ := by
    decide +kernel
  refine ⟨⟨hnested, ?_, ?_⟩, hstray, ?_, ?_⟩
  · exact (lowered_outcome nestedBlocks).1.mp ⟨nestedStatements, hnested⟩
  · have houtcome := (lowered_outcome nestedBlocks).2
    rwa [hnested] at houtcome
  · intro hwell
    obtain ⟨text, htext⟩ := (lowered_outcome strayAlternative).1.mpr hwell
    exact absurd (hstray.symm.trans htext) (by simp)
  · have houtcome := (lowered_outcome strayAlternative).2
    rwa [hstray] at houtcome

end DsdlHeaders.Template.Primitive

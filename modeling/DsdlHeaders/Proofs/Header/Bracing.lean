import DsdlHeaders.Header.Normal
import DsdlHeaders.Proofs.Text.Marks
import DsdlHeaders.Proofs.Text.Parts
import DsdlHeaders.Template.Library

/-!
# Braces and name space lines of a text

What of a header can be told by reading it from the left, one part after the other.

* **Braces.** `depthAfter` counts the open braces and refuses a brace that closes none. A text that
  it reads from no open brace to none has matching braces (`bracesMatch_of_depthAfter`).
* **Lines of name spaces.** `startAfter` keeps track of where a line starts. It refuses a line that
  looks like one that opens or closes a name space, as far as the text goes, so that nothing which
  is put behind the text can turn its last line into one. A text that it reads from the start of a
  line to the start of a line adds no line of a name space (`spaceLines_append`).
* **Parts.** A text that is joined from fixed texts and from variable ones is read by what is known
  of each: an inline text stays on its line, a block is made of whole lines with matching braces.
  `leads_join` reduces the joined text to a computation over the kinds of its parts.
-/

namespace DsdlHeaders.Layout

/-! ## Braces -/

/-- As many braces are closed as are opened, and none is closed before it is opened. -/
structure BracesMatch (s : List Char) : Prop where
  equal : s.count '\x7b' = s.count '\x7d'
  ordered : ∀ front, front <+: s → front.count '\x7d' ≤ front.count '\x7b'

/-- How many braces are open after a text when so many are open before it; none if a brace closes
nothing. -/
def depthAfter : Nat → List Char → Option Nat
  | depth, [] => some depth
  | depth, c :: s =>
    if c = '\x7b' then depthAfter (depth + 1) s
    else if c = '\x7d' then
      match depth with
      | 0 => none
      | depth + 1 => depthAfter depth s
    else depthAfter depth s

/-- An opening brace. -/
theorem depthAfter_open (depth : Nat) (s : List Char) :
    depthAfter depth ('\x7b' :: s) = depthAfter (depth + 1) s :=
  rfl

/-- A closing brace. -/
theorem depthAfter_close (depth : Nat) (s : List Char) :
    depthAfter (depth + 1) ('\x7d' :: s) = depthAfter depth s :=
  rfl

/-- Any other character. -/
theorem depthAfter_cons {c : Char} (hopen : c ≠ '\x7b') (hclose : c ≠ '\x7d') (depth : Nat)
    (s : List Char) : depthAfter depth (c :: s) = depthAfter depth s := by
  rw [depthAfter.eq_def]
  simp only [if_neg hopen, if_neg hclose]

/-- A text is read part by part. -/
theorem depthAfter_append (depth : Nat) (s t : List Char) :
    depthAfter depth (s ++ t) = (depthAfter depth s).bind (depthAfter · t) := by
  induction s generalizing depth with
  | nil => rfl
  | cons c s ih =>
    by_cases hopen : c = '\x7b'
    · subst hopen
      exact ih _
    · by_cases hclose : c = '\x7d'
      · subst hclose
        cases depth with
        | zero => rfl
        | succ depth => exact ih _
      · rw [List.cons_append, depthAfter_cons hopen hclose, depthAfter_cons hopen hclose, ih]

/-- Braces that are open around a text stay open. -/
theorem depthAfter_add {depth after : Nat} {s : List Char} (h : depthAfter depth s = some after)
    (around : Nat) : depthAfter (depth + around) s = some (after + around) := by
  induction s generalizing depth with
  | nil =>
    obtain rfl := Option.some.inj h
    rfl
  | cons c s ih =>
    by_cases hopen : c = '\x7b'
    · subst hopen
      rw [depthAfter_open] at h ⊢
      rw [Nat.add_right_comm]
      exact ih h
    · by_cases hclose : c = '\x7d'
      · subst hclose
        cases depth with
        | zero => exact absurd h (by simp [depthAfter])
        | succ depth =>
          rw [depthAfter_close] at h
          rw [Nat.add_right_comm, depthAfter_close]
          exact ih h
      · rw [depthAfter_cons hopen hclose] at h ⊢
        exact ih h

/-- The braces of a text make up for the difference in depth. -/
theorem count_of_depthAfter {depth after : Nat} {s : List Char}
    (h : depthAfter depth s = some after) :
    depth + s.count '\x7b' = after + s.count '\x7d' := by
  induction s generalizing depth with
  | nil =>
    obtain rfl := Option.some.inj h
    rfl
  | cons c s ih =>
    by_cases hopen : c = '\x7b'
    · subst hopen
      have hrest := ih h
      simp only [List.count_cons_self, List.count_cons_of_ne (show '\x7b' ≠ '\x7d' by decide)]
      omega
    · by_cases hclose : c = '\x7d'
      · subst hclose
        cases depth with
        | zero => exact absurd h (by simp [depthAfter])
        | succ depth =>
          have hrest := ih h
          simp only [List.count_cons_self, List.count_cons_of_ne (show '\x7d' ≠ '\x7b' by decide)]
          omega
      · rw [depthAfter_cons hopen hclose] at h
        rw [List.count_cons_of_ne hopen, List.count_cons_of_ne hclose]
        exact ih h

/-- A text that is read from no open brace to none has matching braces. -/
theorem bracesMatch_of_depthAfter {s : List Char} (h : depthAfter 0 s = some 0) :
    BracesMatch s := by
  constructor
  · have hcount := count_of_depthAfter h
    omega
  · rintro front ⟨rest, rfl⟩
    rw [depthAfter_append] at h
    obtain ⟨depth, hfront, -⟩ := Option.bind_eq_some_iff.mp h
    have hcount := count_of_depthAfter hfront
    omega

/-! ## Lines of name spaces -/

/-- How the lines start that open and that close a name space. -/
def spaceMarks : List (List Char) :=
  ["namespace ".toList, "\x7d // Namespace ".toList]

/-- Does a line open or close a name space? -/
def isSpaceLine (line : List Char) : Bool :=
  spaceMarks.any fun mark => Text.startsWith mark line

/-- The lines of a text that open or close name spaces. -/
def spaceLines (s : List Char) : List (List Char) :=
  (textLines s).filter isSpaceLine

/-- May a text at the start of a line begin a line of a name space, as far as it goes? -/
def mayStartSpace (s : List Char) : Bool :=
  spaceMarks.any fun mark => Text.startsWith mark s || Text.startsWith s mark

/-- Whether a line starts after a text when one starts before it or not; none if a line of the text
may be one of a name space. -/
def startAfter : Bool → List Char → Option Bool
  | atStart, [] => some atStart
  | atStart, c :: s =>
    if atStart && mayStartSpace (c :: s) then none else startAfter (c == '\n') s

/-- What is put behind a text makes no line of a name space of it. -/
theorem isSpaceLine_of_prefix {c : Char} {s t line : List Char}
    (h : mayStartSpace (c :: s) = false) (hline : line <+: c :: (s ++ t)) :
    isSpaceLine line = false := by
  rw [isSpaceLine, List.any_eq_false]
  intro mark hmark hstart
  have hnone := List.any_eq_false.mp h mark hmark
  rw [Bool.or_eq_true, Text.startsWith_iff, Text.startsWith_iff] at hnone
  have hwhole : mark <+: (c :: s) ++ t := (Text.startsWith_iff.mp hstart).trans hline
  exact hnone (List.prefix_or_prefix_of_prefix hwhole (List.prefix_append _ _))

/-- A text that may not begin a line of a name space still may not when more text follows. -/
theorem mayStartSpace_append {c : Char} {s : List Char} (h : mayStartSpace (c :: s) = false)
    (t : List Char) : mayStartSpace (c :: (s ++ t)) = false := by
  rw [mayStartSpace, List.any_eq_false]
  intro mark hmark hmay
  rw [Bool.or_eq_true, Text.startsWith_iff, Text.startsWith_iff] at hmay
  have hnone := List.any_eq_false.mp h mark hmark
  rw [Bool.or_eq_true, Text.startsWith_iff, Text.startsWith_iff] at hnone
  have hshort : c :: s <+: c :: (s ++ t) := List.prefix_append (c :: s) t
  rcases hmay with hmark | hlonger
  · exact hnone (List.prefix_or_prefix_of_prefix hmark hshort)
  · exact hnone (.inr (hshort.trans hlonger))

/-- What a step over one character says about it. -/
theorem startAfter_cons_eq_some {atStart after : Bool} {c : Char} {s : List Char}
    (h : startAfter atStart (c :: s) = some after) :
    (atStart = true → mayStartSpace (c :: s) = false) ∧ startAfter (c == '\n') s = some after := by
  unfold startAfter at h
  split at h
  · exact absurd h (by simp)
  · rename_i hmay
    exact ⟨fun hstart => by simpa [hstart] using hmay, h⟩

/-- A text is read part by part. -/
theorem startAfter_append {atStart after : Bool} {s : List Char}
    (h : startAfter atStart s = some after) (t : List Char) :
    startAfter atStart (s ++ t) = startAfter after t := by
  induction s generalizing atStart with
  | nil =>
    obtain rfl := Option.some.inj h
    rfl
  | cons c s ih =>
    obtain ⟨hmay, hrest⟩ := startAfter_cons_eq_some h
    rw [List.cons_append, startAfter, if_neg, ih hrest]
    rw [Bool.and_eq_true, not_and]
    intro hstart
    rw [mayStartSpace_append (hmay hstart)]
    exact Bool.false_ne_true

/-- The lines of name spaces among all parts of a text between its line feeds. -/
theorem spaceLines_eq (s : List Char) :
    spaceLines s = (Text.splitOn '\n' s).filter isSpaceLine := by
  unfold spaceLines textLines
  dsimp only
  split
  · rename_i hlast
    -- The last part is empty, and so it is no line of a name space.
    obtain ⟨parts, hparts⟩ := List.getLast?_eq_some_iff.mp hlast
    rw [hparts, List.dropLast_concat, List.filter_append]
    exact (List.append_nil _).symm
  · rfl

/-- A whole line in front of a text. -/
theorem spaceLines_line {line : List Char} (h : '\n' ∉ line) (t : List Char) :
    spaceLines (line ++ '\n' :: t) = [line].filter isSpaceLine ++ spaceLines t := by
  rw [spaceLines_eq, spaceLines_eq, Text.splitOn_append_cons, Text.splitOn_of_not_mem h,
    List.filter_append]

/-- The first part of a split text stands in front of it. -/
theorem prefix_of_splitOn {sep : Char} {s part : List Char} {parts : List (List Char)}
    (h : Text.splitOn sep s = part :: parts) : part <+: s := by
  rw [← Text.joinWith_splitOn sep s, h]
  cases parts with
  | nil => exact List.prefix_refl part
  | cons next parts =>
    rw [Text.joinWith_cons (by simp), List.append_assoc]
    exact List.prefix_append part _

/-- The lines of a text that start in it or right in front of it. -/
def startedLines (atStart : Bool) (s : List Char) : List (List Char) :=
  if atStart then Text.splitOn '\n' s else (Text.splitOn '\n' s).tail

/-- A text that ends where a line starts holds no line of a name space, whatever follows it. -/
theorem filter_startedLines {atStart : Bool} {s : List Char}
    (h : startAfter atStart s = some true) (t : List Char) :
    (startedLines atStart (s ++ t)).filter isSpaceLine =
      (startedLines true t).filter isSpaceLine := by
  induction s generalizing atStart with
  | nil =>
    obtain rfl := Option.some.inj h
    rfl
  | cons c s ih =>
    obtain ⟨hmay, hrest⟩ := startAfter_cons_eq_some h
    have hrest := ih hrest
    by_cases hend : c = '\n'
    · subst hend
      rw [← hrest]
      cases atStart <;> simp [startedLines, Text.splitOn, isSpaceLine, spaceMarks, Text.startsWith,
        Text.after?]
    · obtain ⟨part, parts, hparts, hsplit⟩ := Text.splitOn_cons_of_ne hend (s ++ t)
      rw [beq_false_of_ne hend] at hrest
      rw [← hrest]
      cases atStart with
      | false => simp [startedLines, hparts, hsplit]
      | true =>
        have hfirst : isSpaceLine (c :: part) = false :=
          isSpaceLine_of_prefix (hmay rfl) (prefix_of_splitOn hsplit)
        simp [startedLines, hparts, hsplit, hfirst]

/-- A text of whole lines that passes adds no line of a name space. -/
theorem spaceLines_append {s : List Char} (h : startAfter true s = some true) (t : List Char) :
    spaceLines (s ++ t) = spaceLines t := by
  rw [spaceLines_eq, spaceLines_eq]
  exact filter_startedLines h t

/-! ## Places -/

/-- Where a reader stands: inside so many open braces, and at the start of a line or not. -/
structure Place where
  depth : Nat
  atStart : Bool
deriving DecidableEq

/-- A text that is read from one place to another. -/
structure Leads (before after : Place) (text : String) : Prop where
  depth : depthAfter before.depth text.toList = some after.depth
  start : startAfter before.atStart text.toList = some after.atStart

/-- Texts are read one after the other. -/
theorem Leads.append {first second third : Place} {text next : String}
    (htext : Leads first second text) (hnext : Leads second third next) :
    Leads first third (text ++ next) := by
  constructor
  · rw [String.toList_append, depthAfter_append, htext.depth]
    exact hnext.depth
  · rw [String.toList_append, startAfter_append htext.start]
    exact hnext.start

/-- Nothing leads nowhere. -/
theorem Leads.empty (place : Place) : Leads place place "" :=
  ⟨rfl, rfl⟩

/-- The outermost place at the start of a line. -/
def outermost : Place := ⟨0, true⟩

/-- A text of whole lines with matching braces, none of them a line of a name space. -/
def IsBlock (text : String) : Prop :=
  Leads outermost outermost text

/-- A text of lines like those of a block, but for the last one: nothing ends it yet. -/
def IsOpenBlock (text : String) : Prop :=
  Leads outermost ⟨0, false⟩ text

/-- A text without braces that stays on its line. -/
def IsInline (text : String) : Prop :=
  ∀ c ∈ text.toList, c ≠ '\x7b' ∧ c ≠ '\x7d' ∧ c ≠ '\n'

instance (text : String) : Decidable (IsInline text) :=
  List.decidableBAll _ text.toList

/-- Inline texts may be put together. -/
theorem isInline_append {s t : String} : IsInline (s ++ t) ↔ IsInline s ∧ IsInline t := by
  rw [IsInline, String.toList_append, List.forall_mem_append]
  rfl

/-- An inline text leads to where it starts, unless that is the start of a line. -/
theorem IsInline.leads {text : String} (h : IsInline text) (depth : Nat) :
    Leads ⟨depth, false⟩ ⟨depth, false⟩ text := by
  suffices hchars : ∀ s : List Char, (∀ c ∈ s, c ≠ '\x7b' ∧ c ≠ '\x7d' ∧ c ≠ '\n') →
      depthAfter depth s = some depth ∧ startAfter false s = some false by
    exact ⟨(hchars text.toList h).1, (hchars text.toList h).2⟩
  intro s hs
  induction s with
  | nil => exact ⟨rfl, rfl⟩
  | cons c s ih =>
    obtain ⟨⟨hopen, hclose, hend⟩, hs⟩ := List.forall_mem_cons.mp hs
    rw [depthAfter_cons hopen hclose, startAfter, Bool.false_and, if_neg Bool.false_ne_true,
      beq_false_of_ne hend]
    exact ih hs

/-- A text leads the same way inside more braces. -/
theorem Leads.inside {before after : Place} {text : String} (h : Leads before after text)
    (around : Nat) :
    Leads ⟨before.depth + around, before.atStart⟩ ⟨after.depth + around, after.atStart⟩ text :=
  ⟨depthAfter_add h.depth around, h.start⟩

/-- A block changes no depth. -/
theorem IsBlock.depthAfter_skip {text : String} (h : IsBlock text) (depth : Nat)
    (rest : List Char) : depthAfter depth (text.toList ++ rest) = depthAfter depth rest := by
  have hdepth := depthAfter_add h.depth depth
  rw [outermost, Nat.zero_add] at hdepth
  rw [depthAfter_append, hdepth, Option.bind_some]

/-- A block adds no line of a name space. -/
theorem IsBlock.spaceLines_skip {text : String} (h : IsBlock text) (rest : List Char) :
    spaceLines (text.toList ++ rest) = spaceLines rest :=
  spaceLines_append h.start rest

/-! ## Parts -/

/-- What is known of a part of a joined text. -/
inductive Part where
  | fixed (text : List Char)
  | inline
  | block
  | openBlock

/-- Texts of the given kinds, in this order. -/
inductive Composed : List Part → List String → Prop
  | nil : Composed [] []
  | fixed {parts : List Part} {texts : List String} (text : List Char)
      (rest : Composed parts texts) : Composed (.fixed text :: parts) (String.ofList text :: texts)
  | inline {parts : List Part} {texts : List String} {text : String} (inline : IsInline text)
      (rest : Composed parts texts) : Composed (.inline :: parts) (text :: texts)
  | block {parts : List Part} {texts : List String} {text : String} (block : IsBlock text)
      (rest : Composed parts texts) : Composed (.block :: parts) (text :: texts)
  | openBlock {parts : List Part} {texts : List String} {text : String} (block : IsOpenBlock text)
      (rest : Composed parts texts) : Composed (.openBlock :: parts) (text :: texts)

/-- Where a part leads to. Blocks have to start where a line starts, and inline texts must not. -/
def Part.after (place : Place) : Part → Option Place
  | .fixed text =>
    match depthAfter place.depth text, startAfter place.atStart text with
    | some depth, some atStart => some ⟨depth, atStart⟩
    | _, _ => none
  | .inline => if place.atStart then none else some place
  | .block => if place.atStart then some place else none
  | .openBlock => if place.atStart then some ⟨place.depth, false⟩ else none

/-- A fixed text leads where it is read to. -/
theorem Part.leads_fixed {text : List Char} {before after : Place}
    (h : (Part.fixed text).after before = some after) :
    Leads before after (String.ofList text) := by
  simp only [Part.after] at h
  split at h
  · rename_i hdepth hstart
    obtain rfl := Option.some.inj h
    constructor
    · rw [String.toList_ofList, hdepth]
    · rw [String.toList_ofList, hstart]
  · exact absurd h (by simp)

/-- An inline text leads nowhere. -/
theorem Part.leads_inline {text : String} (htext : IsInline text) {before after : Place}
    (h : Part.inline.after before = some after) : Leads before after text := by
  obtain ⟨depth, _ | _⟩ := before
  · obtain rfl := Option.some.inj h
    exact htext.leads depth
  · exact absurd h (by simp [Part.after])

/-- A block leads nowhere, inside any braces. -/
theorem Part.leads_block {text : String} (htext : IsBlock text) {before after : Place}
    (h : Part.block.after before = some after) : Leads before after text := by
  obtain ⟨depth, _ | _⟩ := before
  · exact absurd h (by simp [Part.after])
  · obtain rfl := Option.some.inj h
    simpa [outermost] using htext.inside depth

/-- An open block leads into its last line. -/
theorem Part.leads_openBlock {text : String} (htext : IsOpenBlock text) {before after : Place}
    (h : Part.openBlock.after before = some after) : Leads before after text := by
  obtain ⟨depth, _ | _⟩ := before
  · exact absurd h (by simp [Part.after])
  · obtain rfl := Option.some.inj h
    simpa [outermost] using htext.inside depth

/-- A joined text leads where its parts lead, one after the other. -/
theorem leads_join {parts : List Part} {texts : List String} {before after : Place}
    (htexts : Composed parts texts) (h : parts.foldlM Part.after before = some after) :
    Leads before after (String.join texts) := by
  induction htexts generalizing before with
  | nil =>
    obtain rfl := Option.some.inj h
    exact Leads.empty before
  | fixed text _ ih =>
    obtain ⟨place, hplace, hrest⟩ := Option.bind_eq_some_iff.mp h
    rw [String.join_cons]
    exact (Part.leads_fixed hplace).append (ih hrest)
  | inline htext _ ih =>
    obtain ⟨place, hplace, hrest⟩ := Option.bind_eq_some_iff.mp h
    rw [String.join_cons]
    exact (Part.leads_inline htext hplace).append (ih hrest)
  | block htext _ ih =>
    obtain ⟨place, hplace, hrest⟩ := Option.bind_eq_some_iff.mp h
    rw [String.join_cons]
    exact (Part.leads_block htext hplace).append (ih hrest)
  | openBlock htext _ ih =>
    obtain ⟨place, hplace, hrest⟩ := Option.bind_eq_some_iff.mp h
    rw [String.join_cons]
    exact (Part.leads_openBlock htext hplace).append (ih hrest)

/-- A text is a block when its parts lead back to where they start. -/
theorem Composed.isBlock {parts : List Part} {texts : List String} (htexts : Composed parts texts)
    (h : parts.foldlM Part.after outermost = some outermost) : IsBlock (String.join texts) :=
  leads_join htexts h

/-- A fixed text is a block when it leads back to where it starts. -/
theorem isBlock_fixed (text : List Char)
    (h : (Part.fixed text).after outermost = some outermost) : IsBlock (String.ofList text) :=
  Part.leads_fixed h

/-- Nothing is a block. -/
theorem isBlock_empty : IsBlock "" :=
  Leads.empty outermost

/-- Joined blocks are a block. -/
theorem isBlock_join {texts : List String} (h : ∀ text ∈ texts, IsBlock text) :
    IsBlock (String.join texts) := by
  induction texts with
  | nil => exact isBlock_empty
  | cons text texts ih =>
    obtain ⟨htext, htexts⟩ := List.forall_mem_cons.mp h
    rw [String.join_cons]
    exact Leads.append htext (ih htexts)

/-- The blocks of the items of a list are a block together. -/
theorem isBlock_join_map {α : Type} {block : α → String} {items : List α}
    (h : ∀ item ∈ items, IsBlock (block item)) : IsBlock (String.join (items.map block)) := by
  apply isBlock_join
  intro text htext
  obtain ⟨item, hitem, rfl⟩ := List.mem_map.mp htext
  exact h item hitem

/-! ## Indented texts -/

/-- Indenting changes no brace. -/
theorem depthAfter_replaceChar (depth : Nat) (s : List Char) :
    depthAfter depth (Text.replaceChar '\n' ('\n' :: Template.defaultIndent.toList) s) =
      depthAfter depth s := by
  induction s generalizing depth with
  | nil => rfl
  | cons c s ih =>
    rw [Text.replaceChar, depthAfter_append]
    by_cases hend : c = '\n'
    · subst hend
      rw [if_pos rfl]
      exact ih depth
    · have hcons : depthAfter depth (c :: s) = (depthAfter depth [c]).bind (depthAfter · s) :=
        depthAfter_append depth [c] s
      rw [if_neg hend, hcons]
      simp only [ih]

/-- Inside an indented text no line starts but with the indent. -/
theorem startAfter_replaceChar (s : List Char) :
    startAfter false (Text.replaceChar '\n' ('\n' :: Template.defaultIndent.toList) s) =
      some false := by
  have hindent : startAfter false ('\n' :: Template.defaultIndent.toList) = some false := by
    decide
  induction s with
  | nil => rfl
  | cons c s ih =>
    rw [Text.replaceChar]
    by_cases hend : c = '\n'
    · rw [if_pos hend, startAfter_append hindent]
      exact ih
    · have hchar : startAfter false [c] = some false := by
        rw [startAfter, Bool.false_and, if_neg Bool.false_ne_true, beq_false_of_ne hend]
        rfl
      rw [if_neg hend, startAfter_append hchar]
      exact ih

/-- An indented block ends with an indent. -/
theorem IsBlock.indented {text : String} (h : IsBlock text) :
    IsOpenBlock (Template.indented Template.defaultIndent text) := by
  have hindent : Leads outermost ⟨0, false⟩ Template.defaultIndent :=
    ⟨by decide, by decide⟩
  constructor
  · rw [Template.indented, String.toList_ofList, depthAfter_append, hindent.depth,
      Option.bind_some, depthAfter_replaceChar]
    exact h.depth
  · rw [Template.indented, String.toList_ofList, startAfter_append hindent.start]
    exact startAfter_replaceChar text.toList

end DsdlHeaders.Layout

import DsdlHeaders.Proofs.Template.Markers
import DsdlHeaders.Proofs.Text.Parts
import DsdlHeaders.Proofs.Text.Trimming

/-!
# Well-nested templates

Which primitive templates can be lowered, and what their tags stand for, is said here over their
markers alone.

* **`Reads`** says what the keyword and the arguments of a tag are, and determines them
  (`keywordOf_trim_eq_iff`).
* **`TagRule`** lists the tags: what each asks of its arguments and of the blocks around it, and the
  text of the statement it stands for. An `end` stands for the statement that closes the innermost
  open block, `endfor`, `endif` or `endmacro`.
* **`placed`** puts every marker beside the blocks that are open before it, and `openAfter` says
  which blocks remain. A list of markers is `WellNested` if every marker `IsAllowed` in its place
  and no block remains.
* **`IsNested`** is the grammar of statements: the statement that closes a block is its own, and
  alternatives stand directly inside a condition.

Main statement: lowering gives a piece for every marker in its place and leaves no block open, or
names the line of the first offence (`lower_outcome`). It rests on one lemma for a marker
(`lowerFrom_segment`) and an induction over the segments.
-/

namespace DsdlHeaders.Template.Primitive

open Text Extended

/-! ## Statements -/

/-- The statement that opens a block. -/
def openingStatement : Block → List Char → List Char
  | .loop, arguments => "\x7b% for ".toList ++ arguments ++ " %\x7d".toList
  | .condition, arguments => "\x7b% if ".toList ++ arguments ++ " %\x7d".toList
  | .definition, arguments => "\x7b% macro ".toList ++ arguments ++ " %\x7d".toList

/-- The statement that closes a block. -/
def closingStatement : Block → List Char
  | .loop => "\x7b% endfor %\x7d".toList
  | .condition => "\x7b% endif %\x7d".toList
  | .definition => "\x7b% endmacro %\x7d".toList

/-- The statement of an alternative with a condition of its own. -/
def alternativeStatement (arguments : List Char) : List Char :=
  "\x7b% elif ".toList ++ arguments ++ " %\x7d".toList

/-- The statement of an alternative without a condition. -/
def otherwiseStatement : List Char :=
  "\x7b% else %\x7d".toList

/-- The statement of an assignment. -/
def assignmentStatement (arguments : List Char) : List Char :=
  "\x7b% set ".toList ++ arguments ++ " %\x7d".toList

/-! ## The rules for tags -/

/-- The content of a tag is a keyword, which holds no blank characters, and arguments after blank
characters, if there are any; what is blank around them does not count. -/
def Reads (content : List Char) (keyword : String) (arguments : List Char) : Prop :=
  ∃ gap, IsTrimmed content (keyword.toList ++ gap ++ arguments) ∧
    (∀ c ∈ keyword.toList, isBlank c = false) ∧ (∀ c ∈ gap, isBlank c = true) ∧
    (∀ c ∈ arguments.head?, isBlank c = false) ∧ (gap = [] → arguments = [])

/-- The arguments of a definition: a name, with or without parameters between parentheses. -/
inductive Declares : List Char → List Char → List Char → Prop where
  | bare {name : List Char} (hname : Text.isIdentifier name = true) : Declares name name []
  | listed {lead inner name parameters : List Char} (hname : Text.isIdentifier name = true)
    (hparen : '(' ∉ lead) (hlead : IsTrimmed lead name) (hinner : IsTrimmed inner parameters) :
    Declares (lead ++ '(' :: (inner ++ [')'])) name parameters

/-- The block that a tag opens. -/
def opens? : String → Option Block
  | "for" => some .loop
  | "if" => some .condition
  | "macro" => some .definition
  | _ => none

/-- Where `blocks` are open, innermost first, the tag with this keyword and these arguments is
allowed and stands for the statement. -/
inductive TagRule (blocks : List Block) : String → List Char → List Char → Prop where
  | loop {arguments : List Char} (hin : [' ', 'i', 'n', ' '] <:+: arguments) :
    TagRule blocks "for" arguments (openingStatement .loop arguments)
  | condition {arguments : List Char} (hne : arguments ≠ []) :
    TagRule blocks "if" arguments (openingStatement .condition arguments)
  | alternative {arguments : List Char} (hne : arguments ≠ [])
    (hinside : blocks.head? = some .condition) :
    TagRule blocks "elif" arguments (alternativeStatement arguments)
  | otherwise (hinside : blocks.head? = some .condition) :
    TagRule blocks "else" [] otherwiseStatement
  | definition {arguments name parameters : List Char}
    (hdeclares : Declares arguments name parameters) :
    TagRule blocks "macro" arguments
      (openingStatement .definition (name ++ ['('] ++ parameters ++ [')']))
  | assignment {arguments : List Char} (hequals : '=' ∈ arguments) :
    TagRule blocks "set" arguments (assignmentStatement arguments)
  | close {block : Block} (hinnermost : blocks.head? = some block) :
    TagRule blocks "end" [] (closingStatement block)

/-- The blocks that are open after a tag, each with the place of its own tag. -/
def stepped {α : Type} (keyword : String) (here : α) (blocks : List (Block × α)) :
    List (Block × α) :=
  match opens? keyword with
  | some block => (block, here) :: blocks
  | none => if keyword = "end" then blocks.tail else blocks

/-! ## Markers in their places -/

/-- The blocks that are open after a marker. -/
def Marker.openNext (opened : List (Block × Marker)) (marker : Marker) : List (Block × Marker) :=
  match marker.kind, marker.body with
  | .tag, some content => stepped (keywordOf (trim content)).1 marker opened
  | _, _ => opened

/-- The blocks that are open after markers, innermost first, each with the marker of its tag. -/
def openAfter (opened : List (Block × Marker)) (ms : List Marker) : List (Block × Marker) :=
  ms.foldl Marker.openNext opened

/-- A marker and the blocks that are open before it, innermost first. -/
structure Placed where
  around : List Block
  marker : Marker

/-- Markers with the blocks that are open before each of them. -/
def placed (opened : List (Block × Marker)) : List Marker → List Placed
  | [] => []
  | marker :: ms => ⟨opened.map Prod.fst, marker⟩ :: placed (marker.openNext opened) ms

/-- A marker is closed, a substitution is not blank, and a tag follows its rule. -/
def Placed.IsAllowed (place : Placed) : Prop :=
  match place.marker.kind, place.marker.body with
  | _, none => False
  | .substitution, some body => ∃ c ∈ body, isBlank c = false
  | .tag, some content =>
    ∃ keyword arguments statement,
      Reads content keyword arguments ∧ TagRule place.around keyword arguments statement

/-- Every marker is allowed in its place, and no block is left open. -/
def WellNested (ms : List Marker) : Prop :=
  (∀ place ∈ placed [] ms, place.IsAllowed) ∧ openAfter [] ms = []

/-- The line of the first marker that is not allowed in its place or, if all are allowed, of the tag
of the innermost block left open. -/
def IsFirstOffence (opened : List (Block × Marker)) (ms : List Marker) (line : Nat) : Prop :=
  (∃ earlier place later, placed opened ms = earlier ++ place :: later ∧
    (∀ p ∈ earlier, p.IsAllowed) ∧ ¬ place.IsAllowed ∧ line = place.marker.line) ∨
  (∀ p ∈ placed opened ms, p.IsAllowed) ∧
    ∃ block marker outer, openAfter opened ms = (block, marker) :: outer ∧ line = marker.line

/-! ## Properly nested statements -/

/-- Properly nested statements. `inside` says whether they stand directly inside a condition. -/
inductive IsNested : Bool → List (List Char) → Prop where
  | nil {inside : Bool} : IsNested inside []
  | assignment {inside : Bool} {arguments : List Char} {rest : List (List Char)}
    (hrest : IsNested inside rest) : IsNested inside (assignmentStatement arguments :: rest)
  | alternative {arguments : List Char} {rest : List (List Char)} (hrest : IsNested true rest) :
    IsNested true (alternativeStatement arguments :: rest)
  | otherwise {rest : List (List Char)} (hrest : IsNested true rest) :
    IsNested true (otherwiseStatement :: rest)
  | block {inside : Bool} {block : Block} {arguments : List Char} {body rest : List (List Char)}
    (hbody : IsNested (block == .condition) body) (hrest : IsNested inside rest) :
    IsNested inside
      (openingStatement block arguments :: (body ++ closingStatement block :: rest))

/-- Statements that close the open blocks one after the other and are nested around that. -/
def ClosesAll : List Block → List (List Char) → Prop
  | [], statements => IsNested false statements
  | block :: blocks, statements => ∃ body rest,
      statements = body ++ closingStatement block :: rest ∧
        IsNested (block == .condition) body ∧ ClosesAll blocks rest

/-- In front of statements, one can put whatever keeps the innermost block nested. -/
theorem ClosesAll.cons {blocks : List Block} {statement : List Char}
    {statements : List (List Char)}
    (h : ∀ inner, IsNested (blocks.head? == some .condition) inner →
      IsNested (blocks.head? == some .condition) (statement :: inner))
    (hstatements : ClosesAll blocks statements) : ClosesAll blocks (statement :: statements) := by
  cases blocks with
  | nil => exact h statements hstatements
  | cons block blocks =>
    obtain ⟨body, rest, rfl, hbody, hrest⟩ := hstatements
    exact ⟨statement :: body, rest, rfl, h body hbody, hrest⟩

/-- A statement that opens a block, before statements that close that block first. -/
theorem ClosesAll.opening {blocks : List Block} {block : Block} {arguments : List Char}
    {statements : List (List Char)} (h : ClosesAll (block :: blocks) statements) :
    ClosesAll blocks (openingStatement block arguments :: statements) := by
  obtain ⟨body, rest, rfl, hbody, hrest⟩ := h
  cases blocks with
  | nil => exact IsNested.block hbody hrest
  | cons outer blocks =>
    obtain ⟨around, later, rfl, haround, hlater⟩ := hrest
    refine ⟨openingStatement block arguments :: (body ++ closingStatement block :: around),
      later, ?_, ?_, hlater⟩
    · simp
    · exact IsNested.block hbody haround

/-- The statement of a tag, before statements that close what is open after the tag. -/
theorem ClosesAll.tag {α : Type} {here : α} {blocks : List (Block × α)} {keyword : String}
    {arguments statement : List Char} {statements : List (List Char)}
    (hrule : TagRule (blocks.map Prod.fst) keyword arguments statement)
    (h : ClosesAll ((stepped keyword here blocks).map Prod.fst) statements) :
    ClosesAll (blocks.map Prod.fst) (statement :: statements) := by
  cases hrule with
  | loop => exact ClosesAll.opening h
  | condition => exact ClosesAll.opening h
  | definition => exact ClosesAll.opening h
  | assignment => exact ClosesAll.cons (fun _ => .assignment) h
  | alternative _ hinside =>
    refine ClosesAll.cons (fun inner hinner => ?_) h
    rw [hinside] at hinner ⊢
    exact .alternative hinner
  | otherwise hinside =>
    refine ClosesAll.cons (fun inner hinner => ?_) h
    rw [hinside] at hinner ⊢
    exact .otherwise hinner
  | close hinnermost =>
    cases blocks with
    | nil => exact absurd hinnermost (by simp)
    | cons first blocks =>
      obtain rfl : first.1 = _ := by simpa using hinnermost
      exact ⟨[], statements, rfl, .nil, h⟩

/-! ## The words of a tag -/

/-- The keyword and the arguments of a text that consists of them, with a gap in between. -/
theorem keywordOf_append {word gap arguments : List Char}
    (hword : ∀ c ∈ word, isBlank c = false) (hgap : ∀ c ∈ gap, isBlank c = true)
    (hfirst : ∀ c ∈ arguments.head?, isBlank c = false)
    (hlast : ∀ c ∈ arguments.getLast?, isBlank c = false) (hempty : gap = [] → arguments = []) :
    keywordOf (word ++ (gap ++ arguments)) = (String.ofList word, arguments) := by
  have hstop : (gap ++ arguments).takeWhile (fun c => !isBlank c) = [] ∧
      (gap ++ arguments).dropWhile (fun c => !isBlank c) = gap ++ arguments := by
    cases gap with
    | nil =>
      rw [hempty rfl]
      exact ⟨rfl, rfl⟩
    | cons c gap =>
      have hc := hgap c List.mem_cons_self
      exact ⟨List.takeWhile_cons_of_neg (by simp [hc]), List.dropWhile_cons_of_neg (by simp [hc])⟩
  have htrim : trim (gap ++ arguments) = arguments := by
    refine trim_eq_iff.mpr ⟨⟨gap, [], ?_, hgap, List.forall_mem_nil _⟩, hfirst, hlast⟩
    rw [List.append_nil]
  have hword' : ∀ c ∈ word, (!isBlank c) = true := fun c hc => by rw [hword c hc]; rfl
  rw [keywordOf, List.takeWhile_append_of_pos hword', List.dropWhile_append_of_pos hword',
    hstop.1, hstop.2, htrim, List.append_nil]

/-- A text that ends with no blank character consists of its keyword, a gap, and its arguments. -/
theorem exists_eq_keywordOf {s : List Char} (h : ∀ c ∈ s.getLast?, isBlank c = false) :
    ∃ gap, s = (keywordOf s).1.toList ++ gap ++ (keywordOf s).2 ∧
      (∀ c ∈ (keywordOf s).1.toList, isBlank c = false) ∧ (∀ c ∈ gap, isBlank c = true) ∧
      (∀ c ∈ (keywordOf s).2.head?, isBlank c = false) ∧ (gap = [] → (keywordOf s).2 = []) := by
  have hsplit := List.takeWhile_append_dropWhile (p := fun c => !isBlank c) (l := s)
  have hword : ∀ c ∈ s.takeWhile (fun c => !isBlank c), isBlank c = false := by
    intro c hc
    simpa using List.mem_takeWhile_imp hc
  have hhead : ∀ c ∈ (s.dropWhile fun c => !isBlank c).head?, isBlank c = true := by
    intro c hc
    have hstop := List.head?_dropWhile_not (fun c => !isBlank c) s
    rw [Option.mem_def.mp hc] at hstop
    simpa using hstop
  unfold keywordOf
  simp only [String.toList_ofList]
  generalize s.takeWhile (fun c => !isBlank c) = word at hsplit hword ⊢
  generalize (s.dropWhile fun c => !isBlank c) = rest at hsplit hhead ⊢
  have hlast : ∀ c ∈ rest.getLast?, isBlank c = false :=
    fun c hc => h c (hsplit ▸ List.mem_getLast?_append_of_mem_getLast? hc)
  obtain ⟨gap, hrest, hgap⟩ := exists_eq_append_trimStart rest
  rw [trim_eq_trimStart hlast]
  refine ⟨gap, ?_, hword, hgap, isBlank_head_trimStart, ?_⟩
  · rw [List.append_assoc, ← hrest, hsplit]
  · rintro rfl
    rw [List.nil_append] at hrest
    cases hstart : trimStart rest with
    | nil => rfl
    | cons c later =>
      -- The keyword ends at a blank character, with which no trimmed text starts.
      have hblank := hhead c (by rw [hrest, hstart]; rfl)
      rw [isBlank_head_trimStart c (by rw [hstart]; rfl)] at hblank
      exact absurd hblank (by simp)

/-- The keyword and the arguments of a tag are what its content reads as. -/
theorem keywordOf_trim_eq_iff {content arguments : List Char} {keyword : String} :
    keywordOf (trim content) = (keyword, arguments) ↔ Reads content keyword arguments := by
  constructor
  · intro h
    have hcontent : IsTrimmed content (trim content) := trim_eq_iff.mp rfl
    obtain ⟨gap, hsplit, hparts⟩ := exists_eq_keywordOf hcontent.last
    rw [h] at hsplit hparts
    rw [hsplit] at hcontent
    exact ⟨gap, hcontent, hparts⟩
  · rintro ⟨gap, hcontent, hword, hgap, hfirst, hempty⟩
    have hlast : ∀ c ∈ arguments.getLast?, isBlank c = false :=
      fun c hc => hcontent.last c (List.mem_getLast?_append_of_mem_getLast? hc)
    rw [trim_eq_iff.mpr hcontent, List.append_assoc,
      keywordOf_append hword hgap hfirst hlast hempty, String.ofList_toList]

/-- Every content reads as a keyword and arguments. -/
theorem reads_keywordOf (content : List Char) :
    Reads content (keywordOf (trim content)).1 (keywordOf (trim content)).2 :=
  keywordOf_trim_eq_iff.mp rfl

/-- After a tag, the blocks are open that its keyword leaves open. -/
theorem openNext_tag {opened : List (Block × Marker)} {before content arguments : List Char}
    {keyword : String} (h : Reads content keyword arguments) :
    Marker.openNext opened ⟨before, .tag, some content⟩ =
      stepped keyword ⟨before, .tag, some content⟩ opened := by
  simp only [Marker.openNext, keywordOf_trim_eq_iff.mpr h]

/-! ## One tag -/

/-- The signature of a definition is made of what its arguments declare. -/
theorem signature?_eq_some_iff {arguments signature : List Char} :
    signature? arguments = some signature ↔
      ∃ name parameters, Declares arguments name parameters ∧
        signature = name ++ ['('] ++ parameters ++ [')'] := by
  unfold signature?
  constructor
  · intro h
    cases hcut : cut? ['('] arguments with
    | none =>
      simp only [hcut, Option.ite_none_right_eq_some, Option.some.injEq] at h
      exact ⟨arguments, [], .bare h.1, h.2.symm⟩
    | some parts =>
      obtain ⟨lead, rest⟩ := parts
      obtain ⟨rfl, hparen⟩ := cut?_singleton_iff.mp hcut
      simp only [hcut, Option.ite_none_right_eq_some, Option.some.injEq] at h
      obtain ⟨hlast, hname, rfl⟩ := h
      obtain ⟨inner, rfl⟩ := List.getLast?_eq_some_iff.mp hlast
      rw [List.dropLast_concat]
      exact ⟨trim lead, trim inner,
        .listed hname hparen (trim_eq_iff.mp rfl) (trim_eq_iff.mp rfl), rfl⟩
  · rintro ⟨name, parameters, hdeclares, rfl⟩
    cases hdeclares with
    | bare hname =>
      have hparen : '(' ∉ arguments := not_mem_of_isIdentifier hname (by decide)
      have hcut : cut? ['('] arguments = none := by
        rw [cut?_eq_none_iff, List.infix_iff_prefix_suffix]
        rintro ⟨t, hleft, hright⟩
        exact hparen (hright.subset (hleft.subset (List.mem_singleton_self '(')))
      simp [hcut, hname]
    | listed hname hparen hlead hinner =>
      simp [cut?_singleton_iff.mpr ⟨rfl, hparen⟩, trim_eq_iff.mpr hlead, trim_eq_iff.mpr hinner,
        hname]

/-- The innermost open block is a condition. -/
theorem Open.inCondition_iff {blocks : Open} :
    blocks.inCondition = true ↔ (blocks.map Prod.fst).head? = some .condition := by
  rcases blocks with - | ⟨⟨block, line⟩, blocks⟩
  · simp [Open.inCondition]
  · cases block <;> simp [Open.inCondition]

/-- Is a piece something else than literal text? -/
def Piece.isMarker : Piece → Bool
  | .text _ => false
  | _ => true

/-- A piece that stands for a marker and is written as `s`, whatever comes next. -/
structure Piece.WrittenAs (piece : Piece) (s : List Char) : Prop where
  isMarker : piece.isMarker = true
  render : ∀ followed, piece.render followed = s

/-- The end of a block is written as the statement that closes it. -/
theorem writtenAs_close (block : Block) :
    (Piece.close block).WrittenAs (closingStatement block) where
  isMarker := rfl
  render _ := by cases block <;> rfl

/-- A tag that can be lowered follows its rule, and its piece is written as its statement. -/
theorem writtenAs_of_lowerTag {blocks next : Open} {line : Nat} {content arguments : List Char}
    {keyword : String} {piece : Piece} (hreads : Reads content keyword arguments)
    (h : lowerTag blocks line content = .ok (piece, next)) :
    next = stepped keyword line blocks ∧ ∃ statement, piece.WrittenAs statement ∧
      TagRule (blocks.map Prod.fst) keyword arguments statement := by
  unfold lowerTag at h
  rw [keywordOf_trim_eq_iff.mpr hreads] at h
  simp only at h
  split at h
  · split at h
    · rename_i hin
      obtain ⟨rfl, rfl⟩ : _ ∧ _ := by simpa using h
      exact ⟨rfl, _, ⟨rfl, fun _ => rfl⟩, .loop (occurs_iff.mp hin)⟩
    · exact absurd h (by simp)
  · split at h
    · exact absurd h (by simp)
    · rename_i hne
      obtain ⟨rfl, rfl⟩ : _ ∧ _ := by simpa using h
      exact ⟨rfl, _, ⟨rfl, fun _ => rfl⟩, .condition hne⟩
  · split at h
    · exact absurd h (by simp)
    · rename_i hne
      split at h
      · rename_i hinside
        obtain ⟨rfl, rfl⟩ : _ ∧ _ := by simpa using h
        exact ⟨rfl, _, ⟨rfl, fun _ => rfl⟩, .alternative hne (Open.inCondition_iff.mp hinside)⟩
      · exact absurd h (by simp)
  · split at h
    · exact absurd h (by simp)
    · rename_i hnil
      obtain rfl := not_not.mp hnil
      split at h
      · rename_i hinside
        obtain ⟨rfl, rfl⟩ : _ ∧ _ := by simpa using h
        exact ⟨rfl, _, ⟨rfl, fun _ => rfl⟩, .otherwise (Open.inCondition_iff.mp hinside)⟩
      · exact absurd h (by simp)
  · split at h
    · rename_i hsignature
      obtain ⟨rfl, rfl⟩ : _ ∧ _ := by simpa using h
      obtain ⟨name, parameters, hdeclares, rfl⟩ := signature?_eq_some_iff.mp hsignature
      exact ⟨rfl, _, ⟨rfl, fun _ => rfl⟩, .definition hdeclares⟩
    · exact absurd h (by simp)
  · split at h
    · rename_i hequals
      obtain ⟨rfl, rfl⟩ : _ ∧ _ := by simpa using h
      exact ⟨rfl, _, ⟨rfl, fun _ => rfl⟩, .assignment hequals⟩
    · exact absurd h (by simp)
  · split at h
    · exact absurd h (by simp)
    · rename_i hnil
      obtain rfl := not_not.mp hnil
      cases blocks with
      | nil => exact absurd h (by simp)
      | cons first outer =>
        obtain ⟨rfl, rfl⟩ : _ ∧ _ := by simpa using h
        exact ⟨rfl, _, writtenAs_close first.1, .close rfl⟩
  · exact absurd h (by simp)

/-- A tag that follows its rule can be lowered. -/
theorem exists_lowerTag_of_tagRule {blocks : Open} {content arguments statement : List Char}
    {keyword : String} (hreads : Reads content keyword arguments)
    (h : TagRule (blocks.map Prod.fst) keyword arguments statement) (line : Nat) :
    ∃ found, lowerTag blocks line content = .ok found := by
  unfold lowerTag
  rw [keywordOf_trim_eq_iff.mpr hreads]
  simp only
  cases h with
  | loop hin => simp [occurs_iff.mpr hin]
  | condition hne => simp [hne]
  | alternative hne hinside => simp [hne, Open.inCondition_iff.mpr hinside]
  | otherwise hinside => simp [Open.inCondition_iff.mpr hinside]
  | definition hdeclares => simp [signature?_eq_some_iff.mpr ⟨_, _, hdeclares, rfl⟩]
  | assignment hequals => simp [hequals]
  | close hinnermost =>
    cases blocks with
    | nil => exact absurd hinnermost (by simp)
    | cons first outer => simp

/-! ## One marker -/

/-- An open block with the line of its tag. -/
def atLine (entry : Block × Marker) : Block × Nat :=
  (entry.1, entry.2.line)

/-- Forgetting markers but for their lines commutes with a tag. -/
theorem map_stepped (keyword : String) (marker : Marker) (opened : List (Block × Marker)) :
    (stepped keyword marker opened).map atLine =
      stepped keyword marker.line (opened.map atLine) := by
  unfold stepped
  cases opens? keyword with
  | some block => rfl
  | none =>
    simp only
    split
    · rw [List.map_tail]
    · rfl

/-- The blocks of open entries do not depend on where their tags are. -/
theorem map_fst_map_atLine (opened : List (Block × Marker)) :
    (opened.map atLine).map Prod.fst = opened.map Prod.fst := by
  rw [List.map_map]
  rfl

/-- A marker in its place stands for a piece. -/
inductive Placed.StandsFor : Placed → Piece → Prop where
  | substitution {around : List Block} {before body : List Char}
    (hbody : ∃ c ∈ body, isBlank c = false) :
    Placed.StandsFor ⟨around, before, .substitution, some body⟩ (.output (trim body))
  | tag {around : List Block} {before content arguments statement : List Char} {keyword : String}
    {piece : Piece} (hreads : Reads content keyword arguments)
    (hrule : TagRule around keyword arguments statement) (hpiece : piece.WrittenAs statement) :
    Placed.StandsFor ⟨around, before, .tag, some content⟩ piece

/-- A marker that stands for a piece is allowed. -/
theorem Placed.StandsFor.isAllowed {place : Placed} {piece : Piece} (h : place.StandsFor piece) :
    place.IsAllowed := by
  cases h with
  | substitution hbody => exact hbody
  | tag hreads hrule => exact ⟨_, _, _, hreads, hrule⟩

/-- A marker stands for no literal text. -/
theorem Placed.StandsFor.isMarker {place : Placed} {piece : Piece} (h : place.StandsFor piece) :
    piece.isMarker = true := by
  cases h with
  | substitution => rfl
  | tag _ _ hpiece => exact hpiece.isMarker

/-- Lowering the segment of a marker: it is not allowed in its place, and the error names its line,
or it puts the piece it stands for in front of what comes after it. -/
theorem lowerFrom_segment (opened : List (Block × Marker)) (marker : Marker)
    (parts : List Segment) :
    (¬ Placed.IsAllowed ⟨opened.map Prod.fst, marker⟩ ∧ ∃ fault,
      lowerFrom (opened.map atLine) (marker.segment :: parts) = .error ⟨marker.line, fault⟩) ∨
    ∃ piece, Placed.StandsFor ⟨opened.map Prod.fst, marker⟩ piece ∧
      lowerFrom (opened.map atLine) (marker.segment :: parts) =
        (lowerFrom ((marker.openNext opened).map atLine) parts).map (piece :: ·) := by
  obtain ⟨before, kind, body⟩ := marker
  cases body with
  | none => cases kind <;> exact .inl ⟨id, _, rfl⟩
  | some body =>
    cases kind with
    | substitution =>
      rw [Marker.segment, lowerFrom]
      split
      · rename_i hblank
        refine .inl ⟨?_, _, rfl⟩
        rintro ⟨c, hc, hnot⟩
        rw [trim_eq_nil_iff.mp hblank c hc] at hnot
        exact absurd hnot (by simp)
      · rename_i hsome
        have hbody : ∃ c ∈ body, isBlank c = false := by
          simpa [trim_eq_nil_iff] using hsome
        exact .inr ⟨_, .substitution hbody, rfl⟩
    | tag =>
      rw [Marker.segment, lowerFrom]
      split
      · rename_i fault hfault
        refine .inl ⟨?_, fault, rfl⟩
        rintro ⟨keyword, arguments, statement, hreads, hrule⟩
        rw [← map_fst_map_atLine] at hrule
        obtain ⟨found, hfound⟩ := exists_lowerTag_of_tagRule hreads hrule (lineFeeds before + 1)
        exact absurd (hfault.symm.trans hfound) (by simp)
      · rename_i piece inner hok
        have hreads := reads_keywordOf body
        obtain ⟨rfl, statement, hpiece, hrule⟩ := writtenAs_of_lowerTag hreads hok
        rw [map_fst_map_atLine] at hrule
        refine .inr ⟨piece, .tag hreads hrule hpiece, ?_⟩
        rw [← map_stepped]
        rfl

/-! ## Runs over markers -/

/-- Pieces of which those that are no literal text stand for markers that leave no block open. -/
structure Resolves (opened : List (Block × Marker)) (ms : List Marker) (pieces : List Piece) :
    Prop where
  standFor : List.Forall₂ Placed.StandsFor (placed opened ms) (pieces.filter Piece.isMarker)
  closed : openAfter opened ms = []

/-- What lowering gives: pieces for the markers, or the line of the first offence. -/
def Outcome (opened : List (Block × Marker)) (ms : List Marker) :
    Except Error (List Piece) → Prop
  | .ok pieces => Resolves opened ms pieces
  | .error error => IsFirstOffence opened ms error.line

section Steps

variable {opened : List (Block × Marker)} {marker : Marker} {ms : List Marker}
variable {result : Except Error (List Piece)}

/-- Without markers, all depends on the blocks that are open. -/
theorem Outcome.nil (opened : List (Block × Marker)) :
    Outcome opened [] (lowerFrom (opened.map atLine) []) := by
  cases opened with
  | nil => exact { standFor := .nil, closed := rfl }
  | cons first outer => exact .inr ⟨by simp [placed], first.1, first.2, outer, rfl, rfl⟩

/-- Literal text has no part in the outcome. -/
theorem Outcome.text (s : List Char) (h : Outcome opened ms result) :
    Outcome opened ms (result.map (.text s :: ·)) := by
  cases result with
  | error error => exact h
  | ok pieces => exact { standFor := h.standFor, closed := h.closed }

/-- A marker that is not allowed is the first offence. -/
theorem Outcome.offence {fault : MarkerFault}
    (h : ¬ Placed.IsAllowed ⟨opened.map Prod.fst, marker⟩) :
    Outcome opened (marker :: ms) (.error ⟨marker.line, fault⟩) :=
  .inl ⟨[], ⟨opened.map Prod.fst, marker⟩, placed (marker.openNext opened) ms, rfl, by simp, h, rfl⟩

/-- An offence after an allowed marker is the first one from there on. -/
theorem IsFirstOffence.cons {line : Nat} (hallowed : Placed.IsAllowed ⟨opened.map Prod.fst, marker⟩)
    (h : IsFirstOffence (marker.openNext opened) ms line) :
    IsFirstOffence opened (marker :: ms) line := by
  rcases h with ⟨earlier, place, later, hplaced, hearlier, hplace, hline⟩ | ⟨hall, hopen⟩
  · refine .inl ⟨⟨opened.map Prod.fst, marker⟩ :: earlier, place, later, ?_, ?_, hplace, hline⟩
    · rw [placed, hplaced, List.cons_append]
    · exact List.forall_mem_cons.mpr ⟨hallowed, hearlier⟩
  · exact .inr ⟨List.forall_mem_cons.mpr ⟨hallowed, hall⟩, hopen⟩

/-- A marker puts the piece that it stands for in front. -/
theorem Outcome.piece {piece : Piece}
    (hpiece : Placed.StandsFor ⟨opened.map Prod.fst, marker⟩ piece)
    (h : Outcome (marker.openNext opened) ms result) :
    Outcome opened (marker :: ms) (result.map (piece :: ·)) := by
  cases result with
  | error error => exact IsFirstOffence.cons hpiece.isAllowed h
  | ok pieces =>
    refine { standFor := ?_, closed := h.closed }
    rw [placed, List.filter_cons_of_pos hpiece.isMarker]
    exact .cons hpiece h.standFor

end Steps

/-- What lowering segments gives, if the markers are what remains of them without their literal
text. -/
theorem lowerFrom_outcome (opened : List (Block × Marker)) {ms : List Marker}
    {parts : List Segment} (h : parts.filter Segment.isMarker = ms.map Marker.segment) :
    Outcome opened ms (lowerFrom (opened.map atLine) parts) := by
  induction parts generalizing opened ms with
  | nil =>
    obtain rfl := List.map_eq_nil_iff.mp h.symm
    exact Outcome.nil opened
  | cons part parts ih =>
    cases hpart : part.isMarker with
    | false =>
      rw [List.filter_cons_of_neg (by simp [hpart])] at h
      cases part with
      | text s => exact Outcome.text s (ih opened h)
      | substitution | tag | broken => exact absurd hpart (by simp [Segment.isMarker])
    | true =>
      rw [List.filter_cons_of_pos hpart] at h
      obtain ⟨marker, later, rfl, rfl, hlater⟩ := List.map_eq_cons_iff.mp h.symm
      rcases lowerFrom_segment opened marker parts with ⟨hnot, fault, hlower⟩ | hstands
      · rw [hlower]
        exact Outcome.offence hnot
      · obtain ⟨piece, hpiece, hlower⟩ := hstands
        rw [hlower]
        exact Outcome.piece hpiece (ih (marker.openNext opened) hlater.symm)

/-- What lowering a template gives. -/
theorem lower_outcome (source : List Char) : Outcome [] (markers source) (lower source) :=
  lowerFrom_outcome [] (segments_filter_isMarker source)

/-- Of a well-nested template there is no first offence. -/
theorem WellNested.not_isFirstOffence {ms : List Marker} (h : WellNested ms) (line : Nat) :
    ¬ IsFirstOffence [] ms line := by
  rintro (⟨earlier, place, later, hplaced, -, hplace, -⟩ | ⟨-, block, marker, outer, hopen, -⟩)
  · exact hplace (h.1 place (by simp [hplaced]))
  · rw [h.2] at hopen
    exact absurd hopen (by simp)

end DsdlHeaders.Template.Primitive

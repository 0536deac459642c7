import DsdlHeaders.Proofs.Markup.Lexing
import DsdlHeaders.Proofs.Text.Marks

/-!
# The items of a document

A document is a row of **items**: single characters, tags, comments, character data sections,
processing instructions and document type declarations. This module states what each of them looks
like, apart from the reader, and shows that the reader takes a document apart in the same way.

* **Tags**: a tag reaches to its closing bracket, and brackets in quoted texts do not close it
  (`TagContent`, `untilClose_eq_ok_iff`).
* **Markup without an event**: comments and the like end at the first mark that closes them
  (`IsSilent`, `bang_eq_ok_iff`, `instruction_eq_ok_iff`).
* **What follows** a piece of markup has no influence on how it is read (`Definite`,
  `IsItem.char_or_definite`).
* **Every text** is a row of items, up to its end or up to faulty markup (`exists_items`). Markup
  that is faulty whatever follows it is an item like others.
-/

namespace DsdlHeaders.Markup

open Text

variable {s content body rest : List Char}

/-! ## Tags -/

/-- The content of a tag: characters that do not close it, and quoted texts, which may hold any
character but their quote. -/
inductive TagContent : List Char → Prop where
  | nil : TagContent []
  | plain {c : Char} {s : List Char} (hclose : c ≠ '>') (hquote : isQuote c = false)
      (hs : TagContent s) : TagContent (c :: s)
  | quotation {quote : Char} {text s : List Char} (hquote : isQuote quote = true)
      (htext : quote ∉ text) (hs : TagContent s) : TagContent (quote :: (text ++ quote :: s))

/-- A start tag, an end tag or an empty-element tag. -/
def IsTag (text : List Char) : Prop :=
  ∃ content, text = '<' :: (content ++ ['>']) ∧ TagContent content ∧
    content.head? ≠ some '!' ∧ content.head? ≠ some '?'

/-- The content of a tag ends at its closing bracket. -/
theorem TagContent.untilClose_eq (h : TagContent content) (rest : List Char) :
    untilClose none (content ++ '>' :: rest) = .ok (content, rest) := by
  induction h with
  | nil => rfl
  | plain hclose hquote _ ih =>
    rw [List.cons_append, untilClose, if_neg hclose, hquote, if_neg (by simp), ih]
  | @quotation quote text s hquote htext _ ih =>
    have hclose : quote ≠ '>' := by
      rintro rfl
      exact absurd hquote (by decide)
    rw [List.cons_append, List.append_assoc, List.cons_append, untilClose, if_neg hclose, hquote,
      if_pos rfl, untilClose_quoted htext, ih]
    rfl

/-- What the reader takes for the content of a tag is one. Inside a quoted text it comes to the end
of the quoted text first. -/
theorem tagContent_of_untilClose (s : List Char) :
    (∀ content rest, untilClose none s = .ok (content, rest) →
      TagContent content ∧ s = content ++ '>' :: rest) ∧
    ∀ quote content rest, untilClose (some quote) s = .ok (content, rest) →
      ∃ text later, content = text ++ quote :: later ∧ quote ∉ text ∧ TagContent later ∧
        s = content ++ '>' :: rest := by
  induction s with
  | nil => exact ⟨fun _ _ h => absurd h (by simp [untilClose]), fun _ _ _ h =>
      absurd h (by simp [untilClose])⟩
  | cons c s ih =>
    constructor
    · intro content rest h
      rw [untilClose] at h
      split_ifs at h with hclose hquote
      · obtain ⟨rfl, rfl⟩ := Prod.mk.inj (Except.ok.inj h)
        exact ⟨.nil, by rw [hclose, List.nil_append]⟩
      · split at h
        · exact absurd h (by simp)
        · rename_i content' rest' hinner
          obtain ⟨rfl, rfl⟩ := Prod.mk.inj (Except.ok.inj h)
          obtain ⟨text, later, rfl, htext, hlater, rfl⟩ := ih.2 c _ _ hinner
          exact ⟨.quotation hquote htext hlater, rfl⟩
      · split at h
        · exact absurd h (by simp)
        · rename_i content' rest' hinner
          obtain ⟨rfl, rfl⟩ := Prod.mk.inj (Except.ok.inj h)
          obtain ⟨hcontent, rfl⟩ := ih.1 _ _ hinner
          exact ⟨.plain hclose (by simpa using hquote) hcontent, rfl⟩
    · intro quote content rest h
      rw [untilClose] at h
      split at h
      · exact absurd h (by simp)
      · rename_i content' rest' hinner
        obtain ⟨rfl, rfl⟩ := Prod.mk.inj (Except.ok.inj h)
        split_ifs at hinner with hend
        · obtain ⟨hcontent, rfl⟩ := ih.1 _ _ hinner
          exact ⟨[], content', by rw [hend]; rfl, List.not_mem_nil, hcontent, rfl⟩
        · obtain ⟨text, later, rfl, htext, hlater, rfl⟩ := ih.2 quote _ _ hinner
          refine ⟨c :: text, later, rfl, ?_, hlater, rfl⟩
          exact List.mem_cons.not.mpr (not_or.mpr ⟨Ne.symm hend, htext⟩)

/-- The reader takes exactly the content of a tag. -/
theorem untilClose_eq_ok_iff :
    untilClose none s = .ok (content, rest) ↔ TagContent content ∧ s = content ++ '>' :: rest := by
  constructor
  · exact (tagContent_of_untilClose s).1 content rest
  · rintro ⟨hcontent, rfl⟩
    exact hcontent.untilClose_eq rest

instance (content : List Char) : Decidable (TagContent content) :=
  decidable_of_iff (untilClose none (content ++ ['>']) = .ok (content, []))
    (untilClose_eq_ok_iff.trans (and_iff_left rfl))

/-! ## Document type declarations -/

/-- A character that ends a document type declaration. -/
theorem afterDoctype?_of_end {state : DoctypeState} {c : Char} (h : state.step c = none)
    (s : List Char) : afterDoctype? state (c :: s) = some s := by
  rw [afterDoctype?, h]

/-- A character inside a document type declaration. -/
theorem afterDoctype?_of_step {state next : DoctypeState} {c : Char} (h : state.step c = some next)
    (s : List Char) : afterDoctype? state (c :: s) = afterDoctype? next s := by
  rw [afterDoctype?, h]

/-- A document type declaration has a character. -/
theorem afterDoctype?_nil_ne {state : DoctypeState} : afterDoctype? state [] ≠ some rest := by
  simp [afterDoctype?]

/-- What follows a document type declaration does not matter to it. -/
theorem afterDoctype?_eq_some_iff {state : DoctypeState} :
    afterDoctype? state s = some rest ↔
      ∃ text, s = text ++ rest ∧ afterDoctype? state text = some [] := by
  induction s generalizing state with
  | nil =>
    refine ⟨fun h => absurd h afterDoctype?_nil_ne, ?_⟩
    rintro ⟨text, htext, h⟩
    obtain ⟨rfl, -⟩ := List.append_eq_nil_iff.mp htext.symm
    exact absurd h afterDoctype?_nil_ne
  | cons c s ih =>
    constructor
    · intro h
      cases hstep : state.step c with
      | none =>
        rw [afterDoctype?_of_end hstep] at h
        obtain rfl := Option.some.inj h
        exact ⟨[c], rfl, afterDoctype?_of_end hstep []⟩
      | some next =>
        rw [afterDoctype?_of_step hstep] at h
        obtain ⟨text, rfl, htext⟩ := ih.mp h
        exact ⟨c :: text, rfl, (afterDoctype?_of_step hstep text).trans htext⟩
    · rintro ⟨text, hs, htext⟩
      cases text with
      | nil => exact absurd htext afterDoctype?_nil_ne
      | cons d text =>
        obtain ⟨rfl, rfl⟩ := List.cons.inj hs
        cases hstep : state.step c with
        | none =>
          rw [afterDoctype?_of_end hstep] at htext
          rw [Option.some.inj htext]
          exact afterDoctype?_of_end hstep rest
        | some next =>
          rw [afterDoctype?_of_step hstep] at htext ⊢
          exact ih.mpr ⟨text, rfl, htext⟩

/-- A document type declaration ends with a closing bracket. -/
theorem mem_of_afterDoctype? {state : DoctypeState} (h : afterDoctype? state s = some rest) :
    '>' ∈ s := by
  induction s generalizing state with
  | nil => exact absurd h afterDoctype?_nil_ne
  | cons c s ih =>
    cases hstep : state.step c with
    | none =>
      -- the declaration ends outside its internal subset only
      have hclose : c = '>' := by
        cases state <;> simp [DoctypeState.step] at hstep <;> exact hstep
      exact hclose ▸ List.mem_cons_self
    | some next =>
      rw [afterDoctype?_of_step hstep] at h
      exact List.mem_cons_of_mem _ (ih h)

/-- The keyword of a document type declaration and what follows it. -/
theorem exists_keyword_of_doctypeBody? (h : doctypeBody? s = some body) :
    ∃ keyword, s = keyword ++ body ∧ '>' ∉ keyword ∧
      ∀ text, doctypeBody? (keyword ++ text) = some text := by
  unfold doctypeBody? at h
  simp only at h
  split_ifs at h with hkeyword
  obtain rfl := Option.some.inj h
  have hlength : (s.take 7).length = 7 := by
    simpa using congrArg List.length hkeyword
  refine ⟨s.take 7, (List.take_append_drop 7 s).symm, fun hmem => ?_, fun text => ?_⟩
  · have hmapped := List.mem_map_of_mem (f := fun c => if c.isUpper then c.toLower else c) hmem
    rw [show s.take 7 = s.take ['d', 'o', 'c', 't', 'y', 'p', 'e'].length from rfl, hkeyword]
      at hmapped
    exact absurd hmapped (by decide)
  · unfold doctypeBody?
    simp only [List.length_cons, List.length_nil, List.take_left' hlength, List.drop_left' hlength]
    exact if_pos hkeyword

/-- What a document type declaration has after its keyword decides whether it has a name. -/
theorem doctype_eq_ok : doctype s = .ok rest ↔ afterDoctype? .head s = some rest ∧
    ∃ body, doctypeBody? s = some body ∧ (body.dropWhile isGap).head? ≠ some '>' := by
  unfold doctype
  cases afterDoctype? .head s with
  | none => simp
  | some rest' =>
    cases doctypeBody? s with
    | none => simp
    | some body =>
      by_cases hname : (body.dropWhile isGap).head? = some '>'
      · simp [hname]
      · simp [hname]

/-- What follows a document type declaration has no influence on how it is read. -/
theorem doctype_eq_ok_iff :
    doctype s = .ok rest ↔ ∃ text, s = text ++ rest ∧ doctype text = .ok [] := by
  have hhead : ∀ {body : List Char}, '>' ∈ body → ∀ rest,
      ((body ++ rest).dropWhile isGap).head? = (body.dropWhile isGap).head? := by
    intro body hmem rest
    have hne : body.dropWhile isGap ≠ [] := fun hnil =>
      absurd (List.dropWhile_eq_nil_iff.mp hnil _ hmem) (by decide)
    rw [List.dropWhile_append, if_neg (by simpa using hne), List.head?_append_of_ne_nil _ hne]
  constructor
  · intro h
    obtain ⟨hafter, body, hbody, hname⟩ := doctype_eq_ok.mp h
    obtain ⟨text, rfl, htext⟩ := afterDoctype?_eq_some_iff.mp hafter
    obtain ⟨keyword, hsplit, hkeyword, hread⟩ := exists_keyword_of_doctypeBody? hbody
    have hmem := mem_of_afterDoctype? htext
    rcases List.append_eq_append_iff.mp hsplit with ⟨tail, rfl, -⟩ | ⟨tail, rfl, rfl⟩
    · exact absurd (List.mem_append_left tail hmem) hkeyword
    · have htail : '>' ∈ tail := (List.mem_append.mp hmem).resolve_left hkeyword
      rw [hhead htail] at hname
      exact ⟨keyword ++ tail, rfl, doctype_eq_ok.mpr ⟨htext, tail, hread tail, hname⟩⟩
  · rintro ⟨text, rfl, h⟩
    obtain ⟨hafter, body, hbody, hname⟩ := doctype_eq_ok.mp h
    obtain ⟨keyword, rfl, hkeyword, hread⟩ := exists_keyword_of_doctypeBody? hbody
    have hmem : '>' ∈ body :=
      (List.mem_append.mp (mem_of_afterDoctype? hafter)).resolve_left hkeyword
    refine doctype_eq_ok.mpr ⟨afterDoctype?_eq_some_iff.mpr ⟨_, rfl, hafter⟩, body ++ rest, ?_, ?_⟩
    · rw [List.append_assoc, hread]
    · rwa [hhead hmem]

/-! ## Markup without an event -/

/-- Markup that leaves no event, from the character after its opening bracket on. -/
inductive IsSilent : List Char → Prop where
  | comment {body : List Char} (hbody : ¬ ['-', '-', '>'] <:+: body) :
      IsSilent ('!' :: '-' :: '-' :: (body ++ ['-', '-', '>']))
  | characterData {body : List Char} (hbody : ¬ [']', ']', '>'] <:+: body) :
      IsSilent ('!' :: '[' :: 'C' :: 'D' :: 'A' :: 'T' :: 'A' :: '[' :: (body ++ [']', ']', '>']))
  | instruction {body : List Char} (hopen : body.head? ≠ some '>')
      (hbody : ¬ ['?', '>'] <:+: body) : IsSilent ('?' :: (body ++ ['?', '>']))
  | doctype {c : Char} {body : List Char} (hc : c = 'D' ∨ c = 'd')
      (hbody : doctype (c :: body) = .ok []) : IsSilent ('!' :: c :: body)

/-- What follows a mark and, later, another mark. -/
theorem after?_bind_cut?_eq_some_iff {opening closing inner : List Char}
    (hmark : EndsOnce closing) :
    (after? opening s >>= cut? closing) = some (inner, rest) ↔
      s = opening ++ (inner ++ (closing ++ rest)) ∧ ¬ closing <:+: inner := by
  rw [Option.bind_eq_bind, Option.bind_eq_some_iff]
  constructor
  · rintro ⟨tail, htail, hcut⟩
    obtain ⟨rfl, hinfix⟩ := (cut?_eq_some_iff hmark).mp hcut
    exact ⟨after?_eq_some_iff.mp htail, hinfix⟩
  · rintro ⟨rfl, hinfix⟩
    exact ⟨_, after?_append _ _, (cut?_eq_some_iff hmark).mpr ⟨rfl, hinfix⟩⟩

/-- A declaration in a document type declaration's place, up to its end. -/
theorem exists_doctype {c : Char} {tail : List Char} (hc : c = 'D' ∨ c = 'd')
    (h : doctype (c :: tail) = .ok rest) :
    ∃ text, c :: tail = text ++ rest ∧ IsSilent ('!' :: text) := by
  obtain ⟨text, hsplit, htext⟩ := doctype_eq_ok_iff.mp h
  cases text with
  | nil => exact absurd (doctype_eq_ok.mp htext).1 afterDoctype?_nil_ne
  | cons d text =>
    obtain ⟨rfl, -⟩ := List.cons.inj hsplit
    exact ⟨c :: text, hsplit, .doctype hc htext⟩

/-- The reader takes exactly the markup without an event that starts with an exclamation mark. -/
theorem bang_eq_ok_iff :
    bang s = .ok rest ↔ ∃ text, s = text ++ rest ∧ IsSilent ('!' :: text) := by
  have hcomment : EndsOnce ['-', '-', '>'] := ⟨['-', '-'], '>', rfl, by decide⟩
  have hdata : EndsOnce [']', ']', '>'] := ⟨[']', ']'], '>', rfl, by decide⟩
  constructor
  · intro h
    unfold bang at h
    split at h
    · split at h
      · rename_i parts hparts
        obtain rfl := Except.ok.inj h
        obtain ⟨rfl, hinfix⟩ := (after?_bind_cut?_eq_some_iff hcomment).mp hparts
        exact ⟨_, by simp, .comment hinfix⟩
      · exact absurd h (by simp)
    · split at h
      · rename_i parts hparts
        obtain rfl := Except.ok.inj h
        obtain ⟨rfl, hinfix⟩ := (after?_bind_cut?_eq_some_iff hdata).mp hparts
        exact ⟨_, by simp, .characterData hinfix⟩
      · exact absurd h (by simp)
    · exact exists_doctype (.inl rfl) h
    · exact exists_doctype (.inr rfl) h
    · exact absurd h (by simp)
  · rintro ⟨text, rfl, htext⟩
    cases htext with
    | @comment body hbody =>
      have hsplit : '-' :: '-' :: (body ++ ['-', '-', '>']) ++ rest =
          '-' :: (['-'] ++ (body ++ (['-', '-', '>'] ++ rest))) := by simp
      rw [hsplit, bang, (after?_bind_cut?_eq_some_iff hcomment).mpr ⟨rfl, hbody⟩]
    | @characterData body hbody =>
      have hsplit : '[' :: 'C' :: 'D' :: 'A' :: 'T' :: 'A' :: '[' :: (body ++ [']', ']', '>']) ++
          rest = '[' :: (['C', 'D', 'A', 'T', 'A', '['] ++
            (body ++ ([']', ']', '>'] ++ rest))) := by simp
      rw [hsplit, bang, (after?_bind_cut?_eq_some_iff hdata).mpr ⟨rfl, hbody⟩]
    | @doctype c body hc hbody =>
      have hread : doctype (c :: body ++ rest) = .ok rest :=
        doctype_eq_ok_iff.mpr ⟨c :: body, rfl, hbody⟩
      rcases hc with rfl | rfl <;> exact hread

/-- The reader takes exactly the markup without an event that starts with a question mark. -/
theorem instruction_eq_ok_iff :
    instruction s = .ok rest ↔ ∃ text, s = text ++ rest ∧ IsSilent ('?' :: text) := by
  have hmark : EndsOnce ['?', '>'] := ⟨['?'], '>', rfl, by decide⟩
  constructor
  · intro h
    unfold instruction at h
    split at h
    · exact absurd h (by simp)
    · rename_i hopen
      split at h
      · rename_i parts hparts
        obtain rfl := Except.ok.inj h
        obtain ⟨hs, hinfix⟩ := (cut?_eq_some_iff hmark).mp hparts
        refine ⟨parts.1 ++ ['?', '>'], by rw [hs]; simp, .instruction ?_ hinfix⟩
        intro hhead
        obtain ⟨later, hlater⟩ := List.head?_eq_some_iff.mp hhead
        exact hopen (later ++ (['?', '>'] ++ parts.2)) (by rw [hs, hlater]; rfl)
      · exact absurd h (by simp)
  · rintro ⟨text, rfl, htext⟩
    cases htext with
    | @instruction body hopen hbody =>
      have hfound := (cut?_eq_some_iff hmark).mpr ⟨List.append_assoc body ['?', '>'] rest, hbody⟩
      unfold instruction
      split
      · rename_i later hlater
        cases body with
        | nil => exact absurd hlater (by simp)
        | cons c body => exact absurd (List.cons.inj hlater).1 (by simpa using hopen)
      · rw [hfound]

/-- Markup without an event is read as such, whatever follows it. -/
theorem IsSilent.piece_eq {text : List Char} (h : IsSilent text) (rest : List Char) :
    piece (text ++ rest) = .ok (.ignored, rest) := by
  obtain ⟨c, tail, rfl, hc⟩ : ∃ c tail, text = c :: tail ∧ (c = '!' ∨ c = '?') := by
    cases h with
    | comment _ => exact ⟨_, _, rfl, .inl rfl⟩
    | characterData _ => exact ⟨_, _, rfl, .inl rfl⟩
    | instruction _ _ => exact ⟨_, _, rfl, .inr rfl⟩
    | doctype _ _ => exact ⟨_, _, rfl, .inl rfl⟩
  rcases hc with rfl | rfl
  · rw [List.cons_append, piece, bang_eq_ok_iff.mpr ⟨tail, rfl, h⟩]
  · rw [List.cons_append, piece, instruction_eq_ok_iff.mpr ⟨tail, rfl, h⟩]

/-- A tag is read as a piece that its content decides, whatever follows it. -/
theorem IsTag.exists_piece {text : List Char} (h : IsTag text) : ∃ body found, text = '<' :: body ∧
    ∀ rest, piece (body ++ rest) = .ok (found, rest) := by
  obtain ⟨content, rfl, hcontent, hbang, hask⟩ := h
  have hhead : ∀ c, c ≠ '>' → content.head? ≠ some c → ∀ rest,
      (content ++ '>' :: rest).head? ≠ some c := by
    intro c hc hne rest
    cases content with
    | nil => simpa using hc.symm
    | cons d content => exact hne
  refine ⟨content ++ ['>'], .ofContent content, rfl, fun rest => ?_⟩
  rw [List.append_assoc, List.singleton_append]
  exact piece_of_untilClose (hhead '!' (by decide) hbang rest) (hhead '?' (by decide) hask rest)
    (hcontent.untilClose_eq rest)

/-- What the reader takes for a piece of markup is markup without an event or a tag. -/
theorem isSilent_or_isTag {found : Piece} (h : piece s = .ok (found, rest)) :
    ∃ text, s = text ++ rest ∧ (IsSilent text ∨ IsTag ('<' :: text)) := by
  unfold piece at h
  split at h
  · split at h
    · exact absurd h (by simp)
    · rename_i hbang
      obtain ⟨-, rfl⟩ := Prod.mk.inj (Except.ok.inj h)
      obtain ⟨text, rfl, htext⟩ := bang_eq_ok_iff.mp hbang
      exact ⟨'!' :: text, rfl, .inl htext⟩
  · split at h
    · exact absurd h (by simp)
    · rename_i hinstruction
      obtain ⟨-, rfl⟩ := Prod.mk.inj (Except.ok.inj h)
      obtain ⟨text, rfl, htext⟩ := instruction_eq_ok_iff.mp hinstruction
      exact ⟨'?' :: text, rfl, .inl htext⟩
  · rename_i hbang hask
    split at h
    · exact absurd h (by simp)
    · rename_i content rest' huntil
      obtain ⟨-, rfl⟩ := Prod.mk.inj (Except.ok.inj h)
      obtain ⟨hcontent, rfl⟩ := untilClose_eq_ok_iff.mp huntil
      refine ⟨content ++ ['>'], by simp, .inr ⟨content, rfl, hcontent, ?_, ?_⟩⟩
      · intro hhead
        obtain ⟨tail, rfl⟩ := List.head?_eq_some_iff.mp hhead
        exact hbang _ rfl
      · intro hhead
        obtain ⟨tail, rfl⟩ := List.head?_eq_some_iff.mp hhead
        exact hask _ rfl

/-! ## Items -/

/-- One item of a document. -/
inductive IsItem : List Char → Prop where
  | char {c : Char} (hc : c ≠ '<') : IsItem [c]
  | silent {text : List Char} (htext : IsSilent text) : IsItem ('<' :: text)
  | tag {text : List Char} (htext : IsTag text) : IsItem text
  | broken {text : List Char} {fault : Fault}
      (htext : ∀ rest, piece (text ++ rest) = .error fault) : IsItem ('<' :: text)

/-- A row of items. -/
inductive Items : List Char → Prop where
  | nil : Items []
  | cons {item rest : List Char} (hitem : IsItem item) (hrest : Items rest) : Items (item ++ rest)

/-- Markup that is the same piece, or the same fault, whatever follows it. -/
def Definite (body : List Char) : Prop :=
  (∃ found, ∀ rest, piece (body ++ rest) = .ok (found, rest)) ∨
    ∃ fault, ∀ rest, piece (body ++ rest) = .error fault

/-- All items but single characters are definite markup. -/
theorem IsItem.char_or_definite (h : IsItem s) :
    (∃ c, s = [c] ∧ c ≠ '<') ∨ ∃ body, s = '<' :: body ∧ Definite body := by
  cases h with
  | char hc => exact .inl ⟨_, rfl, hc⟩
  | silent htext => exact .inr ⟨_, rfl, .inl ⟨_, htext.piece_eq⟩⟩
  | tag htext =>
    obtain ⟨body, found, rfl, hpiece⟩ := htext.exists_piece
    exact .inr ⟨body, rfl, .inl ⟨found, hpiece⟩⟩
  | broken htext => exact .inr ⟨_, rfl, .inr ⟨_, htext⟩⟩

/-- A text starts with an item, or with markup that is faulty. -/
theorem exists_item (c : Char) (s : List Char) :
    (∃ fault, c = '<' ∧ piece s = .error fault) ∨
      ∃ item rest, IsItem item ∧ c :: s = item ++ rest ∧ rest.length ≤ s.length := by
  by_cases hc : c = '<'
  · subst hc
    cases hpiece : piece s with
    | error fault => exact .inl ⟨fault, rfl, rfl⟩
    | ok parts =>
      obtain ⟨text, hs, hsilent | htag⟩ := isSilent_or_isTag hpiece
      · exact .inr ⟨_, _, .silent hsilent, by rw [hs, List.cons_append], piece_length_le hpiece⟩
      · exact .inr ⟨_, _, .tag htag, by rw [hs, List.cons_append], piece_length_le hpiece⟩
  · exact .inr ⟨[c], s, .char hc, rfl, Nat.le_refl _⟩

/-- Every text is a row of items up to its end, or up to markup that is faulty. -/
theorem exists_items (s : List Char) : ∃ before rest, s = before ++ rest ∧ Items before ∧
    (rest = [] ∨ ∃ body fault, rest = '<' :: body ∧ piece body = .error fault) := by
  induction hlength : s.length using Nat.strongRecOn generalizing s with
  | ind length ih =>
    subst hlength
    cases s with
    | nil => exact ⟨[], [], rfl, .nil, .inl rfl⟩
    | cons c s =>
      rcases exists_item c s with ⟨fault, rfl, hpiece⟩ | ⟨item, later, hitem, hs, hle⟩
      · exact ⟨[], _, rfl, .nil, .inr ⟨s, fault, rfl, hpiece⟩⟩
      · obtain ⟨before, rest, rfl, hbefore, hend⟩ :=
          ih later.length (Nat.lt_succ_of_le hle) later rfl
        exact ⟨item ++ before, rest, by rw [hs, List.append_assoc], .cons hitem hbefore, hend⟩

end DsdlHeaders.Markup

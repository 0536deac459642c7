import DsdlHeaders.Markup.Tag

/-!
# Markup events

A document is read as a list of **events**: an element opens, an element closes, an empty element
stands there. Text, entity references, comments, character data sections, processing instructions
and the document type declaration are checked for their own shape and leave no event. Reading stops
at the first fault, which is then the last event of the list; a list without a fault reaches the
end of the document. Elements that are still open there are no fault.

Closing tags are matched against the names that are open, so every `closing` event closes the
innermost open element.
-/

namespace DsdlHeaders.Markup

/-! ## Faults -/

/-- What is wrong with a document as markup. -/
inductive Fault where
  | unknownMarkup
  | instructionNotClosed
  | declarationNotClosed
  | commentNotClosed
  | doctypeNotClosed
  | cdataNotClosed
  | tagNotClosed
  | valueNotClosed (quote : Char)
  | unmatchedClose (name : String)
  | wrongClose (expected found : String)
  | referenceNotClosed
  | doctypeWithoutName
deriving DecidableEq, Repr

/-- Faults of the characters themselves, as opposed to faults of the document's structure. -/
def Fault.isSyntactic : Fault → Bool
  | .unmatchedClose _ => false
  | .wrongClose .. => false
  | .referenceNotClosed => false
  | .doctypeWithoutName => false
  | _ => true

/-- What was found, in words. -/
def Fault.detail : Fault → String
  | .unknownMarkup => "unknown or missed symbol in markup"
  | .instructionNotClosed =>
    "processing instruction not closed: `?>` not found before end of input"
  | .declarationNotClosed => "XML declaration not closed: `?>` not found before end of input"
  | .commentNotClosed => "comment not closed: `-->` not found before end of input"
  | .doctypeNotClosed => "DOCTYPE not closed: `>` not found before end of input"
  | .cdataNotClosed => "CDATA not closed: `]]>` not found before end of input"
  | .tagNotClosed => "tag not closed: `>` not found before end of input"
  | .valueNotClosed quote =>
    "attribute value not closed: `" ++ quote.toString ++ "` not found before end of input"
  | .unmatchedClose name => "close tag `</" ++ name ++ ">` does not match any open tag"
  | .wrongClose expected found =>
    "expected `</" ++ expected ++ ">`, but `</" ++ found ++ ">` was found"
  | .referenceNotClosed =>
    "entity or character reference not closed: `;` not found before end of input"
  | .doctypeWithoutName =>
    "`<!DOCTYPE>` declaration does not contain a name of a document type"

/-- The wording of a fault. -/
def Fault.message (fault : Fault) : String :=
  (if fault.isSyntactic then "syntax error: " else "ill-formed document: ") ++ fault.detail

/-! ## Events -/

/-- What a document consists of. -/
inductive Event where
  | opening (tag : Tag)
  | empty (tag : Tag)
  | closing
  | fault (fault : Fault)
deriving DecidableEq, Repr

/-- One piece of markup, before closing tags are matched. -/
inductive Piece where
  | opening (tag : Tag)
  | empty (tag : Tag)
  | closing (name : String)
  | ignored
deriving DecidableEq, Repr

/-! ## Pieces of markup -/

/-- Splits after the first `>` outside quotes. -/
def untilClose : (quote : Option Char) → List Char → Except Fault (List Char × List Char)
  | none, [] => .error .tagNotClosed
  | some quote, [] => .error (.valueNotClosed quote)
  | none, c :: s =>
    if c = '>' then .ok ([], s)
    else
      match untilClose (if isQuote c then some c else none) s with
      | .error fault => .error fault
      | .ok (content, rest) => .ok (c :: content, rest)
  | some quote, c :: s =>
    match untilClose (if c = quote then none else some quote) s with
    | .error fault => .error fault
    | .ok (content, rest) => .ok (c :: content, rest)

/-- The piece that a tag's content stands for. A leading slash makes a closing tag, whose name may
be followed by gaps; otherwise a trailing slash makes an empty element. -/
def Piece.ofContent (content : List Char) : Piece :=
  match content with
  | '/' :: name => .closing (String.ofList (name.reverse.dropWhile Text.isGap).reverse)
  | _ =>
    if content.getLast? = some '/' then .empty (Tag.ofContent content.dropLast)
    else .opening (Tag.ofContent content)

/-- Where the reader of a document type declaration stands. -/
inductive DoctypeState where
  /-- Before the internal subset. -/
  | head
  /-- Inside a quoted text before the internal subset. -/
  | headQuotation (quote : Char)
  /-- Between the declarations of the internal subset. -/
  | subset
  /-- After a `<` inside the internal subset and these characters, which do not decide yet what
  starts there. -/
  | opened (lead : List Char)
  /-- Inside a declaration of the internal subset that holds quoted texts. -/
  | declaration
  /-- Inside a quoted text of such a declaration. -/
  | quotation (quote : Char)
  /-- Inside other markup of the internal subset, where quotes mean nothing. -/
  | skipped
  /-- Inside a comment, after this many dashes. -/
  | comment (dashes : Nat)
  /-- Inside a processing instruction, perhaps after a question mark. -/
  | instruction (asked : Bool)
  /-- After the internal subset. -/
  | tail

/-- What opens a comment inside the internal subset. -/
def commentLead : List Char := ['!', '-', '-']

/-- What opens the declarations that hold quoted texts. -/
def quotingLeads : List (List Char) :=
  ["!ENTITY".toList, "!ATTLIST".toList, "!NOTATION".toList]

/-- Where the reader stands after a `<` inside the internal subset and the characters that follow
it, the last of which is `c`. -/
def DoctypeState.ofLead (lead : List Char) (c : Char) : DoctypeState :=
  if lead = ['?'] then .instruction false
  else if lead = commentLead then .comment 0
  else if lead ∈ quotingLeads then .declaration
  else if (commentLead :: quotingLeads).any lead.isPrefixOf then .opened lead
  else if c = '>' then .subset
  else .skipped

/-- One character of a document type declaration; nothing when it ends the declaration. -/
def DoctypeState.step (state : DoctypeState) (c : Char) : Option DoctypeState :=
  match state with
  | .head =>
    if c = '>' then none
    else some (if c = '[' then .subset else if isQuote c then .headQuotation c else .head)
  | .headQuotation quote => some (if c = quote then .head else .headQuotation quote)
  | .subset => some (if c = ']' then .tail else if c = '<' then .opened [] else .subset)
  | .opened lead => some (.ofLead (lead ++ [c]) c)
  | .declaration =>
    some (if c = '>' then .subset else if isQuote c then .quotation c else .declaration)
  | .quotation quote => some (if c = quote then .declaration else .quotation quote)
  | .skipped => some (if c = '>' then .subset else .skipped)
  | .comment dashes =>
    some (if c = '-' then .comment (dashes + 1)
      else if c = '>' && 2 ≤ dashes then .subset else .comment 0)
  | .instruction asked =>
    some (if c = '>' && asked then .subset else .instruction (c = '?'))
  | .tail => if c = '>' then none else some .tail

/-- What follows a document type declaration. -/
def afterDoctype? : DoctypeState → List Char → Option (List Char)
  | _, [] => none
  | state, c :: s =>
    match state.step c with
    | none => some s
    | some next => afterDoctype? next s

/-- What follows the keyword of a document type declaration, in any case. -/
def doctypeBody? (s : List Char) : Option (List Char) :=
  let keyword := ['d', 'o', 'c', 't', 'y', 'p', 'e']
  if (s.take keyword.length).map (fun c => if c.isUpper then c.toLower else c) = keyword then
    some (s.drop keyword.length)
  else none

/-- Reads a document type declaration from its keyword on. -/
def doctype (s : List Char) : Except Fault (List Char) :=
  match afterDoctype? .head s, doctypeBody? s with
  | some rest, some body =>
    if (body.dropWhile Text.isGap).head? = some '>' then .error .doctypeWithoutName else .ok rest
  | _, _ => .error .doctypeNotClosed

/-- Reads markup that starts with `<!`, from the character after it on. -/
def bang (s : List Char) : Except Fault (List Char) :=
  match s with
  | '-' :: body =>
    match Text.after? ['-'] body >>= Text.cut? ['-', '-', '>'] with
    | some parts => .ok parts.2
    | none => .error .commentNotClosed
  | '[' :: body =>
    match Text.after? ['C', 'D', 'A', 'T', 'A', '['] body >>= Text.cut? [']', ']', '>'] with
    | some parts => .ok parts.2
    | none => .error .cdataNotClosed
  | 'D' :: _ => doctype s
  | 'd' :: _ => doctype s
  | _ => .error .unknownMarkup

/-- Does an unfinished instruction look like the declaration at the start of a document? -/
def looksLikeDeclaration (s : List Char) : Bool :=
  match Text.after? ['x', 'm', 'l'] s with
  | some (c :: _) => Text.isGap c || c == '?'
  | some [] => true
  | none => false

/-- Reads a processing instruction, from the character after `<?` on. The question mark that opens
it does not close it, and no instruction starts with `>`. -/
def instruction (s : List Char) : Except Fault (List Char) :=
  match s with
  | '>' :: _ => .error .instructionNotClosed
  | _ =>
    match Text.cut? ['?', '>'] s with
    | some parts => .ok parts.2
    | none =>
      .error (if looksLikeDeclaration s then .declarationNotClosed else .instructionNotClosed)

/-- Reads one piece of markup, from the character after `<` on. -/
def piece (s : List Char) : Except Fault (Piece × List Char) :=
  match s with
  | '!' :: body =>
    match bang body with
    | .error fault => .error fault
    | .ok rest => .ok (.ignored, rest)
  | '?' :: body =>
    match instruction body with
    | .error fault => .error fault
    | .ok rest => .ok (.ignored, rest)
  | _ =>
    match untilClose none s with
    | .error fault => .error fault
    | .ok (content, rest) => .ok (.ofContent content, rest)

/-- What follows an entity reference, from the character after `&` on: everything after the next
semicolon, which has to come before the next `&`, the next `<` and the end. -/
def reference (s : List Char) : Except Fault (List Char) :=
  match s.dropWhile fun c => !(c == ';' || c == '&' || c == '<') with
  | ';' :: rest => .ok rest
  | _ => .error .referenceNotClosed

/-! ## Reading makes progress -/

/-- What follows a tag is shorter than the text. -/
theorem untilClose_length_lt {quote : Option Char} {s content rest : List Char}
    (h : untilClose quote s = .ok (content, rest)) : rest.length < s.length := by
  induction s generalizing quote content with
  | nil => cases quote <;> simp [untilClose] at h
  | cons c s ih =>
    have hlater : ∀ next : Option Char, (match untilClose next s with
        | .error fault => .error fault
        | .ok (content, rest) => .ok (c :: content, rest)) = Except.ok (content, rest) →
          rest.length < (c :: s).length := by
      intro next hnext
      split at hnext
      · simp at hnext
      · rename_i hinner
        simp only [Except.ok.injEq, Prod.mk.injEq] at hnext
        rw [hnext.2] at hinner
        exact Nat.lt_succ_of_lt (ih hinner)
    cases quote with
    | none =>
      rw [untilClose] at h
      split at h
      · simp only [Except.ok.injEq, Prod.mk.injEq] at h
        simp [h.2]
      · exact hlater _ h
    | some quote =>
      rw [untilClose] at h
      exact hlater _ h

/-- What follows a document type declaration is shorter than the text. -/
theorem afterDoctype?_length_lt {state : DoctypeState} {s rest : List Char}
    (h : afterDoctype? state s = some rest) : rest.length < s.length := by
  induction s generalizing state with
  | nil => simp [afterDoctype?] at h
  | cons c s ih =>
    simp only [afterDoctype?] at h
    split at h
    · simp at h; simp [h]
    · exact Nat.lt_succ_of_lt (ih h)

/-- What follows a document type declaration is no longer than the text from its keyword on. -/
theorem doctype_length_le {s rest : List Char} (h : doctype s = .ok rest) :
    rest.length ≤ s.length := by
  unfold doctype at h
  split at h
  · rename_i found _
    split at h
    · simp at h
    · obtain rfl := Except.ok.inj h
      exact Nat.le_of_lt (afterDoctype?_length_lt found)
  · simp at h

/-- What follows a mark after a lead is no longer than the text. -/
theorem after?_bind_cut?_length_le {lead mark s : List Char} {parts : List Char × List Char}
    (h : (Text.after? lead s >>= Text.cut? mark) = some parts) :
    parts.2.length ≤ s.length := by
  rw [Option.bind_eq_bind, Option.bind_eq_some_iff] at h
  obtain ⟨tail, hlead, hmark⟩ := h
  exact Nat.le_trans (Text.cut?_length_le hmark) (Text.after?_length_le hlead)

/-- What follows markup that starts with `<!` is no longer than the text. -/
theorem bang_length_le {s rest : List Char} (h : bang s = .ok rest) :
    rest.length ≤ s.length := by
  unfold bang at h
  split at h
  · split at h
    · rename_i found
      obtain rfl := Except.ok.inj h
      exact Nat.le_succ_of_le (after?_bind_cut?_length_le found)
    · simp at h
  · split at h
    · rename_i found
      obtain rfl := Except.ok.inj h
      exact Nat.le_succ_of_le (after?_bind_cut?_length_le found)
    · simp at h
  · exact doctype_length_le h
  · exact doctype_length_le h
  · simp at h

/-- What follows a processing instruction is no longer than the text. -/
theorem instruction_length_le {s rest : List Char} (h : instruction s = .ok rest) :
    rest.length ≤ s.length := by
  unfold instruction at h
  split at h
  · simp at h
  · split at h
    · rename_i cut
      simp only [Except.ok.injEq] at h
      subst h
      exact Text.cut?_length_le cut
    · simp at h

/-- What follows a piece of markup is no longer than the text. -/
theorem piece_length_le {s rest : List Char} {found : Piece}
    (h : piece s = .ok (found, rest)) : rest.length ≤ s.length := by
  unfold piece at h
  split at h
  · split at h
    · simp at h
    · rename_i inner
      simp only [Except.ok.injEq, Prod.mk.injEq] at h
      rw [h.2] at inner
      exact Nat.le_succ_of_le (bang_length_le inner)
  · split at h
    · simp at h
    · rename_i inner
      simp only [Except.ok.injEq, Prod.mk.injEq] at h
      rw [h.2] at inner
      exact Nat.le_succ_of_le (instruction_length_le inner)
  · split at h
    · simp at h
    · rename_i inner
      simp only [Except.ok.injEq, Prod.mk.injEq] at h
      rw [h.2] at inner
      exact Nat.le_of_lt (untilClose_length_lt inner)

/-- What follows an entity reference is no longer than the text. -/
theorem reference_length_le {s rest : List Char} (h : reference s = .ok rest) :
    rest.length ≤ s.length := by
  unfold reference at h
  split at h
  · rename_i found
    simp only [Except.ok.injEq] at h
    subst h
    have := congrArg List.length found
    have := (List.dropWhile_suffix (l := s) fun c => !(c == ';' || c == '&' || c == '<')).length_le
    simp_all
    omega
  · simp at h

/-! ## Documents -/

/-- The events of a text, where `opened` are the names of the open elements, innermost first. -/
def eventsFrom (opened : List String) (s : List Char) : List Event :=
  match s with
  | [] => []
  | c :: s =>
    if c = '<' then
      match h : piece s with
      | .error fault => [.fault fault]
      | .ok (found, rest) =>
        have : rest.length ≤ s.length := piece_length_le h
        match found with
        | .ignored => eventsFrom opened rest
        | .opening tag => .opening tag :: eventsFrom (tag.name :: opened) rest
        | .empty tag => .empty tag :: eventsFrom opened rest
        | .closing name =>
          match opened with
          | [] => [.fault (.unmatchedClose name)]
          | expected :: outer =>
            if expected = name then .closing :: eventsFrom outer rest
            else [.fault (.wrongClose expected name)]
    else if c = '&' then
      match h : reference s with
      | .error fault => [.fault fault]
      | .ok rest =>
        have : rest.length ≤ s.length := reference_length_le h
        eventsFrom opened rest
    else eventsFrom opened s
termination_by s.length
decreasing_by
  · exact Nat.lt_succ_of_le this
  · exact Nat.lt_succ_of_le this
  · exact Nat.lt_succ_of_le this
  · exact Nat.lt_succ_of_le this
  · exact Nat.lt_succ_of_le this
  · exact Nat.lt_succ_self s.length

/-- The events of a document. A byte order mark at the very start is no part of it. -/
def events (document : String) : List Event :=
  match document.toList with
  | '\ufeff' :: s => eventsFrom [] s
  | s => eventsFrom [] s

end DsdlHeaders.Markup

import Mathlib.Data.List.Perm.Basic
import Mathlib.Data.List.TakeWhile
import Mathlib.Tactic.Common
import DsdlHeaders.Document.Writer
import DsdlHeaders.Markup.Event

/-!
# Written elements are read back

Elements that were written with quoted attributes are read back as the same tags.

* **Tags**: the content of a written tag ends at its own closing bracket, whatever brackets stand
  inside its attribute values (`untilClose_writeHead`), and gives the name and the attributes that
  were written (`Tag.ofContent_writeHead`).
* **Texts**: `Lexes text events` says that a text stands for these events wherever it occurs. The
  relation composes: it holds of the parts of a text one after the other (`Lexes.append`), of an
  element around a text (`Lexes.element`) and of an empty element (`Lexes.empty`).

Of a name this needs that it is a plain word (`IsWord`), of an attribute that its key is one and
that its value holds no double quote (`Attribute.Quotable`), and that the keys are distinct
(`IsHead`).
-/

namespace DsdlHeaders.Markup

open Document (writeAttribute writeHead writeElement writeEmpty)

/-! ## Words and attributes -/

/-- A character that means nothing to the markup reader. -/
def isPlain (c : Char) : Bool :=
  !(Text.isGap c || isQuote c || c == '>' || c == '=' || c == '/' || c == '!' || c == '?')

/-- A name or key that is read back as it is. -/
structure IsWord (s : List Char) : Prop where
  ne_nil : s ≠ []
  plain : ∀ c ∈ s, isPlain c = true

/-- Words can be told by their characters. -/
theorem isWord_iff {s : List Char} : IsWord s ↔ s.isEmpty = false ∧ s.all isPlain = true := by
  rw [List.isEmpty_eq_false_iff, List.all_eq_true]
  exact ⟨fun h => ⟨h.ne_nil, h.plain⟩, fun h => ⟨h.1, h.2⟩⟩

instance (s : List Char) : Decidable (IsWord s) :=
  decidable_of_iff (s.isEmpty = false ∧ s.all isPlain = true) isWord_iff.symm

/-- An attribute that can be written between double quotes. -/
structure Attribute.Quotable (item : Attribute) : Prop where
  key : IsWord item.key.toList
  value : '"' ∉ item.value.toList

/-- A name and attributes that are read back as they are. -/
structure IsHead (name : String) (attributes : List Attribute) : Prop where
  name : IsWord name.toList
  items : ∀ item ∈ attributes, item.Quotable
  distinct : (attributes.map Attribute.key).Nodup

/-- An element without attributes. -/
theorem IsHead.nil {name : String} (hname : IsWord name.toList) : IsHead name [] :=
  ⟨hname, by simp, by simp⟩

/-- One more attribute. -/
theorem IsHead.cons {name key value : String} {attributes : List Attribute}
    (hkey : IsWord key.toList) (hvalue : '"' ∉ value.toList)
    (hnew : key ∉ attributes.map Attribute.key) (h : IsHead name attributes) :
    IsHead name (⟨key, value⟩ :: attributes) := by
  refine ⟨h.name, ?_, List.nodup_cons.mpr ⟨hnew, h.distinct⟩⟩
  intro item hitem
  rcases List.mem_cons.mp hitem with rfl | hitem
  · exact ⟨hkey, hvalue⟩
  · exact h.items item hitem

/-- The order of the attributes does not matter. -/
theorem IsHead.of_perm {name : String} {written attributes : List Attribute}
    (h : IsHead name attributes) (hwritten : written.Perm attributes) : IsHead name written where
  name := h.name
  items := fun item hitem => h.items item (hwritten.mem_iff.mp hitem)
  distinct := (hwritten.map Attribute.key).nodup_iff.mpr h.distinct

/-- What a plain character is not. -/
theorem isPlain_iff {c : Char} : isPlain c = true ↔ Text.isGap c = false ∧ isQuote c = false ∧
    c ≠ '>' ∧ c ≠ '=' ∧ c ≠ '/' ∧ c ≠ '!' ∧ c ≠ '?' := by
  simp [isPlain, and_assoc]

/-! ## The end of a tag -/

/-- Plain characters and separators belong to the tag. -/
theorem untilClose_append {s : List Char} (h : ∀ c ∈ s, c ≠ '>' ∧ isQuote c = false)
    (t : List Char) :
    untilClose none (s ++ t) = (untilClose none t).map fun found => (s ++ found.1, found.2) := by
  induction s with
  | nil =>
    rw [List.nil_append]
    cases untilClose none t <;> rfl
  | cons c s ih =>
    obtain ⟨hc, hquote⟩ := h c (by simp)
    rw [List.cons_append, untilClose, if_neg hc, hquote, if_neg (by simp),
      ih fun d hd => h d (by simp [hd])]
    cases untilClose none t <;> rfl

/-- A quoted text belongs to the tag. -/
theorem untilClose_quoted {quote : Char} {value : List Char} (h : quote ∉ value) (t : List Char) :
    untilClose (some quote) (value ++ quote :: t) =
      (untilClose none t).map fun found => (value ++ quote :: found.1, found.2) := by
  induction value with
  | nil =>
    rw [List.nil_append, untilClose, if_pos rfl]
    cases untilClose none t <;> rfl
  | cons c value ih =>
    obtain ⟨hc, hvalue⟩ := not_or.mp (List.mem_cons.not.mp h)
    rw [List.cons_append, untilClose, if_neg (Ne.symm hc), ih hvalue]
    cases untilClose none t <;> rfl

/-- A written attribute belongs to the tag. -/
theorem untilClose_writeAttribute {item : Attribute} (h : item.Quotable) (t : List Char) :
    untilClose none (writeAttribute item ++ t) =
      (untilClose none t).map fun found => (writeAttribute item ++ found.1, found.2) := by
  have hlead : ∀ c ∈ ' ' :: item.key.toList ++ ['='], c ≠ '>' ∧ isQuote c = false := by
    intro c hc
    rcases List.mem_append.mp hc with hc | hc
    · rcases List.mem_cons.mp hc with rfl | hc
      · decide
      · have := isPlain_iff.mp (h.key.plain c hc)
        exact ⟨this.2.2.1, this.2.1⟩
    · rw [List.mem_singleton.mp hc]
      decide
  have hsplit : ∀ t : List Char, writeAttribute item ++ t =
      (' ' :: item.key.toList ++ ['=']) ++ '"' :: (item.value.toList ++ '"' :: t) := by
    intro t
    simp [writeAttribute]
  rw [hsplit, untilClose_append hlead, untilClose, if_neg (by decide), if_pos (by decide),
    untilClose_quoted h.value]
  cases untilClose none t with
  | error fault => rfl
  | ok found => simp [Except.map, hsplit]

/-- The name and the attributes of an element belong to its tag. -/
theorem untilClose_writeHead {name : String} {attributes : List Attribute}
    (h : IsHead name attributes) (t : List Char) :
    untilClose none (writeHead name attributes ++ t) =
      (untilClose none t).map fun found => (writeHead name attributes ++ found.1, found.2) := by
  have hattributes : untilClose none (attributes.flatMap writeAttribute ++ t) =
      (untilClose none t).map fun found =>
        (attributes.flatMap writeAttribute ++ found.1, found.2) := by
    have hitems := h.items
    clear h
    induction attributes with
    | nil =>
      rw [List.flatMap_nil, List.nil_append]
      cases untilClose none t <;> rfl
    | cons item attributes ih =>
      rw [List.flatMap_cons, List.append_assoc, untilClose_writeAttribute (hitems item (by simp)),
        ih fun other hother => hitems other (by simp [hother])]
      cases untilClose none t with
      | error fault => rfl
      | ok found => simp [Except.map]
  have hplain : ∀ c ∈ name.toList, c ≠ '>' ∧ isQuote c = false := fun c hc =>
    have := isPlain_iff.mp (h.name.plain c hc)
    ⟨this.2.2.1, this.2.1⟩
  rw [writeHead, List.append_assoc, untilClose_append hplain, hattributes]
  cases untilClose none t with
  | error fault => rfl
  | ok found => simp [Except.map]

/-! ## The content of a tag -/

/-- The characters of a key are collected one by one. -/
theorem attributesFrom_inKey {key : List Char} (h : ∀ c ∈ key, isPlain c = true)
    (seen : List String) (collected t : List Char) :
    attributesFrom seen (.inKey collected) (key ++ t) =
      attributesFrom seen (.inKey (key.reverse ++ collected)) t := by
  induction key generalizing collected with
  | nil => rfl
  | cons c key ih =>
    have hc := isPlain_iff.mp (h c (by simp))
    rw [List.cons_append, attributesFrom, if_neg hc.2.2.2.1, hc.1, if_neg (by simp),
      ih (fun d hd => h d (by simp [hd])), List.reverse_cons, List.append_assoc]
    rfl

/-- The characters of a value are collected up to its closing quote. -/
theorem attributesFrom_inValue {value : List Char} (h : '"' ∉ value) (seen : List String)
    (key : String) (collected t : List Char) :
    attributesFrom seen (.inValue key '"' collected) (value ++ '"' :: t) =
      ⟨key, String.ofList (collected.reverse ++ value)⟩ :: attributesFrom seen .between t := by
  induction value generalizing collected with
  | nil => rw [List.nil_append, attributesFrom, if_pos rfl, List.append_nil]
  | cons c value ih =>
    obtain ⟨hc, hvalue⟩ := not_or.mp (List.mem_cons.not.mp h)
    rw [List.cons_append, attributesFrom, if_neg (Ne.symm hc), ih hvalue, List.reverse_cons,
      List.append_assoc]
    rfl

/-- A written attribute with a new key is read back. -/
theorem attributesFrom_writeAttribute {item : Attribute} (h : item.Quotable) {seen : List String}
    (hseen : item.key ∉ seen) (t : List Char) :
    attributesFrom seen .between (writeAttribute item ++ t) =
      item :: attributesFrom (item.key :: seen) .between t := by
  obtain ⟨key, value⟩ := item
  obtain ⟨hkey, hvalue⟩ := h
  simp only at hkey hvalue hseen
  rcases hchars : key.toList with _ | ⟨c, rest⟩
  · exact absurd hchars hkey.ne_nil
  · rw [hchars] at hkey
    have hc := isPlain_iff.mp (hkey.plain c (by simp))
    have hname : String.ofList ((rest.reverse ++ [c]).reverse) = key := by
      rw [List.reverse_append, List.reverse_reverse, List.reverse_singleton,
        List.singleton_append, ← hchars, String.ofList_toList]
    have hsplit : writeAttribute ⟨key, value⟩ ++ t =
        ' ' :: c :: (rest ++ '=' :: '"' :: (value.toList ++ '"' :: t)) := by
      simp [writeAttribute, hchars]
    rw [hsplit, attributesFrom, if_pos (by decide), attributesFrom, hc.1, if_neg (by simp),
      attributesFrom_inKey (fun d hd => hkey.plain d (by simp [hd])), attributesFrom, if_pos rfl]
    simp only [hname, hseen, if_false]
    rw [attributesFrom, if_neg (by decide), if_pos (by decide), attributesFrom_inValue hvalue]
    simp

/-- Written attributes with distinct keys are read back. -/
theorem attributesFrom_flatMap {attributes : List Attribute}
    (h : ∀ item ∈ attributes, item.Quotable) {seen : List String}
    (hdistinct : (attributes.map Attribute.key).Nodup)
    (hseen : ∀ key ∈ attributes.map Attribute.key, key ∉ seen) :
    attributesFrom seen .between (attributes.flatMap writeAttribute) = attributes := by
  induction attributes generalizing seen with
  | nil => exact attributesFrom_nil seen .between
  | cons item attributes ih =>
    rw [List.map_cons, List.nodup_cons] at hdistinct
    rw [List.flatMap_cons, attributesFrom_writeAttribute (h item (by simp))
      (hseen item.key (by simp)), ih (fun other hother => h other (by simp [hother])) hdistinct.2]
    intro key hkey hmem
    rcases List.mem_cons.mp hmem with rfl | hmem
    · exact hdistinct.1 hkey
    · exact hseen key (by simp [hkey]) hmem

/-- The content of a written tag gives its name and its attributes. -/
theorem Tag.ofContent_writeHead {name : String} {attributes : List Attribute}
    (h : IsHead name attributes) :
    Tag.ofContent (writeHead name attributes) = ⟨name, attributes⟩ := by
  have hword : ∀ c ∈ name.toList, (!Text.isGap c) = true := by
    intro c hc
    simp [(isPlain_iff.mp (h.name.plain c hc)).1]
  -- the first attribute starts with a space
  have hgap : (attributes.flatMap writeAttribute).takeWhile (fun c => !Text.isGap c) = [] ∧
      (attributes.flatMap writeAttribute).dropWhile (fun c => !Text.isGap c) =
        attributes.flatMap writeAttribute := by
    cases attributes with
    | nil => exact ⟨rfl, rfl⟩
    | cons item attributes =>
      rw [List.flatMap_cons, writeAttribute]
      exact ⟨rfl, rfl⟩
  unfold Tag.ofContent writeHead
  simp only
  rw [List.takeWhile_append_of_pos hword, List.dropWhile_append_of_pos hword, hgap.1, hgap.2,
    List.append_nil, String.ofList_toList,
    attributesFrom_flatMap h.items h.distinct (by simp)]

/-! ## Pieces of markup -/

/-- A tag that starts with neither of the two marks is read up to its closing bracket. -/
theorem piece_of_untilClose {s content rest : List Char} (hbang : s.head? ≠ some '!')
    (hask : s.head? ≠ some '?') (h : untilClose none s = .ok (content, rest)) :
    piece s = .ok (.ofContent content, rest) := by
  unfold piece
  split
  · exact absurd rfl hbang
  · exact absurd rfl hask
  · rw [h]

/-- Content without a leading slash is an empty element if a slash ends it. -/
theorem Piece.ofContent_of_head? {content : List Char} (h : content.head? ≠ some '/') :
    Piece.ofContent content = if content.getLast? = some '/' then
      .empty (Tag.ofContent content.dropLast) else .opening (Tag.ofContent content) := by
  unfold Piece.ofContent
  split
  · exact absurd rfl h
  · rfl

/-- A written tag starts with a plain character. -/
theorem head?_writeHead {name : String} (hname : IsWord name.toList) (attributes : List Attribute)
    (t : List Char) :
    ∃ c, isPlain c = true ∧ (writeHead name attributes ++ t).head? = some c := by
  rcases hchars : name.toList with _ | ⟨c, rest⟩
  · exact absurd hchars hname.ne_nil
  · refine ⟨c, hname.plain c (by simp [hchars]), ?_⟩
    simp [writeHead, hchars]

/-- No slash ends the name and the attributes of a written tag. -/
theorem getLast?_writeHead {name : String} (hname : IsWord name.toList)
    (attributes : List Attribute) : (writeHead name attributes).getLast? ≠ some '/' := by
  rcases List.eq_nil_or_concat' attributes with rfl | ⟨init, item, rfl⟩
  · intro hlast
    rw [writeHead, List.flatMap_nil, List.append_nil] at hlast
    have := isPlain_iff.mp (hname.plain '/' (List.mem_of_getLast? hlast))
    exact this.2.2.2.2.1 rfl
  · have hquote : (writeHead name (init ++ [item])).getLast? = some '"' := by
      rw [writeHead, List.flatMap_append, List.flatMap_singleton, writeAttribute,
        ← List.append_assoc, ← List.append_assoc]
      exact List.getLast?_concat
    rw [hquote]
    decide

variable {name : String} {attributes : List Attribute}

/-- A start tag is read back. -/
theorem piece_opening (h : IsHead name attributes) (t : List Char) :
    piece (writeHead name attributes ++ '>' :: t) = .ok (.opening ⟨name, attributes⟩, t) := by
  obtain ⟨c, hc, hhead⟩ := head?_writeHead h.name attributes ('>' :: t)
  have hc := isPlain_iff.mp hc
  obtain ⟨d, hd, hcontent⟩ := head?_writeHead h.name attributes []
  have hd := isPlain_iff.mp hd
  rw [List.append_nil] at hcontent
  have hclose : untilClose none (writeHead name attributes ++ '>' :: t) =
      .ok (writeHead name attributes, t) := by
    rw [untilClose_writeHead h, untilClose, if_pos rfl]
    simp [Except.map]
  rw [piece_of_untilClose (by simp [hhead, hc]) (by simp [hhead, hc]) hclose,
    Piece.ofContent_of_head? (by simp [hcontent, hd]),
    if_neg (getLast?_writeHead h.name attributes), Tag.ofContent_writeHead h]

/-- An empty-element tag is read back. -/
theorem piece_empty (h : IsHead name attributes) (t : List Char) :
    piece (writeHead name attributes ++ '/' :: '>' :: t) = .ok (.empty ⟨name, attributes⟩, t) := by
  obtain ⟨c, hc, hhead⟩ := head?_writeHead h.name attributes ('/' :: '>' :: t)
  have hc := isPlain_iff.mp hc
  obtain ⟨d, hd, hcontent⟩ := head?_writeHead h.name attributes ['/']
  have hd := isPlain_iff.mp hd
  have hclose : untilClose none (writeHead name attributes ++ '/' :: '>' :: t) =
      .ok (writeHead name attributes ++ ['/'], t) := by
    rw [untilClose_writeHead h, untilClose, if_neg (by decide), if_neg (by decide),
      untilClose, if_pos rfl]
    rfl
  rw [piece_of_untilClose (by simp [hhead, hc]) (by simp [hhead, hc]) hclose,
    Piece.ofContent_of_head? (by simp [hcontent, hd]), if_pos (by simp), List.dropLast_concat,
    Tag.ofContent_writeHead h]

/-- An end tag is read back. -/
theorem piece_closing (hname : IsWord name.toList) (t : List Char) :
    piece ('/' :: (name.toList ++ '>' :: t)) = .ok (.closing name, t) := by
  have hplain : ∀ c ∈ '/' :: name.toList, c ≠ '>' ∧ isQuote c = false := by
    intro c hc
    rcases List.mem_cons.mp hc with rfl | hc
    · decide
    · have := isPlain_iff.mp (hname.plain c hc)
      exact ⟨this.2.2.1, this.2.1⟩
  have hclose : untilClose none ('/' :: name.toList ++ '>' :: t) = .ok ('/' :: name.toList, t) := by
    rw [untilClose_append hplain, untilClose, if_pos rfl]
    simp [Except.map]
  -- no gap follows the name
  have hgap : name.toList.reverse.dropWhile Text.isGap = name.toList.reverse := by
    rw [List.dropWhile_eq_self_iff]
    intro hlength
    have := isPlain_iff.mp (hname.plain _ (List.mem_reverse.mp (List.getElem_mem hlength)))
    rw [this.1]
    decide
  rw [← List.cons_append, piece_of_untilClose (by simp) (by simp) hclose, Piece.ofContent, hgap,
    List.reverse_reverse, String.ofList_toList]

/-! ## Texts and their events -/

/-- What the markup after a bracket says is what comes next. -/
theorem eventsFrom_markup {s rest : List Char} {found : Piece} (h : piece s = .ok (found, rest))
    (opened : List String) :
    eventsFrom opened ('<' :: s) =
      match found with
      | .ignored => eventsFrom opened rest
      | .opening tag => .opening tag :: eventsFrom (tag.name :: opened) rest
      | .empty tag => .empty tag :: eventsFrom opened rest
      | .closing name =>
        match opened with
        | [] => [.fault (.unmatchedClose name)]
        | expected :: outer =>
          if expected = name then .closing :: eventsFrom outer rest
          else [.fault (.wrongClose expected name)] := by
  rw [eventsFrom, if_pos rfl]
  split
  · rename_i hfault
    rw [h] at hfault
    exact absurd hfault (by simp)
  · rename_i hfound
    rw [h] at hfound
    obtain ⟨rfl, rfl⟩ := Prod.mk.inj (Except.ok.inj hfound)
    cases found <;> rfl

/-- Faulty markup is the last event. -/
theorem eventsFrom_fault {s : List Char} {fault : Fault} (h : piece s = .error fault)
    (opened : List String) : eventsFrom opened ('<' :: s) = [.fault fault] := by
  rw [eventsFrom, if_pos rfl]
  split
  · rename_i hfault
    rw [h] at hfault
    rw [Except.error.inj hfault]
  · rename_i hfound
    rw [h] at hfound
    exact absurd hfound (by simp)

/-- A reference leaves no event, or it is a fault. -/
theorem eventsFrom_reference (opened : List String) (s : List Char) :
    eventsFrom opened ('&' :: s) =
      match reference s with
      | .error fault => [.fault fault]
      | .ok rest => eventsFrom opened rest := by
  rw [eventsFrom, if_neg (by decide), if_pos rfl]
  split
  · rename_i hfault
    rw [hfault]
  · rename_i hfound
    simp only [hfound]

/-- A character that opens neither markup nor a reference leaves no event. -/
theorem eventsFrom_char {c : Char} (hmarkup : c ≠ '<') (hreference : c ≠ '&')
    (opened : List String) (s : List Char) : eventsFrom opened (c :: s) = eventsFrom opened s := by
  rw [eventsFrom, if_neg hmarkup, if_neg hreference]

/-- A text that stands for these events wherever it occurs. -/
def Lexes (text : List Char) (events : List Event) : Prop :=
  ∀ opened rest, eventsFrom opened (text ++ rest) = events ++ eventsFrom opened rest

namespace Lexes

/-- Two texts one after the other. -/
theorem append {first second : List Char} {before after : List Event} (hfirst : Lexes first before)
    (hsecond : Lexes second after) : Lexes (first ++ second) (before ++ after) := by
  intro opened rest
  rw [List.append_assoc, hfirst, hsecond, List.append_assoc]

/-- A text in which neither markup nor a reference starts. -/
theorem plain {text : List Char} (h : ∀ c ∈ text, c ≠ '<' ∧ c ≠ '&') : Lexes text [] := by
  intro opened rest
  induction text with
  | nil => rfl
  | cons c text ih =>
    obtain ⟨⟨hmarkup, hreference⟩, htext⟩ := List.forall_mem_cons.mp h
    rw [List.cons_append, eventsFrom_char hmarkup hreference, ih htext]

/-- A text of white space. -/
theorem blank {text : List Char} (h : ∀ c ∈ text, Text.isGap c = true) : Lexes text [] := by
  refine plain fun c hc => ?_
  have hgap := h c hc
  constructor <;> rintro rfl <;> exact absurd hgap (by decide)

/-- An empty element. -/
theorem empty (h : IsHead name attributes) :
    Lexes (writeEmpty name attributes) [.empty ⟨name, attributes⟩] := by
  intro opened rest
  have hsplit : writeEmpty name attributes ++ rest =
      '<' :: (writeHead name attributes ++ '/' :: '>' :: rest) := by
    simp [writeEmpty]
  rw [hsplit, eventsFrom_markup (piece_empty h rest)]
  rfl

/-- An element around a text. -/
theorem element (h : IsHead name attributes) {content : List Char} {events : List Event}
    (hcontent : Lexes content events) :
    Lexes (writeElement name attributes content)
      (.opening ⟨name, attributes⟩ :: (events ++ [.closing])) := by
  intro opened rest
  have hsplit : writeElement name attributes content ++ rest =
      '<' :: (writeHead name attributes ++ '>' ::
        (content ++ '<' :: '/' :: (name.toList ++ '>' :: rest))) := by
    simp [writeElement]
  rw [hsplit, eventsFrom_markup (piece_opening h _)]
  dsimp only
  rw [hcontent, eventsFrom_markup (piece_closing h.name rest)]
  dsimp only
  rw [if_pos rfl]
  simp

end Lexes

end DsdlHeaders.Markup

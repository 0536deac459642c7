import DsdlHeaders.Document.Reader
import DsdlHeaders.Proofs.Markup.Items

/-!
# Comments and white space between tags

Comments and white space after a tag say nothing, wherever the tag stands: inside a list of
definitions, a body, a type or an element that is passed over, and also in a document that turns out
to be faulty later on.

* **Steady texts**: what a text stands for does not depend on what follows it (`Steady`). Reading
  either stops inside it, because of a fault, or goes on behind it with names of open elements that
  the text alone decides. A reference looks for its end in what follows, but no further than to the
  next markup (`reference_append_markup`), so rows of items with a tag at their end are steady
  (`Items.steady`).
* **Ignorable texts** leave no event (`Ignorable.lexes`). Put behind a steady text, they change none
  of the events of a document (`Steady.eventsFrom_insert`).

Main statement: what is read from a document, or why it is turned down, stays the same when comments
and white space are put behind one of its tags (`parse_insert`).
-/

namespace DsdlHeaders

namespace Markup

variable {text inserted : List Char}

/-! ## Steady texts -/

/-- What a text stands for does not depend on what follows it. -/
def Steady (text : List Char) : Prop :=
  ∀ opened, (∃ events, ∀ rest, eventsFrom opened (text ++ rest) = events) ∨
    ∃ events inner, ∀ rest, eventsFrom opened (text ++ rest) = events ++ eventsFrom inner rest

/-- Two steady texts one after the other. -/
theorem Steady.append {first second : List Char} (hfirst : Steady first) (hsecond : Steady second) :
    Steady (first ++ second) := by
  intro opened
  simp only [List.append_assoc]
  rcases hfirst opened with ⟨events, hstops⟩ | ⟨before, inner, hpasses⟩
  · exact .inl ⟨events, fun rest => hstops (second ++ rest)⟩
  · rcases hsecond inner with ⟨events, hstops⟩ | ⟨after, last, hlater⟩
    · exact .inl ⟨before ++ events, fun rest => by rw [hpasses, hstops]⟩
    · exact .inr ⟨before ++ after, last, fun rest => by rw [hpasses, hlater, List.append_assoc]⟩

/-- Definite markup is steady. -/
theorem Definite.steady {body : List Char} (h : Definite body) : Steady ('<' :: body) := by
  intro opened
  rcases h with ⟨found, hpiece⟩ | ⟨fault, hpiece⟩
  · have hevents := fun rest => eventsFrom_markup (hpiece rest) opened
    cases found with
    | ignored => exact .inr ⟨[], opened, hevents⟩
    | opening tag => exact .inr ⟨[.opening tag], tag.name :: opened, hevents⟩
    | empty tag => exact .inr ⟨[.empty tag], opened, hevents⟩
    | closing name =>
      cases opened with
      | nil => exact .inl ⟨[.fault (.unmatchedClose name)], hevents⟩
      | cons expected outer =>
        by_cases hname : expected = name
        · exact .inr ⟨[.closing], outer, fun rest => (hevents rest).trans (if_pos hname)⟩
        · exact .inl ⟨[.fault (.wrongClose expected name)],
            fun rest => (hevents rest).trans (if_neg hname)⟩
  · exact .inl ⟨[.fault fault], fun rest => eventsFrom_fault (hpiece rest) opened⟩

/-- What follows a reference is the end of the text that the reference starts. -/
theorem suffix_of_reference {s rest : List Char} (h : reference s = .ok rest) : rest <:+ s := by
  unfold reference at h
  split at h
  · rename_i found hfound
    obtain rfl := Except.ok.inj h
    refine (List.suffix_cons ';' found).trans ?_
    rw [← hfound]
    exact List.dropWhile_suffix _
  · exact absurd h (by simp)

/-- The search for the end of a reference goes no further than to markup. -/
theorem reference_append_markup (lead s : List Char) :
    reference (lead ++ '<' :: s) = (reference lead).map (· ++ '<' :: s) := by
  have hstop : (lead ++ '<' :: s).dropWhile (fun c => !(c == ';' || c == '&' || c == '<')) =
      lead.dropWhile (fun c => !(c == ';' || c == '&' || c == '<')) ++ '<' :: s := by
    rw [List.dropWhile_append]
    split_ifs with hall
    · rw [List.isEmpty_iff.mp hall]
      rfl
    · rfl
  unfold reference
  rw [hstop]
  cases lead.dropWhile (fun c => !(c == ';' || c == '&' || c == '<')) with
  | nil => rfl
  | cons d rest =>
    by_cases hd : d = ';'
    · subst hd
      rfl
    · rw [List.cons_append]
      split <;> split <;> simp_all [Except.map]

/-- Text in front of markup says nothing, unless there is a faulty reference in it. -/
theorem eventsFrom_append_markup {lead : List Char} (h : '<' ∉ lead) :
    (∀ opened s, eventsFrom opened (lead ++ '<' :: s) = eventsFrom opened ('<' :: s)) ∨
      ∃ fault, ∀ opened s, eventsFrom opened (lead ++ '<' :: s) = [.fault fault] := by
  induction hlength : lead.length using Nat.strongRecOn generalizing lead with
  | ind length ih =>
    subst hlength
    cases lead with
    | nil => exact .inl fun _ _ => rfl
    | cons c lead =>
      obtain ⟨hc, hlead⟩ := not_or.mp (List.mem_cons.not.mp h)
      by_cases hreference : c = '&'
      · subst hreference
        simp only [List.cons_append, eventsFrom_reference, reference_append_markup]
        cases hread : reference lead with
        | error fault => exact .inr ⟨fault, fun _ _ => rfl⟩
        | ok rest =>
          have hrest : '<' ∉ rest := fun hmem => hlead ((suffix_of_reference hread).subset hmem)
          exact ih rest.length (Nat.lt_succ_of_le (reference_length_le hread)) hrest rfl
      · simp only [List.cons_append, eventsFrom_char (Ne.symm hc) hreference]
        exact ih lead.length (Nat.lt_succ_self _) hlead rfl

/-- Text in front of a steady text that starts with markup. -/
theorem Steady.append_text {lead s : List Char} (hlead : '<' ∉ lead) (h : Steady ('<' :: s)) :
    Steady (lead ++ '<' :: s) := by
  intro opened
  rcases eventsFrom_append_markup hlead with hpasses | ⟨fault, hstops⟩
  · simp only [List.append_assoc, List.cons_append, hpasses]
    exact h opened
  · exact .inl ⟨[.fault fault], fun rest => by rw [List.append_assoc]; exact hstops opened _⟩

/-- A row of items with definite markup at its end is steady. -/
theorem Items.steady {before body : List Char} (h : Items before) (hbody : Definite body) :
    Steady (before ++ '<' :: body) := by
  -- single characters are collected until the next markup
  suffices hlead : ∀ lead, '<' ∉ lead → Steady (lead ++ (before ++ '<' :: body)) from
    hlead [] List.not_mem_nil
  induction h with
  | nil => exact fun lead hlead => hbody.steady.append_text hlead
  | @cons item before hitem _ ih =>
    intro lead hlead
    rcases hitem.char_or_definite with ⟨c, rfl, hc⟩ | ⟨text, rfl, htext⟩
    · have hlonger : '<' ∉ lead ++ [c] := by simp [hlead, Ne.symm hc]
      simpa using ih (lead ++ [c]) hlonger
    · have hsteady := htext.steady.append (ih [] List.not_mem_nil)
      simpa using hsteady.append_text hlead

/-! ## Ignorable texts -/

/-- Comments and white space, one after the other. -/
inductive Ignorable : List Char → Prop where
  | comment {body : List Char} (hbody : ¬ ['-', '-', '>'] <:+: body) :
      Ignorable ('<' :: '!' :: '-' :: '-' :: (body ++ ['-', '-', '>']))
  | blank {text : List Char} (htext : ∀ c ∈ text, Text.isBlank c = true) : Ignorable text
  | append {first second : List Char} (hfirst : Ignorable first) (hsecond : Ignorable second) :
      Ignorable (first ++ second)

/-- Comments and white space leave no event. -/
theorem Ignorable.lexes (h : Ignorable inserted) : Lexes inserted [] := by
  induction h with
  | comment hbody =>
    exact fun opened rest => eventsFrom_markup ((IsSilent.comment hbody).piece_eq rest) opened
  | blank htext =>
    refine .plain fun c hc => ?_
    have hblank := htext c hc
    constructor <;> rintro rfl <;> exact absurd hblank (by decide)
  | append _ _ ihfirst ihsecond => exact ihfirst.append ihsecond

/-- What leaves no event can be put behind a steady text. -/
theorem Steady.eventsFrom_insert (h : Steady text) (hinserted : Lexes inserted [])
    (opened : List String) (after : List Char) :
    eventsFrom opened (text ++ (inserted ++ after)) = eventsFrom opened (text ++ after) := by
  rcases h opened with ⟨events, hstops⟩ | ⟨events, inner, hpasses⟩
  · rw [hstops, hstops]
  · rw [hpasses, hpasses, hinserted]
    rfl

/-- The byte order mark leaves no event, so documents are read like other texts. -/
theorem events_eq (document : String) : events document = eventsFrom [] document.toList := by
  unfold events
  split
  · rename_i s hs
    rw [hs, eventsFrom_char (by decide) (by decide)]
  · rfl

end Markup

namespace Document

open Markup

/-- **Comments and white space behind a tag change nothing.** Wherever a tag ends in a document, the
same types are read with comments and white space put there, or the document is turned down for the
same reason. -/
theorem parse_insert {before tag inserted : List Char} (hbefore : Items before) (htag : IsTag tag)
    (hinserted : Ignorable inserted) (after : List Char) :
    parse (String.ofList (before ++ tag ++ inserted ++ after)) =
      parse (String.ofList (before ++ tag ++ after)) := by
  obtain ⟨body, found, rfl, hpiece⟩ := htag.exists_piece
  have hsteady := hbefore.steady (.inl ⟨found, hpiece⟩)
  have hevents := hsteady.eventsFrom_insert hinserted.lexes [] after
  unfold parse
  rw [events_eq, events_eq, String.toList_ofList, String.toList_ofList, List.append_assoc, hevents]

/-- A remark that looks like a tag, behind a tag with a bracket in its value. -/
theorem parse_insert_remark :
    parse "<dsdl><message name=\"a>B\"><!-- </dsdl> -->\n</message></dsdl>" =
      parse "<dsdl><message name=\"a>B\"></message></dsdl>" ∧
    ((parse "<dsdl><message name=\"a>B\"></message></dsdl>").toOption.map fun types =>
      types.map Definition.fullName) = some ["a>B"] := by
  have hroot : IsTag "<dsdl>".toList := ⟨"dsdl".toList, by decide⟩
  have htag : IsTag "<message name=\"a>B\">".toList := ⟨"message name=\"a>B\"".toList, by decide⟩
  have hbody : ¬ ['-', '-', '>'] <:+: " </dsdl> ".toList := by decide
  have hblank : Ignorable "\n".toList := .blank fun c hc => by
    rw [List.mem_singleton.mp hc]
    decide
  have hremark : Ignorable ("<!-- </dsdl> -->".toList ++ "\n".toList) :=
    .append (.comment hbody) hblank
  refine ⟨?_, by decide +kernel⟩
  exact parse_insert (.cons (.tag hroot) .nil) htag hremark "</message></dsdl>".toList

end Document

end DsdlHeaders

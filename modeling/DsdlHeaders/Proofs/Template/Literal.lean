import DsdlHeaders.Proofs.Template.Markers
import DsdlHeaders.Proofs.Template.Reading
import DsdlHeaders.Proofs.Text.Parts
import DsdlHeaders.Proofs.Text.Trimming
import DsdlHeaders.Template.Compiled

/-!
# Literal text and substitutions

A primitive template without block tags is literal text with substitutions between. Main statement:
such a template is accepted, and its expansion is the literal text with the values of the
substitutions in their places (`literal_text_is_preserved`). Nothing else changes, except that a
doubled dollar sign before a brace is written once (`undoubled`).

* **Cutting.** Literal text cannot form an opener with a substitution after it, so the segments are
  the literal texts and the substitutions (`lower_template`).
* **Escaping.** An opening brace that would start a delimiter is written as an output of itself. All
  other characters open nothing, whatever comes after the text (`shows_escapeBraces`).
* **Attributes.** The keys of a context are identifiers (`exists_entries`), so each of them is one
  token and holds nothing that closes a substitution.
-/

namespace DsdlHeaders.Template.Primitive

open Text Extended

/-! ## Literal text -/

/-- Text that holds neither what opens a substitution nor what opens a tag. -/
def IsLiteral (s : List Char) : Prop :=
  ¬ ['$', '!'] <:+: s ∧ ¬ tagOpen <:+: s

/-- Whether a text is literal can be decided. -/
instance (s : List Char) : Decidable (IsLiteral s) :=
  inferInstanceAs (Decidable (_ ∧ _))

/-- No marker opens in literal text. -/
theorem IsLiteral.not_opener_infix {s : List Char} (h : IsLiteral s) (kind : MarkerKind) :
    ¬ kind.opener <:+: s := by
  cases kind with
  | substitution => exact h.1
  | tag => exact h.2

/-- Text in which a doubled dollar sign before a brace is written once. -/
def undoubled : List Char → List Char
  | '$' :: '$' :: '\x7b' :: s => '$' :: '\x7b' :: undoubled s
  | c :: s => c :: undoubled s
  | [] => []

/-- Replacing doubled dollar signs before braces changes nothing else. -/
theorem replaceAll_dollars (s : List Char) :
    replaceAll ['$', '$', '\x7b'] ['$', '\x7b'] s = undoubled s := by
  unfold replaceAll replaceMatches
  generalize (none : Option Char) = prev
  fun_induction undoubled s generalizing prev with
  | case1 s ih =>
    have hfront : startsWith ['$', '$', '\x7b'] ('$' :: '$' :: '\x7b' :: s) = true := rfl
    simp only [replaceMatchesFrom, hfront, if_true]
    exact congrArg (fun t => '$' :: '\x7b' :: t) (ih _)
  | case2 c s hother ih =>
    have hfront : startsWith ['$', '$', '\x7b'] (c :: s) = false := by
      rw [Bool.eq_false_iff]
      intro hstarts
      obtain ⟨rest, hrest⟩ := startsWith_iff.mp hstarts
      obtain ⟨rfl, rfl⟩ := List.cons.inj hrest
      exact hother rest rfl rfl
    simp only [replaceMatchesFrom, hfront, Bool.false_eq_true, if_false]
    exact congrArg (c :: ·) (ih _)
  | case3 => simp [replaceMatchesFrom]

/-! ## Templates of substitutions -/

/-- A substitution of an attribute of the context, with its value, and the literal text after it. -/
structure Insertion where
  key : String
  value : String
  after : List Char

/-- The expression of an attribute. -/
def attributePath (key : String) : List Char :=
  't' :: '.' :: key.toList

/-- A substitution and the text after it, as they stand in a template. -/
def Insertion.source (insertion : Insertion) : List Char :=
  '$' :: '!' :: (attributePath insertion.key ++ '!' :: '$' :: insertion.after)

/-- What a substitution and the text after it become. -/
def Insertion.text (insertion : Insertion) : List Char :=
  insertion.value.toList ++ undoubled insertion.after

/-- A template of literal text and substitutions. -/
def template (first : List Char) (insertions : List Insertion) : List Char :=
  first ++ insertions.flatMap Insertion.source

/-- What such a template becomes. -/
def expansion (first : List Char) (insertions : List Insertion) : List Char :=
  undoubled first ++ insertions.flatMap Insertion.text

/-- The pieces of such a template. -/
def pieces (first : List Char) : List Insertion → List Piece
  | [] => [.text first]
  | insertion :: later =>
    .text first :: .output (attributePath insertion.key) :: pieces insertion.after later

/-! ## Cutting -/

/-- Behind its first character an opener holds no dollar sign. -/
theorem MarkerKind.exists_opener_eq (kind : MarkerKind) :
    ∃ m w, kind.opener = m :: w ∧ '$' ∉ w := by
  cases kind with
  | substitution => exact ⟨'$', ['!'], rfl, by decide⟩
  | tag => exact ⟨'<', ['!', '-', '-', '('], rfl, by decide⟩

/-- No marker opens in literal text, not even across its end when a substitution follows. -/
theorem IsLiteral.after?_eq_none {c : Char} {s rest : List Char} (h : IsLiteral (c :: s))
    (hrest : rest = [] ∨ ∃ t, rest = '$' :: t) (kind : MarkerKind) :
    after? kind.opener (c :: (s ++ rest)) = none := by
  rw [after?_eq_none_iff]
  intro hfront
  apply h.not_opener_infix kind
  rcases hrest with rfl | ⟨t, rfl⟩
  · rw [List.append_nil] at hfront
    exact hfront.isInfix
  · obtain ⟨m, w, hopener, hw⟩ := kind.exists_opener_eq
    rw [hopener] at hfront ⊢
    obtain ⟨rfl, hlater⟩ := List.cons_prefix_cons.mp hfront
    exact (List.cons_prefix_cons.mpr ⟨rfl, prefix_of_prefix_append_cons hlater hw⟩).isInfix

/-- The end of literal text is literal. -/
theorem IsLiteral.of_cons {c : Char} {s : List Char} (h : IsLiteral (c :: s)) : IsLiteral s := by
  have hs : s <:+: c :: s := (List.suffix_cons c s).isInfix
  exact ⟨fun hsub => h.1 (hsub.trans hs), fun htag => h.2 (htag.trans hs)⟩

/-- Literal text is kept back until something else follows. -/
theorem segmentsFrom_append {s rest : List Char} (h : IsLiteral s)
    (hrest : rest = [] ∨ ∃ t, rest = '$' :: t) (line : Nat) (fresh : Bool) (pending : List Char) :
    ∃ line', segmentsFrom line fresh pending (s ++ rest) =
      segmentsFrom line' fresh (s.reverse ++ pending) rest := by
  induction s generalizing line pending with
  | nil => exact ⟨line, rfl⟩
  | cons c s ih =>
    have hsub : after? ['$', '!'] (c :: (s ++ rest)) = none :=
      h.after?_eq_none hrest .substitution
    have htag : after? tagOpen (c :: (s ++ rest)) = none := h.after?_eq_none hrest .tag
    obtain ⟨line', hlater⟩ := ih h.of_cons (line + lineFeeds [c]) (c :: pending)
    refine ⟨line', ?_⟩
    rw [List.reverse_cons, List.append_assoc, List.singleton_append, ← hlater, List.cons_append,
      segmentsFrom]
    split
    · rename_i hfound
      exact absurd (hsub.symm.trans hfound) (by simp)
    · split
      · rename_i hfound
        exact absurd (htag.symm.trans hfound) (by simp)
      · rfl

/-- A substitution is cut out at its closer. -/
theorem segmentsFrom_substitution {body : List Char} (h : '!' ∉ body) (rest : List Char)
    (line : Nat) (fresh : Bool) (pending : List Char) :
    segmentsFrom line fresh pending ('$' :: '!' :: (body ++ '!' :: '$' :: rest)) =
      .text pending.reverse :: .substitution line body ::
        segmentsFrom (line + lineFeeds body) false [] rest := by
  have hbody : after? ['$', '!'] ('$' :: '!' :: (body ++ '!' :: '$' :: rest)) =
      some (body ++ '!' :: '$' :: rest) := after?_append ['$', '!'] _
  have hcut : cut? ['!', '$'] (body ++ '!' :: '$' :: rest) = some (body, rest) :=
    cut?_append_of_not_mem h ['$'] rest
  rw [segmentsFrom]
  split
  · rename_i inner hfound
    obtain rfl := Option.some.inj (hbody.symm.trans hfound)
    split
    · rename_i hnone
      exact absurd (hcut.symm.trans hnone) (by simp)
    · rename_i parts hparts
      obtain rfl := Option.some.inj (hcut.symm.trans hparts)
      rfl
  · rename_i hnone
    exact absurd (hbody.symm.trans hnone) (by simp)

/-- No character of a name is blank. -/
theorem isBlank_of_isNamePart {c : Char} (h : isNamePart c = true) : isBlank c = false := by
  have hrange := toNat_of_isNamePart h
  rw [Bool.eq_false_iff]
  intro hblank
  simp only [isBlank, Bool.or_eq_true, Bool.and_eq_true, beq_iff_eq, decide_eq_true_eq,
    Char.le_def, UInt32.le_iff_toNat_le, ← Char.toNat_inj, Char.toNat_val,
    Char.reduceToNat] at hblank
  omega

/-- The expression of an attribute holds no blank character and nothing that closes it. -/
theorem mem_attributePath {key : String} (h : Text.isIdentifier key.toList = true) {c : Char}
    (hc : c ∈ attributePath key) : isBlank c = false ∧ c ≠ '!' := by
  rcases List.mem_cons.mp hc with rfl | hc
  · exact ⟨rfl, by decide⟩
  rcases List.mem_cons.mp hc with rfl | hc
  · exact ⟨rfl, by decide⟩
  · have hpart := isNamePart_of_mem h hc
    refine ⟨isBlank_of_isNamePart hpart, ?_⟩
    rintro rfl
    exact absurd hpart (by decide)

/-- A template of literal text and substitutions has the pieces that it is made of. -/
theorem lower_template {first : List Char} {insertions : List Insertion} (hfirst : IsLiteral first)
    (hlater : ∀ i ∈ insertions, IsLiteral i.after ∧ Text.isIdentifier i.key.toList = true) :
    lower (template first insertions) = .ok (pieces first insertions) := by
  unfold lower segments
  generalize 1 = line, true = fresh
  induction insertions generalizing first line fresh with
  | nil =>
    obtain ⟨line', hsegments⟩ := segmentsFrom_append hfirst (.inl rfl) line fresh []
    rw [template, List.flatMap_nil, hsegments, segmentsFrom]
    simp [lowerFrom, pieces, Except.map]
  | cons insertion later ih =>
    obtain ⟨⟨hliteral, hkey⟩, hrest⟩ := List.forall_mem_cons.mp hlater
    have hclose : '!' ∉ attributePath insertion.key :=
      fun hmem => (mem_attributePath hkey hmem).2 rfl
    have htrim : trim (attributePath insertion.key) = attributePath insertion.key :=
      trim_of_forall_not_blank fun c hc => (mem_attributePath hkey hc).1
    have hsource : template first (insertion :: later) = first ++ '$' :: '!' ::
        (attributePath insertion.key ++ '!' :: '$' :: template insertion.after later) := by
      simp [template, Insertion.source]
    obtain ⟨line', hsegments⟩ := segmentsFrom_append hfirst (.inr ⟨_, rfl⟩) line fresh []
    rw [hsource, hsegments, segmentsFrom_substitution hclose, lowerFrom, lowerFrom, htrim,
      if_neg (by simp [attributePath]), ih hliteral hrest]
    simp [pieces, Except.map]

/-! ## Escaping -/

variable {names : Bindings}

/-- The output of a brace shows the brace. -/
theorem shows_braceOutput {rest text : List Char} (h : Shows names rest text) :
    Shows names (braceOutput ++ rest) ('\x7b' :: text) := by
  have htoken : token? ('"' :: '\x7b' :: '"' :: ' ' :: '\x7d' :: '\x7d' :: rest) =
      some (.text "\x7b", ' ' :: '\x7d' :: '\x7d' :: rest) :=
    token?_text (s := ['\x7b']) (by decide) (by decide) _
  have htokens : tokensUntil .output 0
      (' ' :: '"' :: '\x7b' :: '"' :: ' ' :: '\x7d' :: '\x7d' :: rest) =
      some ([.text "\x7b"], false, rest) := by
    rw [tokensUntil_gap rfl, tokensUntil_token rfl rfl htoken rfl, tokensUntil_gap rfl,
      tokensUntil_closing rfl rfl, Option.map_some]
  have htells : Tells names [.text "\x7b"] "\x7b" := ⟨.text "\x7b", rfl, rfl⟩
  exact Shows.output rfl htokens htells h

/-- Nothing but a brace opens. -/
theorem opening?_of_ne {c : Char} (h : c ≠ '\x7b') (rest : List Char) :
    opening? (c :: rest) = none := by
  unfold opening?
  split
  all_goals try rfl
  all_goals
    rename_i heq
    exact absurd (List.cons.inj heq).1 h

/-- A brace opens nothing before a character that makes no delimiter. -/
theorem opening?_of_not_startsDelimiter {followed : Bool} {d : Char} {s : List Char}
    (h : startsDelimiter followed (d :: s) = false) (rest : List Char) :
    opening? ('\x7b' :: d :: rest) = none := by
  simp only [startsDelimiter, Bool.or_eq_false_iff, beq_eq_false_iff_ne, ne_eq] at h
  obtain ⟨⟨hbrace, hpercent⟩, hhash⟩ := h
  unfold opening?
  split
  · rename_i heq
    exact absurd (List.cons.inj (List.cons.inj heq).2).1 hbrace
  · rename_i heq
    exact absurd (List.cons.inj (List.cons.inj heq).2).1 hpercent
  · rename_i heq
    exact absurd (List.cons.inj (List.cons.inj heq).2).1 hhash
  · rfl

/-- Escaped text shows the text. At its end nothing opens unless something follows. -/
theorem shows_escapeBraces (followed : Bool) {rest text : List Char} (h : Shows names rest text)
    (hfollowed : followed = false → rest = []) (s : List Char) :
    Shows names (escapeBraces followed s ++ rest) (s ++ text) := by
  induction s with
  | nil => exact h
  | cons c s ih =>
    rw [escapeBraces, List.append_assoc]
    by_cases hbrace : c = '\x7b'
    · subst hbrace
      cases hstarts : startsDelimiter followed s with
      | true =>
        simp only [decide_true, Bool.and_self, if_true]
        exact shows_braceOutput ih
      | false =>
        simp only [Bool.and_false, Bool.false_eq_true, if_false]
        refine Shows.literal ?_ ih
        cases s with
        | nil =>
          rw [hfollowed hstarts]
          rfl
        | cons d s =>
          -- What follows the brace is no brace itself, so it stands there as it is.
          have hd : d ≠ '\x7b' := by
            rintro rfl
            exact absurd hstarts (by simp [startsDelimiter])
          rw [escapeBraces, if_neg (by simp [hd])]
          exact opening?_of_not_startsDelimiter hstarts _
    · simp only [hbrace, decide_false, Bool.false_and, Bool.false_eq_true, if_false]
      exact Shows.literal (opening?_of_ne hbrace _) ih

/-- The tokens of an attribute between the delimiters of an output. -/
theorem tokensUntil_attributePath {key : String} (h : Text.isIdentifier key.toList = true)
    (rest : List Char) :
    tokensUntil .output 0 (' ' :: (attributePath key ++ ' ' :: '\x7d' :: '\x7d' :: rest)) =
      some ([.name "t", .symbol .dot, .name key], false, rest) := by
  obtain ⟨c, s, hchars⟩ := List.exists_cons_of_ne_nil (l := key.toList) (by
    intro hnil
    rw [hnil] at h
    exact absurd h (by simp [Text.isIdentifier]))
  rw [hchars, Text.isIdentifier, Bool.and_eq_true, List.all_eq_true] at h
  obtain ⟨hc, hs⟩ := h
  have hgap := isTokenGap_of_isNameStart hc
  have hcontext : token? ('t' :: '.' :: c :: (s ++ ' ' :: '\x7d' :: '\x7d' :: rest)) =
      some (.name "t", '.' :: c :: (s ++ ' ' :: '\x7d' :: '\x7d' :: rest)) :=
    token?_name (s := []) rfl (by simp) rfl
  have hdot : token? ('.' :: c :: (s ++ ' ' :: '\x7d' :: '\x7d' :: rest)) =
      some (.symbol .dot, c :: (s ++ ' ' :: '\x7d' :: '\x7d' :: rest)) := rfl
  have hname : token? (c :: (s ++ ' ' :: '\x7d' :: '\x7d' :: rest)) =
      some (.name (String.ofList (c :: s)), ' ' :: '\x7d' :: '\x7d' :: rest) :=
    token?_name hc hs rfl
  have hkey : String.ofList (c :: s) = key := by rw [← hchars, String.ofList_toList]
  rw [attributePath, hchars]
  change tokensUntil .output 0
    (' ' :: 't' :: '.' :: c :: (s ++ ' ' :: '\x7d' :: '\x7d' :: rest)) = _
  rw [tokensUntil_gap rfl, tokensUntil_token rfl rfl hcontext rfl,
    tokensUntil_token rfl rfl hdot rfl,
    tokensUntil_token hgap (closing?_of_isNameStart hc .output _) hname rfl, tokensUntil_gap rfl,
    tokensUntil_closing rfl rfl, hkey]
  rfl

/-- The output of an attribute shows its value. -/
theorem shows_attribute {key value : String} {rest text : List Char}
    (hkey : Text.isIdentifier key.toList = true)
    (hvalue : Expr.value? names (.member (.name "t") key) = some (.text value))
    (h : Shows names rest text) (followed : Bool) :
    Shows names ((Piece.output (attributePath key)).render followed ++ rest)
      (value.toList ++ text) := by
  have htells : Tells names [.name "t", .symbol .dot, .name key] value := ⟨_, rfl, hvalue⟩
  have houtput := Shows.output rfl (tokensUntil_attributePath hkey rest) htells h
  simpa [Piece.render] using houtput

/-- A template of literal text and substitutions shows what it becomes. -/
theorem shows_render_pieces {first : List Char} {insertions : List Insertion}
    (h : ∀ i ∈ insertions, Text.isIdentifier i.key.toList = true ∧
      Expr.value? names (.member (.name "t") i.key) = some (.text i.value)) :
    Shows names (render (pieces first insertions)) (expansion first insertions) := by
  induction insertions generalizing first with
  | nil =>
    have hend : Shows names [] [] := .nil
    have hescaped := shows_escapeBraces false hend (fun _ => rfl) (undoubled first)
    simpa [pieces, render, Piece.render, renderText, replaceAll_dollars, expansion] using hescaped
  | cons insertion later ih =>
    obtain ⟨⟨hkey, hvalue⟩, hlater⟩ := List.forall_mem_cons.mp h
    have hrest : Shows names (render (pieces insertion.after later))
        (expansion insertion.after later) := ih hlater
    have houtput := shows_attribute hkey hvalue hrest (!(pieces insertion.after later).isEmpty)
    have hescaped := shows_escapeBraces true houtput (by simp) (undoubled first)
    simpa [pieces, render, Piece.render, renderText, replaceAll_dollars, expansion,
      Insertion.text] using hescaped

/-! ## Attributes -/

/-- An entry that is found is one of the entries. -/
theorem mem_of_lookup? {key : String} {value : Value} {fields : List (String × Value)}
    (h : Value.lookup? (.text key) (fields.map fun field => (.text field.1, field.2)) =
      some value) : (key, value) ∈ fields := by
  induction fields with
  | nil => exact absurd h (by simp [Value.lookup?])
  | cons field fields ih =>
    rw [List.map_cons, Value.lookup?] at h
    split at h
    · rename_i hsame
      have hkey : key = field.1 := by simpa [Value.sameKey] using hsame
      obtain rfl := Option.some.inj h
      rw [hkey]
      exact List.mem_cons_self
    · exact List.mem_cons_of_mem _ (ih h)

/-- The keys of a context are identifiers. -/
theorem exists_entries (context : Context) : ∃ fields, context.value = .ascending fields ∧
    ∀ field ∈ fields, Text.isIdentifier field.1.toList = true := by
  obtain ⟨header, bodies⟩ := context
  have hport : (header.portEntry.all fun field => Text.isIdentifier field.1.toList) = true := by
    unfold NameContext.portEntry
    cases header.portId with
    | none => rfl
    | some portId => cbv
  cases bodies with
  | message body =>
    refine ⟨header.messageEntries body, rfl, List.all_eq_true.mp ?_⟩
    unfold NameContext.messageEntries
    rw [List.all_append, List.all_append, hport]
    cbv
  | service request response =>
    refine ⟨header.serviceEntries request response, rfl, List.all_eq_true.mp ?_⟩
    unfold NameContext.serviceEntries
    rw [List.all_append, List.all_append, hport]
    cbv

/-- An attribute of a context has a name, and its value is at hand. -/
theorem value?_of_member? {context : Context} {key value : String}
    (h : context.value.member? key = some (.text value)) :
    Text.isIdentifier key.toList = true ∧
      Expr.value? (contextNames context) (.member (.name "t") key) = some (.text value) := by
  obtain ⟨fields, hfields, hidentifiers⟩ := exists_entries context
  have hlookup : Value.lookup? (.text key) (fields.map fun field => (.text field.1, field.2)) =
      some (.text value) := by
    rw [hfields] at h
    exact h
  refine ⟨hidentifiers _ (mem_of_lookup? hlookup), ?_⟩
  have hpart : context.value.part? key = some (.text value) := by
    rw [hfields]
    simp only [Value.ascending, Value.part?, hlookup]
    rfl
  exact hpart

/-! ## Expansion -/

/-- What a template may rely on that starts with the names of a context. -/
def contextScope (context : Context) : Scope where
  names := contextNames context
  closures := []
  room := maxDepth - 1

/-- A template starts with the names of its context. -/
theorem contextScope_holdsIn (context : Context) :
    (contextScope context).HoldsIn (Machine.start (contextNames context)) where
  lasting := by
    obtain ⟨header, bodies⟩ := context
    cases bodies <;> exact .of_all rfl
  known name value h := by
    obtain ⟨rfl, rfl⟩ : name = "t" ∧ value = context.value := by
      simpa [contextScope, contextNames] using Bindings.mem_of_find? h
    rfl
  closures := rfl
  room := by
    have hdepth : (Machine.start (contextNames context)).depth = 1 := rfl
    have hroom : 1 + (maxDepth - 1) ≤ maxDepth := by decide
    rwa [hdepth]

/-- The expansion of a text that shows something is what it shows. -/
theorem expand_of_shows (path : String) {context : Context} {s text : List Char}
    (h : Shows (contextNames context) s text) :
    ∃ body, statements s = some body ∧
      Compiled.expand ⟨path, body⟩ context = .ok (String.ofList text) := by
  have hscope : Shows (contextScope context).names s text := h
  obtain ⟨body, hbody, hwrites⟩ := hscope.exists_statements (jump maxDepth)
  obtain ⟨made, hmade⟩ := hwrites _ (contextScope_holdsIn context)
  refine ⟨body, hbody, ?_⟩
  unfold Compiled.expand expandAll
  rw [hmade]
  have houtput : (Machine.start (contextNames context)).output = "" := rfl
  simp [Except.map, Machine.after, houtput]

/-- Literal text and substitutions of a template are preserved: the template is accepted, its
statements can be read, and the expansion is the literal text, doubled dollar signs before braces
written once, with the values of the attributes in the places of the substitutions. -/
theorem literal_text_is_preserved (path : String) {context : Context} {first : List Char}
    {insertions : List Insertion} (hfirst : IsLiteral first)
    (hinsertions : ∀ i ∈ insertions,
      IsLiteral i.after ∧ context.value.member? i.key = some (.text i.value)) :
    ∃ text body, lowered (template first insertions) = .ok text ∧ statements text = some body ∧
      Compiled.expand ⟨path, body⟩ context = .ok (String.ofList (expansion first insertions)) := by
  have hlower := lower_template hfirst fun i hi =>
    ⟨(hinsertions i hi).1, (value?_of_member? (hinsertions i hi).2).1⟩
  have hshows : Shows (contextNames context) (render (pieces first insertions))
      (expansion first insertions) :=
    shows_render_pieces fun i hi => value?_of_member? (hinsertions i hi).2
  obtain ⟨body, hbody, hexpand⟩ := expand_of_shows path hshows
  refine ⟨render (pieces first insertions), body, ?_, hbody, hexpand⟩
  unfold lowered
  rw [hlower]
  rfl

/-- The context of a message without fields. -/
def pingContext : Context where
  names := ⟨"demo.Ping", "Ping", "Ping_", "::demo::Ping", ["demo"], "DEMO_PING",
    "DEMO_PING_HPP_INCLUDED", [], none, false⟩
  bodies := .message ⟨[], [], false⟩

/-- Braces, quotes, doubled dollar signs and line breaks around two substitutions are preserved. -/
theorem braces_around_names_are_preserved :
    ∃ text body,
      lowered "\x7b\x7b%\"$$$\x7b#\x7b$!t.short_name!$\x7d\x7d\n$$\x7b$!t.full_name!$\x7b".toList =
        .ok text ∧
      statements text = some body ∧
      Compiled.expand ⟨"braces", body⟩ pingContext =
        .ok "\x7b\x7b%\"$$\x7b#\x7bPing\x7d\x7d\n$\x7bdemo.Ping\x7b" := by
  have hfirst : IsLiteral "\x7b\x7b%\"$$$\x7b#\x7b".toList := by decide
  have hinsertions : ∀ i ∈ [(⟨"short_name", "Ping", "\x7d\x7d\n$$\x7b".toList⟩ : Insertion),
      ⟨"full_name", "demo.Ping", "\x7b".toList⟩],
      IsLiteral i.after ∧ pingContext.value.member? i.key = some (.text i.value) := by
    rw [List.forall_mem_cons, List.forall_mem_singleton]
    exact ⟨⟨by decide, rfl⟩, by decide, rfl⟩
  exact literal_text_is_preserved "braces" hfirst hinsertions

end DsdlHeaders.Template.Primitive

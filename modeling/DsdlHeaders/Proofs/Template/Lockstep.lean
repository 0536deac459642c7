import DsdlHeaders.Proofs.Template.BareLines
import DsdlHeaders.Template.Primitive

/-!
# Two spellings of a template, lowered in step

Lowering should not depend on how a template spells its line ends. Two related primitive templates
are followed here through both steps of lowering.

* **Segments.** A marker that lies inside a line is found at corresponding places, a tag is alone on
  its line in both spellings or in none, and lines are counted by their line feeds. So the segments
  correspond one by one (`segments_matches`).
* **Pieces.** Keywords are the same and arguments are related, so every tag is accepted in both
  spellings or in none (`lowerTag_inStep`), and all of them together (`lowerFrom_inStep`).
* **Texts.** Corresponding pieces are written as related texts (`returned_render`).

Main statement: with a carriage return before every line feed, a template comes to the same in
primitive notation if and only if it has no bare line, and then it is lowered to the same text, both
up to carriage returns, or fails at the same line (`lowered_withReturns`). What happens at a bare
line is in `lowered_withReturns_ne`.
-/

namespace DsdlHeaders.Template.Primitive

open Text Extended

variable {s t : List Char}

/-! ## Segments -/

/-- The same segment, in two spellings. -/
inductive Segment.Matches : Segment → Segment → Prop where
  | text {s t : List Char} (h : Returned s t) : Matches (.text s) (.text t)
  | substitution {line : Nat} {s t : List Char} (h : Returned s t) :
    Matches (.substitution line s) (.substitution line t)
  | tag {line : Nat} {s t : List Char} (h : Returned s t) : Matches (.tag line s) (.tag line t)
  | broken {line : Nat} {fault : MarkerFault} : Matches (.broken line fault) (.broken line fault)

/-- A tag is alone on its line if a line starts before the padding in front of it and ends after
the padding behind it. -/
theorem aloneOnLine?_eq (fresh : Bool) (pending rest : List Char) :
    aloneOnLine? fresh pending rest =
      if (pending.dropWhile isPadding).head?.elim fresh (· == '\n') then
        match rest.dropWhile isPadding with
        | [] => some ((pending.dropWhile isPadding).reverse, [])
        | c :: next =>
          if c = '\n' then some ((pending.dropWhile isPadding).reverse, next) else none
      else none := by
  unfold aloneOnLine?
  simp only
  generalize rest.dropWhile isPadding = behind
  cases pending.dropWhile isPadding with
  | nil =>
    cases fresh
    · simp
    · rcases behind with - | ⟨c, next⟩
      · rfl
      · by_cases hc : c = '\n' <;> simp [hc]
  | cons d before =>
    by_cases hd : d = '\n'
    · subst hd
      rcases behind with - | ⟨c, next⟩
      · rfl
      · by_cases hc : c = '\n' <;> simp [hc]
    · simp [hd]

/-- A tag is alone on its line in both spellings or in none. -/
theorem aloneOnLine?_rel (fresh : Bool) {pending pending' rest rest' : List Char}
    (hpending : Returned pending.reverse pending'.reverse) (hrest : Returned rest rest') :
    Option.Rel PartsReturned (aloneOnLine? fresh pending rest)
      (aloneOnLine? fresh pending' rest') := by
  have hpadding : isPadding '\n' = true → isPadding '\r' = true := by decide
  have hbefore := hpending.dropWhile_reverse hpadding
  rw [List.reverse_reverse, List.reverse_reverse] at hbefore
  have hhead : (pending'.dropWhile isPadding).head? = (pending.dropWhile isPadding).head? := by
    have hlast := hbefore.getLast?_eq
    rwa [List.getLast?_reverse, List.getLast?_reverse] at hlast
  have hbehind := hrest.dropWhile hpadding
  have hnot := List.head?_dropWhile_not isPadding rest'
  rw [aloneOnLine?_eq, aloneOnLine?_eq, hhead]
  split
  · revert hbehind hnot
    generalize rest.dropWhile isPadding = behind
    generalize rest'.dropWhile isPadding = behind'
    intro hbehind hnot
    cases hbehind with
    | nil => exact .some ⟨hbefore, .nil⟩
    | keep _ hnext =>
      simp only
      split
      · exact .some ⟨hbefore, hnext⟩
      · exact .none
    | feed _ => exact absurd (show isPadding '\r' = false from hnot) (by decide)
  · exact .none

/-- The segments of a text that is not empty, by what stands in front of it. -/
theorem segmentsFrom_cons (line : Nat) (fresh : Bool) (pending : List Char) (c : Char)
    (s : List Char) :
    segmentsFrom line fresh pending (c :: s) =
      match after? ['$', '!'] (c :: s) with
      | some body =>
        match cut? ['!', '$'] body with
        | none => [.broken line .unterminatedSubstitution]
        | some parts =>
          .text pending.reverse :: .substitution line parts.1 ::
            segmentsFrom (line + lineFeeds parts.1) false [] parts.2
      | none =>
        match after? tagOpen (c :: s) with
        | some body =>
          match cut? tagClose body with
          | none => [.broken line .unterminatedTag]
          | some parts =>
            match aloneOnLine? fresh pending parts.2 with
            | some around =>
              .text around.1 :: .tag line parts.1 ::
                segmentsFrom (line + lineFeeds parts.1 + 1) true [] around.2
            | none =>
              .text pending.reverse :: .tag line parts.1 ::
                segmentsFrom (line + lineFeeds parts.1) false [] parts.2
        | none => segmentsFrom (line + lineFeeds [c]) fresh (c :: pending) s := by
  rw [segmentsFrom]
  split
  · rename_i hsub
    split <;> rename_i hcut <;> simp only [hsub, hcut]
  · rename_i hsub
    split
    · rename_i htag
      split
      · rename_i hcut
        simp only [hsub, htag, hcut]
      · rename_i hcut
        split <;> rename_i halone <;> simp only [hsub, htag, hcut, halone]
    · rename_i htag
      simp only [hsub, htag]

/-- Related texts have corresponding segments. -/
theorem segmentsFrom_matches (line : Nat) (fresh : Bool) {pending pending' : List Char}
    (hpending : Returned pending.reverse pending'.reverse) (h : Returned s t) :
    List.Forall₂ Segment.Matches (segmentsFrom line fresh pending s)
      (segmentsFrom line fresh pending' t) := by
  have hopenSub : Unbroken ['$', '!'] := by decide
  have hcloseSub : Unbroken ['!', '$'] := by decide
  have hopenTag : Unbroken tagOpen := by decide
  have hcloseTag : Unbroken tagClose := by decide
  induction hlength : s.length using Nat.strongRecOn
    generalizing line fresh pending pending' s t with
  | ind length ih =>
    subst hlength
    cases h with
    | nil =>
      rw [segmentsFrom, segmentsFrom]
      exact .cons (.text hpending) .nil
    | @feed s t h =>
      -- No marker starts at the end of a line: both spellings keep it back as literal text.
      rw [segmentsFrom_cons, (hopenSub.after?_eq_none (by decide) _).1,
        (hopenTag.after?_eq_none (by decide) _).1, segmentsFrom_cons,
        (hopenSub.after?_eq_none (by decide) _).2, (hopenTag.after?_eq_none (by decide) _).2]
      simp only
      rw [segmentsFrom_cons, (hopenSub.after?_eq_none (by decide) _).1,
        (hopenTag.after?_eq_none (by decide) _).1]
      refine ih s.length (by simp) _ _ ?_ h rfl
      simpa using hpending.append (.feed .nil)
    | @keep c s t hc h =>
      rw [segmentsFrom_cons, segmentsFrom_cons]
      obtain ⟨hs, ht⟩ | ⟨inner, inner', hs, ht, hinner⟩ :=
        eq_none_or_eq_some_of_rel ((Returned.keep hc h).after? hopenSub)
      · rw [hs, ht]
        obtain ⟨hs, ht⟩ | ⟨inner, inner', hs, ht, hinner⟩ :=
          eq_none_or_eq_some_of_rel ((Returned.keep hc h).after? hopenTag)
        · rw [hs, ht]
          exact ih s.length (by simp) _ _ (by simpa using hpending.append (.keep hc .nil)) h rfl
        · rw [hs, ht]
          obtain ⟨hcut, hcut'⟩ | ⟨parts, parts', hcut, hcut', hparts⟩ :=
            eq_none_or_eq_some_of_rel (hinner.cut? hcloseTag (by decide))
          · simp only [hcut, hcut']
            exact .cons .broken .nil
          · have hshorter : parts.2.length < (c :: s).length :=
              Nat.lt_of_le_of_lt (cut?_length_le hcut) (after?_length_lt hs (by decide))
            simp only [hcut, hcut', hparts.1.lineFeeds_eq]
            obtain ⟨halone, halone'⟩ | ⟨around, around', halone, halone', haround⟩ :=
              eq_none_or_eq_some_of_rel (aloneOnLine?_rel fresh hpending hparts.2)
            · rw [halone, halone']
              exact .cons (.text hpending) (.cons (.tag hparts.1)
                (ih parts.2.length hshorter _ _ .nil hparts.2 rfl))
            · have hle := aloneOnLine?_length_le halone
              rw [halone, halone']
              exact .cons (.text haround.1) (.cons (.tag hparts.1)
                (ih around.2.length (Nat.lt_of_le_of_lt hle hshorter) _ _ .nil haround.2 rfl))
      · rw [hs, ht]
        obtain ⟨hcut, hcut'⟩ | ⟨parts, parts', hcut, hcut', hparts⟩ :=
          eq_none_or_eq_some_of_rel (hinner.cut? hcloseSub (by decide))
        · simp only [hcut, hcut']
          exact .cons .broken .nil
        · have hshorter : parts.2.length < (c :: s).length :=
            Nat.lt_of_le_of_lt (cut?_length_le hcut) (after?_length_lt hs (by decide))
          simp only [hcut, hcut', hparts.1.lineFeeds_eq]
          exact .cons (.text hpending) (.cons (.substitution hparts.1)
            (ih parts.2.length hshorter _ _ .nil hparts.2 rfl))

/-- Related templates have corresponding segments. -/
theorem segments_matches (h : Returned s t) :
    List.Forall₂ Segment.Matches (segments s) (segments t) :=
  segmentsFrom_matches 1 true .nil h

/-! ## Tags -/

/-- Both computations fail, with related errors, or both succeed, with related results. -/
def InStep {ε α : Type} (errors : ε → ε → Prop) (results : α → α → Prop) :
    Except ε α → Except ε α → Prop
  | .error error, .error error' => errors error error'
  | .ok result, .ok result' => results result result'
  | _, _ => False

/-- How two computations in step end. -/
theorem eq_error_or_eq_ok_of_inStep {ε α : Type} {errors : ε → ε → Prop} {results : α → α → Prop}
    {one other : Except ε α} (h : InStep errors results one other) :
    (∃ error error', one = .error error ∧ other = .error error' ∧ errors error error') ∨
      ∃ result result', one = .ok result ∧ other = .ok result' ∧ results result result' := by
  cases one <;> cases other
  · exact .inl ⟨_, _, rfl, rfl, h⟩
  · exact h.elim
  · exact h.elim
  · exact .inr ⟨_, _, rfl, rfl, h⟩

/-- The same piece, in two spellings. -/
inductive Piece.Matches : Piece → Piece → Prop where
  | text {s t : List Char} (h : Returned s t) : Matches (.text s) (.text t)
  | output {s t : List Char} (h : Returned s t) : Matches (.output s) (.output t)
  | statement {keyword : String} {s t : List Char} (hkeyword : '\r' ∉ keyword.toList)
    (h : Returned s t) : Matches (.statement keyword s) (.statement keyword t)
  | otherwise : Matches .otherwise .otherwise
  | close {block : Block} : Matches (.close block) (.close block)

/-- The keyword of a tag is the same in both spellings, and its arguments are related. -/
theorem keywordOf_returned (h : Returned s t) :
    (keywordOf t).1 = (keywordOf s).1 ∧ Returned (keywordOf s).2 (keywordOf t).2 := by
  unfold keywordOf
  simp only
  rw [h.takeWhile_eq (by decide) (by decide)]
  exact ⟨rfl, (h.dropWhile (by decide)).trim⟩

/-- Both spellings of a text are identifiers or none is. -/
theorem isIdentifier_eq_of_returned (h : Returned s t) :
    Text.isIdentifier t = Text.isIdentifier s := by
  by_cases hs : Text.isIdentifier s = true
  · have hunbroken : Unbroken s :=
      ⟨not_mem_of_isIdentifier hs (by decide), not_mem_of_isIdentifier hs (by decide)⟩
    rw [h.eq_of_unbroken hunbroken]
  · by_cases ht : Text.isIdentifier t = true
    · have hreturn : '\r' ∉ t := not_mem_of_isIdentifier ht (by decide)
      have hsame : s = t := by
        rw [← h.withoutReturns_eq]
        exact (Returned.of_not_mem hreturn).withoutReturns_eq
      rw [hsame]
    · rw [Bool.not_eq_true] at hs ht
      rw [hs, ht]

/-- The signature of a definition is found in both spellings or in none. -/
theorem signature?_rel (h : Returned s t) :
    Option.Rel Returned (signature? s) (signature? t) := by
  have hchecked : ∀ {name name' parameters parameters' : List Char}, Returned name name' →
      Returned parameters parameters' →
      Option.Rel Returned
        (if Text.isIdentifier name then some (name ++ ['('] ++ parameters ++ [')']) else none)
        (if Text.isIdentifier name' then some (name' ++ ['('] ++ parameters' ++ [')'])
          else none) := by
    intro name name' parameters parameters' hname hparameters
    have hopen : Returned ['('] ['('] := .of_not_mem (by decide)
    have hclose : Returned [')'] [')'] := .of_not_mem (by decide)
    rw [isIdentifier_eq_of_returned hname]
    split
    · exact .some (((hname.append hopen).append hparameters).append hclose)
    · exact .none
  unfold signature?
  simp only
  obtain ⟨hs, ht⟩ | ⟨⟨lead, rest⟩, ⟨lead', rest'⟩, hs, ht, hlead, hrest⟩ :=
    eq_none_or_eq_some_of_rel (h.cut? (show Unbroken ['('] by decide) (by decide))
  · rw [hs, ht]
    exact hchecked h .nil
  · rw [hs, ht]
    simp only at hlead hrest
    simp only [hrest.getLast?_eq]
    split
    · rename_i hlast
      obtain ⟨inner, rfl⟩ := List.getLast?_eq_some_iff.mp hlast
      obtain ⟨inner', last, rfl, hinner, hclose⟩ := hrest.exists_append
      rw [hclose.eq_of_unbroken (by decide), List.dropLast_concat, List.dropLast_concat]
      exact hchecked hlead.trim hinner.trim
    · exact .none

/-- A tag is accepted in both spellings or in none, and leaves the same blocks open. -/
theorem lowerTag_inStep (blocks : Open) (line : Nat) (h : Returned s t) :
    InStep (fun _ _ => True) (fun one other => one.1.Matches other.1 ∧ other.2 = one.2)
      (lowerTag blocks line s) (lowerTag blocks line t) := by
  obtain ⟨hkeyword, harguments⟩ := keywordOf_returned h.trim
  unfold lowerTag
  generalize keywordOf (trim s) = tag at *
  generalize keywordOf (trim t) = tag' at *
  obtain ⟨keyword, arguments⟩ := tag
  obtain ⟨keyword', arguments'⟩ := tag'
  simp only at hkeyword harguments
  subst hkeyword
  simp only
  split
  -- `for`, `if`, `elif` and `else`
  · rw [harguments.occurs_eq (by decide) (by decide)]
    split
    · exact ⟨.statement (by decide) harguments, rfl⟩
    · trivial
  · simp only [harguments.eq_nil_iff]
    split
    · trivial
    · exact ⟨.statement (by decide) harguments, rfl⟩
  · simp only [harguments.eq_nil_iff]
    split
    · trivial
    · split
      · exact ⟨.statement (by decide) harguments, rfl⟩
      · trivial
  · simp only [ne_eq, harguments.eq_nil_iff]
    split
    · trivial
    · split
      · exact ⟨.otherwise, rfl⟩
      · trivial
  -- `macro`, `set` and `end`
  · obtain ⟨hs, ht⟩ | ⟨signature, signature', hs, ht, hsignature⟩ :=
      eq_none_or_eq_some_of_rel (signature?_rel harguments)
    · rw [hs, ht]
      trivial
    · rw [hs, ht]
      exact ⟨.statement (by decide) hsignature, rfl⟩
  · simp only [harguments.mem_iff (show '=' ≠ '\r' by decide)]
    split
    · exact ⟨.statement (by decide) harguments, rfl⟩
    · trivial
  · simp only [ne_eq, harguments.eq_nil_iff]
    split
    · trivial
    · split
      · trivial
      · exact ⟨.close, rfl⟩
  · trivial

/-! ## Whole templates -/

/-- Corresponding segments are lowered to corresponding pieces, or fail at the same line. -/
theorem lowerFrom_inStep (blocks : Open) {parts parts' : List Segment}
    (h : List.Forall₂ Segment.Matches parts parts') :
    InStep (fun error error' => error'.line = error.line) (List.Forall₂ Piece.Matches)
      (lowerFrom blocks parts) (lowerFrom blocks parts') := by
  have hcons : ∀ {piece piece' : Piece} {one other : Except Error (List Piece)},
      piece.Matches piece' →
      InStep (fun error error' => error'.line = error.line) (List.Forall₂ Piece.Matches) one other →
      InStep (fun error error' => error'.line = error.line) (List.Forall₂ Piece.Matches)
        (one.map (piece :: ·)) (other.map (piece' :: ·)) := by
    intro piece piece' one other hpiece hrest
    obtain ⟨error, error', rfl, rfl, hline⟩ | ⟨pieces, pieces', rfl, rfl, hpieces⟩ :=
      eq_error_or_eq_ok_of_inStep hrest
    · exact hline
    · exact .cons hpiece hpieces
  induction h generalizing blocks with
  | nil =>
    cases blocks with
    | nil => exact .nil
    | cons first outer => rfl
  | @cons part part' parts parts' hpart _ ih =>
    cases hpart with
    | text hs => exact hcons (.text hs) (ih blocks)
    | broken => rfl
    | substitution hs =>
      rw [lowerFrom, lowerFrom]
      simp only [hs.trim.eq_nil_iff]
      split
      · rfl
      · exact hcons (.output hs.trim) (ih blocks)
    | @tag line s t hs =>
      rw [lowerFrom, lowerFrom]
      obtain ⟨fault, fault', hs, ht, -⟩ | ⟨⟨piece, _⟩, ⟨piece', inner⟩, hs, ht, hpiece, rfl⟩ :=
        eq_error_or_eq_ok_of_inStep (lowerTag_inStep blocks line hs)
      · rw [hs, ht]
        rfl
      · rw [hs, ht]
        exact hcons hpiece (ih inner)

/-- An opening brace starts a delimiter in both spellings or in none. -/
theorem startsDelimiter_eq_of_returned (followed : Bool) (h : Returned s t) :
    startsDelimiter followed t = startsDelimiter followed s := by
  cases h <;> rfl

/-- Escaping keeps texts related. -/
theorem returned_escapeBraces (followed : Bool) (h : Returned s t) :
    Returned (escapeBraces followed s) (escapeBraces followed t) := by
  induction h with
  | nil => exact .nil
  | keep hc h ih =>
    rw [escapeBraces, escapeBraces, startsDelimiter_eq_of_returned followed h]
    refine Returned.append ?_ ih
    split
    · exact .of_not_mem (by decide)
    · exact .keep hc .nil
  | feed _ ih => exact .feed ih

/-- Corresponding pieces are written as related texts. -/
theorem Piece.Matches.returned_render {piece piece' : Piece} (h : piece.Matches piece')
    (followed : Bool) : Returned (piece.render followed) (piece'.render followed) := by
  have hframed : ∀ {content content' : List Char}, Returned content content' →
      Returned (renderStatement content) (renderStatement content') := fun hcontent =>
    ((Returned.of_not_mem (by decide)).append hcontent).append (.of_not_mem (by decide))
  cases h with
  | text h =>
    exact returned_escapeBraces followed (h.replaceAll (by decide) (by decide) (by decide))
  | output h =>
    exact ((Returned.of_not_mem (by decide)).append h).append (.of_not_mem (by decide))
  | statement hkeyword h =>
    exact hframed ((Returned.of_not_mem hkeyword).append (.keep (by decide) h))
  | otherwise => exact hframed (.of_not_mem (by decide))
  | @close block =>
    refine hframed (.of_not_mem ?_)
    cases block <;> decide

/-- Corresponding lists of pieces are written as related texts. -/
theorem returned_render {pieces pieces' : List Piece}
    (h : List.Forall₂ Piece.Matches pieces pieces') :
    Returned (render pieces) (render pieces') := by
  induction h with
  | nil => exact .nil
  | cons hpiece hrest ih =>
    have hlast : ∀ {rest rest' : List Piece}, List.Forall₂ Piece.Matches rest rest' →
        rest'.isEmpty = rest.isEmpty := by
      intro rest rest' h
      cases h <;> rfl
    rw [render, render, hlast hrest]
    exact (hpiece.returned_render _).append ih

/-- Two spellings of a primitive template are lowered to related texts, or fail at the same line. -/
theorem lowered_inStep (h : Returned s t) :
    InStep (fun error error' => error'.line = error.line) Returned (lowered s) (lowered t) := by
  unfold lowered lower
  obtain ⟨error, error', hs, ht, hline⟩ | ⟨pieces, pieces', hs, ht, hpieces⟩ :=
    eq_error_or_eq_ok_of_inStep (lowerFrom_inStep [] (segments_matches h))
  · rw [hs, ht]
    exact hline
  · rw [hs, ht]
    exact returned_render hpieces

/-- Take a template without carriage returns, and the same template with one before every line feed.
They come to the same in primitive notation, up to carriage returns, if and only if the latter has
no bare line when the rule for control lines comes to it. Then both are lowered to the same text up
to carriage returns, or both fail, at the same line. -/
theorem lowered_withReturns (source : List Char) (hsource : '\r' ∉ source) :
    (withoutReturns (toPrimitive (withReturns source)) = toPrimitive source ↔
      ¬ HasBareLine (beforeControlLines (withReturns source))) ∧
    (¬ HasBareLine (beforeControlLines (withReturns source)) →
      (lowered (toPrimitive (withReturns source))).toOption.map withoutReturns =
          (lowered (toPrimitive source)).toOption ∧
        ∀ error', lowered (toPrimitive (withReturns source)) = .error error' →
          ∃ error, lowered (toPrimitive source) = .error error ∧ error'.line = error.line) := by
  have hreturned := returned_withReturns hsource
  refine ⟨withoutReturns_toPrimitive_eq_iff hreturned, fun hbare => ?_⟩
  obtain ⟨error, error', hs, ht, hline⟩ | ⟨text, text', hs, ht, htext⟩ :=
    eq_error_or_eq_ok_of_inStep (lowered_inStep (returned_toPrimitive hreturned hbare))
  · rw [hs, ht]
    refine ⟨rfl, fun failure hfailure => ⟨error, rfl, ?_⟩⟩
    rw [← Except.error.inj hfailure]
    exact hline
  · rw [hs, ht]
    exact ⟨congrArg some htext.withoutReturns_eq, fun failure hfailure => by simp at hfailure⟩

/-- A template with a loop, a continued line, a substitution over two lines and a comment. -/
def loopSource : List Char :=
  "% for a in b:\n\t$\x7ba(\\\n 1)\n\x7d #! c\n% endfor\n".toList

/-- A template without bare lines is lowered alike in both spellings. -/
theorem lowered_withReturns_loopSource :
    ¬ HasBareLine (beforeControlLines (withReturns loopSource)) ∧
      (lowered (toPrimitive (withReturns loopSource))).toOption.map withoutReturns =
        (lowered (toPrimitive loopSource)).toOption ∧
      (lowered (toPrimitive loopSource)).toOption =
        some "\x7b% for a in b %\x7d\t\x7b\x7b a( 1) \x7d\x7d\n\x7b% endfor %\x7d".toList := by
  have hsource : '\r' ∉ loopSource := by decide +kernel
  obtain ⟨hexact, halike⟩ := lowered_withReturns loopSource hsource
  have hbare := hexact.mp (by decide +kernel)
  exact ⟨hbare, (halike hbare).1, by decide +kernel⟩

/-- At a bare line the spelling matters. A percent sign alone is literal text before a line feed,
but a tag without a keyword before a carriage return; and inside a substitution, where a tag is not
looked at, the results differ in the indentation that follows the percent sign. -/
theorem lowered_withReturns_ne :
    (lowered (toPrimitive "%\n".toList)).toOption = some "%\n".toList ∧
      (lowered (toPrimitive (withReturns "%\n".toList))).toOption = none ∧
      (lowered (toPrimitive "$!a\n% \nb!$".toList)).toOption =
        some "\x7b\x7b a\n<!--( )-->\nb \x7d\x7d".toList ∧
      (lowered (toPrimitive (withReturns "$!a\n% \nb!$".toList))).toOption =
        some "\x7b\x7b a\r\n<!--(\r)-->\nb \x7d\x7d".toList := by
  decide +kernel

end DsdlHeaders.Template.Primitive

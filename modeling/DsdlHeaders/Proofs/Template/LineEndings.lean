import DsdlHeaders.Proofs.Template.Cleanup
import DsdlHeaders.Proofs.Text.Returns

/-!
# Line endings in the extended notation

A template may end its lines with line feeds or with carriage returns and line feeds. Five of the
six rules treat the two spellings alike: what they match in one of two related texts they match at
the corresponding place of the other (`Rule.Respects`).

* **Continuations** take the line break with them, whichever it is (`continuationRule_respects`),
  and **substitutions** may hold line breaks (`substitutionRule_respects`).
* **Block ends**, **comments** and the tags of **macros** lie inside a line
  (`blockEndRule_respects`, `commentRule_respects`, `bodyRule_respects`).
* **Control lines** keep the carriage return at their end (`markControlLine_append_return`), with
  one exception. Where nothing but indentation stands between the percent sign and the carriage
  return, the carriage return itself becomes the body of a tag (`markControlLine_of_isBareLine`).

Main statement: without such a bare line, all six rules together keep the two spellings of a
template related (`returned_toPrimitive`).
-/

namespace DsdlHeaders.Template.Extended

open Text

variable {s t w line : List Char} {prev : Option Char} {found : Replacement}

/-! ## Rules that lie inside a line -/

/-- A text of characters that are part of a line lies inside a line. -/
theorem unbroken_of_isInLine (h : ∀ c ∈ w, isInLine c = true) : Unbroken w :=
  ⟨fun hmem => absurd (h _ hmem) (by decide), fun hmem => absurd (h _ hmem) (by decide)⟩

/-- What a match of the rule for block ends is, and what it leaves. -/
theorem unbroken_of_blockEnd {matched : List Char}
    (h : blockEndRule prev (matched ++ s) = some found)
    (hlength : matched.length = found.extra + 1) :
    Unbroken matched ∧ found.text = tagOpen ++ endWord ++ tagClose := by
  obtain ⟨name, rfl, hne, hname, rfl⟩ := exists_name_of_blockEnd h hlength
  exact ⟨unbroken_of_isInLine (IsBlockEnd.isInLine ⟨name, rfl, hne, hname⟩), rfl⟩

/-- Block ends are found at corresponding places. -/
theorem blockEndRule_respects : Rule.Respects blockEndRule := by
  have hword : Unbroken (tagOpen ++ endWord) := by decide
  refine .of_unbroken (fun prev s => ?_) (fun prev s t h => ?_) ?_
  · simp [blockEndRule, hword.after?_eq_none (by decide)]
  · unfold blockEndRule
    obtain ⟨hs, ht⟩ | ⟨rest, rest', hs, ht, hrest⟩ := eq_none_or_eq_some_of_rel (h.after? hword)
    · rw [hs, ht]
    · have htake := hrest.takeWhile_eq (p := isBlockLetter) (by decide) (by decide)
      have hdrop := hrest.dropWhile (p := isBlockLetter) (by decide)
      rw [hs, ht]
      simp only [htake, hdrop.startsWith_eq (show Unbroken tagClose by decide)]
  · intro prev matched s found h hlength _
    obtain ⟨hmatched, htext⟩ := unbroken_of_blockEnd h hlength
    rw [htext]
    exact ⟨hmatched, by decide⟩

/-- A comment is indentation and the rest of a line. -/
theorem isInLine_of_comment {matched : List Char}
    (h : commentRule prev (matched ++ s) = some found)
    (hlength : matched.length = found.extra + 1) : ∀ c ∈ matched, isInLine c = true := by
  unfold commentRule at h
  simp only at h
  split at h
  · rename_i hstarts
    obtain rfl := Option.some.inj h
    obtain ⟨after, hafter⟩ := startsWith_iff.mp hstarts
    generalize hsource : matched ++ s = source at hlength hafter
    have hmark : 0 < ((source.dropWhile isIndent).takeWhile isInLine).length := by
      rw [← hafter]
      simp [isInLine]
    have hsplit : matched ++ s = (source.takeWhile isIndent ++
        (source.dropWhile isIndent).takeWhile isInLine) ++
          (source.dropWhile isIndent).dropWhile isInLine := by
      rw [List.append_assoc, List.takeWhile_append_dropWhile, List.takeWhile_append_dropWhile,
        hsource]
    have hsame : matched.length = (source.takeWhile isIndent ++
        (source.dropWhile isIndent).takeWhile isInLine).length := by
      rw [hlength, List.length_append]
      exact Nat.sub_add_cancel (Nat.le_add_left_of_le hmark)
    obtain ⟨rfl, -⟩ := List.append_inj hsplit hsame
    intro c hc
    rcases List.mem_append.mp hc with hc | hc
    · have hindent := List.mem_takeWhile_imp hc
      simp only [isIndent, Bool.or_eq_true, beq_iff_eq] at hindent
      rcases hindent with rfl | rfl <;> rfl
    · exact List.mem_takeWhile_imp hc
  · exact absurd h (by simp)

/-- Comments are found at corresponding places. -/
theorem commentRule_respects : Rule.Respects commentRule := by
  refine .of_unbroken (fun prev s => ?_) (fun prev s t h => ?_) ?_
  · simp [commentRule, isIndent, startsWith, after?]
  · have hlead := h.takeWhile_eq (p := isIndent) (by decide) (by decide)
    have hrest := h.dropWhile (p := isIndent) (by decide)
    unfold commentRule
    simp only [hlead, hrest.startsWith_eq (show Unbroken ['#', '!'] by decide),
      hrest.takeWhile_eq (p := isInLine) (by decide) (by decide)]
  · intro prev matched s found h hlength _
    refine ⟨unbroken_of_isInLine (isInLine_of_comment h hlength), ?_⟩
    rw [(eq_of_comment h hlength).1]
    exact List.not_mem_nil

/-! ## Rules that meet line breaks -/

/-- A line feed in one of two related texts is a line break in the other. -/
theorem exists_isLineBreak (h : Returned ('\n' :: s) t) :
    ∃ ending t', IsLineBreak ending ∧ t = ending ++ t' ∧ Returned ['\n'] ending ∧
      Returned s t' := by
  cases h with
  | keep hc h => exact ⟨['\n'], _, .inl rfl, rfl, .keep hc .nil, h⟩
  | feed h => exact ⟨['\r', '\n'], _, .inr rfl, rfl, .feed .nil, h⟩

/-- A backslash and a line break are a match. -/
theorem continuationRule_append (prev : Option Char) {ending : List Char}
    (h : IsLineBreak ending) (next : List Char) :
    continuationRule prev ('\\' :: (ending ++ next)) =
      some ⟨[' '], ending.length + (next.takeWhile isIndent).length⟩ := by
  rcases h with rfl | rfl <;> rfl

/-- Continuations are found at corresponding places. -/
theorem continuationRule_respects : Rule.Respects continuationRule where
  broken prev s := by simp [continuationRule]
  missed prev s t h hnone := by
    rw [Option.eq_none_iff_forall_ne_some]
    intro found hfound
    obtain ⟨ending, next, hending, rfl, -⟩ := continuationRule_eq_some hfound
    obtain ⟨later, rfl, hlater⟩ := h.exists_of_unbroken_right (w := ['\\']) (by decide)
    have hfeed : ∃ next', later = '\n' :: next' := by
      rcases hending with rfl | rfl
      · cases hlater with
        | keep _ _ => exact ⟨_, rfl⟩
      · cases hlater with
        | keep hc _ => exact absurd rfl hc
        | feed _ => exact ⟨_, rfl⟩
    obtain ⟨next', rfl⟩ := hfeed
    have hmatch := continuationRule_append prev (.inl rfl) next'
    exact absurd (hnone.symm.trans hmatch) (by simp)
  found prev matched s t found hfound hlength h := by
    obtain ⟨ending, next, hending, rfl, rfl, rfl⟩ := exists_lead_of_continuation hfound hlength
    -- The first text holds no carriage return, so its line ends with the line feed alone.
    have hfeed : ending = ['\n'] := by
      refine hending.resolve_right fun hreturn => h.not_mem ?_
      rw [hreturn]
      simp
    subst hfeed
    rw [List.cons_append, List.append_assoc, List.takeWhile_append_dropWhile] at h
    obtain ⟨later, rfl, hlater⟩ := h.exists_of_unbroken (w := ['\\']) (by decide)
    obtain ⟨ending, next', hbreak, rfl, hsame, hnext⟩ := exists_isLineBreak hlater
    have hindent := hnext.takeWhile_eq (p := isIndent) (by decide) (by decide)
    refine ⟨'\\' :: (ending ++ next'.takeWhile isIndent), next'.dropWhile isIndent, _, ?_,
      continuationRule_append prev hbreak next', ?_, ?_, .keep (by decide) .nil,
      hnext.dropWhile (by decide)⟩
    · simp [List.takeWhile_append_dropWhile]
    · simp
    · have hblank : Returned (next.takeWhile isIndent) (next'.takeWhile isIndent) := by
        rw [hindent]
        exact .of_not_mem fun hmem => absurd (List.mem_takeWhile_imp hmem) (by decide)
      exact .keep (by decide) (hsame.append hblank)

/-- Substitutions are found at corresponding places. -/
theorem substitutionRule_respects : Rule.Respects substitutionRule where
  broken prev s := by simp [substitutionRule]
  missed prev s t h hnone := by
    rw [Option.eq_none_iff_forall_ne_some]
    intro found hfound
    obtain ⟨hprev, body', after', rfl, hbody', hmem', -⟩ := substitutionRule_eq_some_iff.mp hfound
    obtain ⟨later, rfl, hlater⟩ := h.exists_of_unbroken_right (w := ['$', '\x7b']) (by decide)
    obtain ⟨-, ht⟩ | ⟨⟨body, after⟩, parts', hs, ht, hparts⟩ :=
      eq_none_or_eq_some_of_rel (hlater.cut? (show Unbroken ['\x7d'] by decide) (by decide))
    · exact absurd (ht.symm.trans (cut?_singleton_iff.mpr ⟨rfl, hmem'⟩)) (by simp)
    · obtain rfl := Option.some.inj (ht.symm.trans (cut?_singleton_iff.mpr ⟨rfl, hmem'⟩))
      obtain ⟨rfl, hmem⟩ := cut?_singleton_iff.mp hs
      have hbody : body ≠ [] := fun hnil => hbody' (hparts.1.eq_nil_iff.mpr hnil)
      have hmatch := substitutionRule_eq_some_iff.mpr ⟨hprev, body, after, rfl, hbody, hmem, rfl⟩
      exact absurd (hnone.symm.trans hmatch) (by simp)
  found prev matched s t found hfound hlength h := by
    obtain ⟨hprev, body, rfl, hbody, hmem, rfl⟩ := exists_body_of_substitution hfound hlength
    rw [List.cons_append, List.cons_append, List.append_assoc] at h
    obtain ⟨later, rfl, hlater⟩ := h.exists_of_unbroken (w := ['$', '\x7b']) (by decide)
    obtain ⟨body', rest, rfl, hsame, hrest⟩ := hlater.exists_append
    obtain ⟨t, rfl, hafter⟩ := hrest.exists_of_unbroken (w := ['\x7d']) (by decide)
    have hmarks : ∀ opener closer : List Char, '\r' ∉ opener → '\r' ∉ closer →
        Returned (opener ++ body ++ closer) (opener ++ body' ++ closer) :=
      fun opener closer hopener hcloser =>
        ((Returned.of_not_mem hopener).append hsame).append (.of_not_mem hcloser)
    refine ⟨['$', '\x7b'] ++ body' ++ ['\x7d'], t,
      ⟨['$', '!'] ++ body' ++ ['!', '$'], body'.length + 2⟩, by simp, ?_, ?_,
      hmarks ['$', '\x7b'] ['\x7d'] (by decide) (by decide),
      hmarks ['$', '!'] ['!', '$'] (by decide) (by decide), hafter⟩
    · refine substitutionRule_eq_some_iff.mpr ⟨hprev, body', t, by simp, ?_, ?_, rfl⟩
      · exact fun hnil => hbody (hsame.eq_nil_iff.mp hnil)
      · exact fun hclose => hmem ((hsame.mem_iff (by decide)).mp hclose)
    · simp

/-- A tag that opens a macro is a match with the line break after it. -/
theorem bodyRule_append (prev : Option Char) {tag ending : List Char} (htag : IsBodyOpener tag)
    (hending : IsLineBreak ending) (rest : List Char) :
    bodyRule prev (tag ++ (ending ++ rest)) =
      some ⟨tag ++ ending, tag.length + ending.length - 1⟩ := by
  unfold bodyRule
  rw [bodyOpener?_eq_some_iff.mpr ⟨rfl, htag⟩]
  rcases hending with rfl | rfl <;> rfl

/-- A tag that opens a macro inside a line is a match on its own. -/
theorem bodyRule_append_of_isInLine (prev : Option Char) {tag rest : List Char}
    (htag : IsBodyOpener tag) (hrest : ∀ c ∈ rest.head?, isInLine c = true) :
    bodyRule prev (tag ++ rest) = some ⟨tag ++ ['\n'], tag.length - 1⟩ := by
  unfold bodyRule
  rw [bodyOpener?_eq_some_iff.mpr ⟨rfl, htag⟩]
  cases rest with
  | nil => rfl
  | cons c rest =>
    have hc := hrest c rfl
    split
    · rename_i hopener
      exact absurd hopener (by simp)
    · rename_i hopener
      simp only [Option.some.injEq, Prod.mk.injEq, List.cons.injEq] at hopener
      exact absurd (hopener.2.1 ▸ hc) (by decide)
    · rename_i hopener
      simp only [Option.some.injEq, Prod.mk.injEq, List.cons.injEq] at hopener
      exact absurd (hopener.2.1 ▸ hc) (by decide)
    · rename_i hopener
      simp only [Option.some.injEq, Prod.mk.injEq] at hopener
      rw [hopener.1]

/-- Tags that open a macro are found at corresponding places. -/
theorem bodyRule_respects : Rule.Respects bodyRule where
  broken prev s := by
    have hword : Unbroken (tagOpen ++ definitionWord) := by decide
    simp [bodyRule, bodyOpener?, hword.after?_eq_none (by decide)]
  missed prev s t h hnone := by
    rw [Option.eq_none_iff_forall_ne_some]
    intro found hfound
    obtain ⟨tag, -, rest, htag, -, -, rfl, -⟩ := bodyRule_eq_some hfound
    obtain ⟨rest, rfl, -⟩ :=
      h.exists_of_unbroken_right (unbroken_of_isInLine htag.isInLine)
    exact bodyRule_ne_none htag (List.prefix_append tag rest) hnone
  found prev matched s t found hfound hlength h := by
    obtain ⟨tag, -, rest, htag, -, -, hs, -⟩ := bodyRule_eq_some hfound
    have htagged : Returned tag tag := .of_not_mem (unbroken_of_isInLine htag.isInLine).1
    have hpos : 0 < tag.length := by
      obtain ⟨name, parameters, rfl, -, -, -⟩ := htag
      simp [tagOpen]
    rw [hs] at hfound h
    obtain ⟨rest', rfl, hrest⟩ := h.exists_of_unbroken (unbroken_of_isInLine htag.isInLine)
    by_cases hfeed : ∃ next, rest = '\n' :: next
    · obtain ⟨next, rfl⟩ := hfeed
      obtain rfl := Option.some.inj
        (hfound.symm.trans (bodyRule_append prev htag (.inl rfl) next))
      obtain ⟨ending, next', hbreak, rfl, hsame, hnext⟩ := exists_isLineBreak hrest
      have hsplit : matched ++ s = (tag ++ ['\n']) ++ next := by simp [hs]
      obtain ⟨rfl, rfl⟩ := List.append_inj hsplit (by simp [hlength])
      refine ⟨tag ++ ending, next', _, by simp, bodyRule_append prev htag hbreak next', ?_,
        htagged.append hsame, htagged.append hsame, hnext⟩
      rw [List.length_append]
      exact (Nat.sub_add_cancel (Nat.le_add_right_of_le hpos)).symm
    · -- Nothing starts a line here, neither in the one spelling nor in the other.
      have hhead : (∀ c ∈ rest.head?, isInLine c = true) ∧
          ∀ c ∈ rest'.head?, isInLine c = true := by
        cases hrest with
        | nil => simp
        | @keep c _ _ hc _ =>
          have hne : c ≠ '\n' := by
            rintro rfl
            exact hfeed ⟨_, rfl⟩
          simp [isInLine, hc, hne]
        | feed _ => exact absurd ⟨_, rfl⟩ hfeed
      obtain rfl := Option.some.inj
        (hfound.symm.trans (bodyRule_append_of_isInLine prev htag hhead.1))
      have hsame : matched.length = tag.length := by
        rw [hlength]
        exact Nat.sub_add_cancel hpos
      obtain ⟨rfl, rfl⟩ := List.append_inj hs hsame
      exact ⟨matched, rest', _, rfl, bodyRule_append_of_isInLine prev htag hhead.2, hlength,
        htagged, htagged.append (.keep (by decide) .nil), hrest⟩

/-! ## Control lines -/

/-- A line of indentation, a percent sign, more indentation and a carriage return. -/
def IsBareLine (line : List Char) : Prop :=
  ∃ indent gap, line = indent ++ '%' :: (gap ++ ['\r']) ∧ (∀ c ∈ indent, isIndent c = true) ∧
    ∀ c ∈ gap, isIndent c = true

/-- One of the lines is bare. -/
def HasBareLine (s : List Char) : Prop :=
  ∃ line ∈ splitOn '\n' s, IsBareLine line

/-- Indentation holds no carriage return. -/
theorem not_mem_of_isIndent (h : ∀ c ∈ w, isIndent c = true) : '\r' ∉ w :=
  fun hmem => absurd (h _ hmem) (by decide)

/-- Behind indentation, a carriage return at the end of a text stands alone or after something else
than a carriage return. -/
theorem dropWhile_append_return (h : '\r' ∉ s) :
    s.dropWhile isIndent = [] ∧ (s ++ ['\r']).dropWhile isIndent = ['\r'] ∨
      ∃ c later, c ≠ '\r' ∧ s.dropWhile isIndent = c :: later ∧
        (s ++ ['\r']).dropWhile isIndent = c :: (later ++ ['\r']) := by
  rw [List.dropWhile_append]
  cases hdrop : s.dropWhile isIndent with
  | nil => exact .inl ⟨rfl, rfl⟩
  | cons c later =>
    refine .inr ⟨c, later, ?_, rfl, rfl⟩
    rintro rfl
    exact h ((List.dropWhile_suffix isIndent).subset (hdrop ▸ List.mem_cons_self))

/-- A carriage return at the end of a line tail changes nothing. -/
theorem isLineTail_append_return (h : '\r' ∉ s) : isLineTail (s ++ ['\r']) = isLineTail s := by
  unfold isLineTail
  cases s with
  | nil => rfl
  | cons c s =>
    by_cases hc : c = ':'
    · subst hc
      have hs : '\r' ∉ s := fun hmem => h (List.mem_cons_of_mem _ hmem)
      obtain ⟨hdrop, hdrop'⟩ | ⟨d, later, hd, hdrop, hdrop'⟩ := dropWhile_append_return hs
      · simp [hdrop, hdrop']
      · simp [hdrop, hdrop', hd]
    · obtain ⟨hdrop, hdrop'⟩ | ⟨d, later, hd, hdrop, hdrop'⟩ := dropWhile_append_return h
      · rw [List.cons_append] at hdrop'
        simp [hc, hdrop, hdrop']
      · rw [List.cons_append] at hdrop'
        simp [hc, hdrop, hdrop', hd]

/-- The shortest body before a carriage return is the shortest body without it. -/
theorem shortestBody_append_return {first : Char} (h : '\r' ∉ first :: s) :
    (shortestBody first s).2 = [] ∧
      shortestBody first (s ++ ['\r']) = ((shortestBody first s).1, ['\r']) := by
  induction s generalizing first with
  | nil => exact ⟨rfl, rfl⟩
  | cons c s ih =>
    have hs : '\r' ∉ c :: s := fun hmem => h (List.mem_cons_of_mem _ hmem)
    obtain ⟨hending, hbody⟩ := ih hs
    have hlast : (c :: s).getLast? ≠ some '\r' := fun hlast => hs (List.mem_of_getLast? hlast)
    have hreturn : (c :: (s ++ ['\r'])).getLast? = some '\r' := by
      rw [← List.cons_append, List.getLast?_concat]
    have htail := isLineTail_append_return hs
    rw [List.cons_append] at htail ⊢
    rw [shortestBody, shortestBody, htail]
    split
    · simp [lineReturn, hlast, hreturn]
    · simp [hending, hbody]

/-- A carriage return at the end of a line that is not bare stays there. -/
theorem markControlLine_append_return (hline : '\r' ∉ line)
    (hbare : ¬ IsBareLine (line ++ ['\r'])) :
    markControlLine (line ++ ['\r']) = markControlLine line ++ ['\r'] := by
  have hindent : (line ++ ['\r']).takeWhile isIndent = line.takeWhile isIndent := by
    rw [List.takeWhile_append]
    split
    · rename_i hall
      have hsame := (List.takeWhile_prefix (l := line) isIndent).eq_of_length hall
      simp [hsame, isIndent]
    · rfl
  unfold markControlLine
  rw [hindent]
  obtain ⟨hdrop, hdrop'⟩ | ⟨c, rest, hc, hdrop, hdrop'⟩ := dropWhile_append_return hline
  · rw [hdrop, hdrop']
    rfl
  · rw [hdrop, hdrop']
    by_cases hpercent : c = '%'
    · subst hpercent
      have hsplit : line = line.takeWhile isIndent ++ '%' :: rest := by
        rw [← hdrop, List.takeWhile_append_dropWhile]
      have hrest : '\r' ∉ rest := fun hmem => hline (by rw [hsplit]; simp [hmem])
      obtain ⟨hgap, -⟩ | ⟨d, later, -, hbody, hbody'⟩ := dropWhile_append_return hrest
      · refine absurd ⟨line.takeWhile isIndent, rest, ?_, ?_, ?_⟩ hbare
        · rw [← List.cons_append, ← List.append_assoc, ← hsplit]
        · exact fun c hc => List.mem_takeWhile_imp hc
        · exact List.dropWhile_eq_nil_iff.mp hgap
      · have hmem : '\r' ∉ d :: later := fun hmem =>
          hrest ((List.dropWhile_suffix isIndent).subset (hbody ▸ hmem))
        obtain ⟨hending, hshortest⟩ := shortestBody_append_return hmem
        simp [controlBody?, hbody, hbody', hshortest, hending]
    · simp [hpercent]

/-- A line with a percent sign behind its indentation. -/
theorem markControlLine_append {indent : List Char} (hindent : ∀ c ∈ indent, isIndent c = true)
    (s : List Char) :
    markControlLine (indent ++ '%' :: s) =
      match controlBody? s with
      | some (body, ending) => indent ++ tagOpen ++ body ++ tagClose ++ ending
      | none => indent ++ '%' :: s := by
  have hdrop : (indent ++ '%' :: s).dropWhile isIndent = '%' :: s := by
    rw [List.dropWhile_append_of_pos hindent]
    rfl
  have htake : (indent ++ '%' :: s).takeWhile isIndent = indent := by
    rw [List.takeWhile_append_of_pos hindent]
    simp [isIndent]
  unfold markControlLine
  rw [hdrop, htake]
  rfl

/-- The carriage return of a bare line becomes the body of a tag. -/
theorem markControlLine_of_isBareLine {indent gap : List Char}
    (hindent : ∀ c ∈ indent, isIndent c = true) (hgap : ∀ c ∈ gap, isIndent c = true) :
    markControlLine (indent ++ '%' :: (gap ++ ['\r'])) =
      indent ++ tagOpen ++ ['\r'] ++ tagClose := by
  have hbody : (gap ++ ['\r']).dropWhile isIndent = ['\r'] := by
    rw [List.dropWhile_append_of_pos hgap]
    rfl
  rw [markControlLine_append hindent]
  simp [controlBody?, hbody, shortestBody]

/-- A bare line is marked differently without its carriage return: its body is the last of its
indentation, and if there is none, it is no control line at all. -/
theorem markControlLine_ne_of_isBareLine (h : IsBareLine (line ++ ['\r'])) :
    withoutReturns (markControlLine (line ++ ['\r'])) ≠ markControlLine line := by
  obtain ⟨indent, gap, hline, hindent, hgap⟩ := h
  obtain rfl : line = indent ++ '%' :: gap := by
    rw [← List.cons_append, ← List.append_assoc] at hline
    exact List.append_cancel_right hline
  have hreturned : withoutReturns (markControlLine (indent ++ '%' :: gap ++ ['\r'])) =
      indent ++ tagOpen ++ tagClose := by
    have hsame : indent.filter (· != '\r') = indent :=
      List.filter_eq_self.mpr fun c hc => by
        rw [bne_iff_ne]
        rintro rfl
        exact not_mem_of_isIndent hindent hc
    rw [hline, markControlLine_of_isBareLine hindent hgap]
    simp [withoutReturns, hsame, tagOpen, tagClose]
  rw [hreturned, markControlLine_append hindent, controlBody?, List.dropWhile_eq_nil_iff.mpr hgap]
  intro heq
  have hlength := congrArg List.length heq
  cases hlast : gap.getLast? with
  | none =>
    obtain rfl := List.getLast?_eq_none_iff.mp hlast
    simp [tagOpen, tagClose] at hlength
  | some c => simp [hlast, tagOpen, tagClose] at hlength

/-- The parts of a control line are taken from what follows its percent sign. -/
theorem subset_of_controlBody? {body ending : List Char}
    (h : controlBody? s = some (body, ending)) : body ⊆ s ∧ ending ⊆ s := by
  have hending : ∀ (first : Char) (t : List Char), (shortestBody first t).2 ⊆ t := by
    intro first t
    induction t generalizing first with
    | nil => exact List.Subset.refl _
    | cons c t ih =>
      rw [shortestBody]
      split
      · show lineReturn (c :: t) ⊆ c :: t
        unfold lineReturn
        split
        · rename_i hlast
          simpa using List.mem_of_getLast? hlast
        · exact List.nil_subset _
      · exact List.Subset.trans (ih c) (List.subset_cons_self c t)
  unfold controlBody? at h
  cases hdrop : s.dropWhile isIndent with
  | nil =>
    simp only [hdrop, Option.map_eq_some_iff, Prod.mk.injEq] at h
    obtain ⟨c, hlast, rfl, rfl⟩ := h
    exact ⟨by simpa using List.mem_of_getLast? hlast, List.nil_subset _⟩
  | cons c rest =>
    simp only [hdrop, Option.some.injEq] at h
    have hrest : c :: rest ⊆ s := hdrop ▸ (List.dropWhile_suffix isIndent).subset
    have hbody := (prefix_shortestBody c rest).subset
    have hlater := hending c rest
    rw [h] at hbody hlater
    exact ⟨List.Subset.trans hbody hrest,
      List.Subset.trans hlater (List.Subset.trans (List.subset_cons_self c rest) hrest)⟩

/-- What a marked line holds stands in the line or in the marks of a tag. -/
theorem mem_of_mem_markControlLine {c : Char} (h : c ∈ markControlLine line) :
    c ∈ line ∨ c ∈ tagOpen ++ tagClose := by
  unfold markControlLine at h
  split at h
  · rename_i s hs
    have hsub : s ⊆ line := List.Subset.trans (List.subset_cons_self '%' s)
      (hs ▸ (List.dropWhile_suffix isIndent).subset)
    split at h
    · rename_i body ending hbody
      obtain ⟨hin, hend⟩ := subset_of_controlBody? hbody
      simp only [List.mem_append] at h ⊢
      rcases h with (((h | h) | h) | h) | h
      · exact .inl ((List.takeWhile_prefix isIndent).subset h)
      · exact .inr (.inl h)
      · exact .inl (hsub (hin h))
      · exact .inr (.inr h)
      · exact .inl (hsub (hend h))
    · exact .inl h
  · exact .inl h

/-- Marking a line puts no other characters into it. -/
theorem not_mem_markControlLine {c : Char} (h : c ∉ line) (hc : c ∉ tagOpen ++ tagClose) :
    c ∉ markControlLine line := by
  intro hmem
  rcases mem_of_mem_markControlLine hmem with hmem | hmem
  · exact h hmem
  · exact hc hmem

/-- What may end a line that is not bare stays at its end. -/
theorem markControlLine_append_ending {ending : List Char} (hline : '\r' ∉ line)
    (hending : ending = [] ∨ ending = ['\r']) (hbare : ¬ IsBareLine (line ++ ending)) :
    markControlLine (line ++ ending) = markControlLine line ++ ending := by
  rcases hending with rfl | rfl
  · rw [List.append_nil, List.append_nil]
  · exact markControlLine_append_return hline hbare

/-- Lines none of which is bare stay related when they are marked. -/
theorem linesReturned_map_markControlLine {lines others : List (List Char)}
    (h : LinesReturned lines others) (hbare : ∀ other ∈ others, ¬ IsBareLine other) :
    LinesReturned (lines.map markControlLine) (others.map markControlLine) := by
  induction h with
  | last hline => exact .last (not_mem_markControlLine hline (by decide))
  | @cons line ending lines others hline hending _ ih =>
    have hlater := ih fun other hother => hbare other (List.mem_cons_of_mem _ hother)
    rw [List.map_cons, List.map_cons,
      markControlLine_append_ending hline hending (hbare _ List.mem_cons_self)]
    exact .cons (not_mem_markControlLine hline (by decide)) hending hlater

/-- Two spellings of a text stay related when control lines are marked, unless a line is bare. -/
theorem returned_markControlLines (h : Returned s t) (hbare : ¬ HasBareLine t) :
    Returned (markControlLines s) (markControlLines t) := by
  have hlines := linesReturned_map_markControlLine h.splitOn fun other hother hline =>
    hbare ⟨other, hother, hline⟩
  exact hlines.joinWith

/-! ## All rules -/

/-- A template as the rule for control lines comes to it. -/
def beforeControlLines (s : List Char) : List Char :=
  markSubstitutions (joinContinuations s)

/-- Two spellings of a template are still related when the rule for control lines comes to them. -/
theorem returned_beforeControlLines (h : Returned s t) :
    Returned (beforeControlLines s) (beforeControlLines t) :=
  (h.replaceMatches continuationRule_bounded continuationRule_respects).replaceMatches
    substitutionRule_bounded substitutionRule_respects

/-- The last three rules together. -/
def cleaned (s : List Char) : List Char :=
  spaceBodies (dropComments (closeBlocks s))

/-- Two spellings of a text stay related when they are cleaned up. -/
theorem returned_cleaned (h : Returned s t) : Returned (cleaned s) (cleaned t) :=
  ((h.replaceMatches blockEndRule_bounded blockEndRule_respects).replaceMatches
    commentRule_bounded commentRule_respects).replaceMatches bodyRule_bounded bodyRule_respects

/-- Two spellings of a template stay related in primitive notation, unless a line is bare. -/
theorem returned_toPrimitive (h : Returned s t)
    (hbare : ¬ HasBareLine (beforeControlLines t)) :
    Returned (toPrimitive s) (toPrimitive t) :=
  returned_cleaned (returned_markControlLines (returned_beforeControlLines h) hbare)

end DsdlHeaders.Template.Extended

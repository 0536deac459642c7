import DsdlHeaders.Proofs.Text.Parts
import DsdlHeaders.Proofs.Text.Replacing

/-!
# Carriage returns before line feeds

A line ends with a line feed, or with a carriage return and a line feed. Texts that differ in
nothing else are related by **`Returned`**: the second text is the first one, which holds no
carriage return, with carriage returns put before some of its line feeds.

* **Spellings.** Every text without carriage returns is related to the text with one before each
  line feed (`returned_withReturns`), and dropping the carriage returns leads back
  (`Returned.withoutReturns_eq`).
* **Searching.** A mark that lies inside a line is found at corresponding places
  (`Returned.after?`, `Returned.cut?`), and trimming keeps texts related (`Returned.trim`).
* **Lines.** The lines of related texts are the same, except that all of them but the last may end
  with a carriage return (`Returned.splitOn`, `LinesReturned.joinWith`).
* **Replacing.** A rule that matches corresponding pieces of related texts keeps whole texts related
  (`Returned.replaceMatches`).
-/

namespace DsdlHeaders.Text

variable {mark s t w : List Char} {c : Char} {p : Char → Bool}

/-! ## Two spellings of one text -/

/-- A text with a carriage return before every line feed. -/
def withReturns (s : List Char) : List Char :=
  replaceChar '\n' ['\r', '\n'] s

/-- A text without its carriage returns. -/
def withoutReturns (s : List Char) : List Char :=
  s.filter (· != '\r')

/-- The second text is the first one, which holds no carriage return, with carriage returns before
some of its line feeds. -/
inductive Returned : List Char → List Char → Prop where
  | nil : Returned [] []
  | keep {c : Char} {s t : List Char} (hc : c ≠ '\r') (h : Returned s t) :
    Returned (c :: s) (c :: t)
  | feed {s t : List Char} (h : Returned s t) : Returned ('\n' :: s) ('\r' :: '\n' :: t)

/-- The parts of one text are related to the parts of another. -/
def PartsReturned (parts others : List Char × List Char) : Prop :=
  Returned parts.1 others.1 ∧ Returned parts.2 others.2

/-- Two optional results that are related are both missing or both there. -/
theorem eq_none_or_eq_some_of_rel {α β : Type} {related : α → β → Prop} {x : Option α}
    {y : Option β} (h : Option.Rel related x y) :
    x = none ∧ y = none ∨ ∃ a b, x = some a ∧ y = some b ∧ related a b := by
  cases h with
  | none => exact .inl ⟨rfl, rfl⟩
  | some h => exact .inr ⟨_, _, rfl, rfl, h⟩

/-- Without its carriage returns the second text is the first one. -/
theorem Returned.withoutReturns_eq (h : Returned s t) : withoutReturns t = s := by
  unfold withoutReturns
  induction h with
  | nil => rfl
  | keep hc _ ih => rw [List.filter_cons_of_pos (by simpa using hc), ih]
  | feed _ ih => rw [List.filter_cons_of_neg (by decide), List.filter_cons_of_pos (by decide), ih]

/-- Carriage returns are dropped piece by piece. -/
theorem withoutReturns_append (s t : List Char) :
    withoutReturns (s ++ t) = withoutReturns s ++ withoutReturns t :=
  List.filter_append s t

/-- The first text holds no carriage return. -/
theorem Returned.not_mem (h : Returned s t) : '\r' ∉ s := by
  rw [← h.withoutReturns_eq]
  simp [withoutReturns]

/-- A text without carriage returns is related to itself. -/
theorem Returned.of_not_mem (h : '\r' ∉ s) : Returned s s := by
  induction s with
  | nil => exact .nil
  | cons c s ih =>
    obtain ⟨hc, hs⟩ := not_or.mp (List.mem_cons.not.mp h)
    exact .keep (Ne.symm hc) (ih hs)

/-- A text without carriage returns is related to the text with all of them. -/
theorem returned_withReturns (h : '\r' ∉ s) : Returned s (withReturns s) := by
  unfold withReturns
  induction s with
  | nil => exact .nil
  | cons c s ih =>
    obtain ⟨hc, hs⟩ := not_or.mp (List.mem_cons.not.mp h)
    rw [replaceChar_cons]
    split
    · rename_i hfeed
      subst hfeed
      exact .feed (ih hs)
    · exact .keep (Ne.symm hc) (ih hs)

/-- Related texts one after the other are related. -/
theorem Returned.append {s' t' : List Char} (h : Returned s t) (h' : Returned s' t') :
    Returned (s ++ s') (t ++ t') := by
  induction h with
  | nil => exact h'
  | keep hc _ ih => exact .keep hc ih
  | feed _ ih => exact .feed ih

/-- A text that is related to two texts one after the other consists of two such texts. -/
theorem Returned.exists_append {a b : List Char} (h : Returned (a ++ b) t) :
    ∃ a' b', t = a' ++ b' ∧ Returned a a' ∧ Returned b b' := by
  induction a generalizing t with
  | nil => exact ⟨[], t, rfl, .nil, h⟩
  | cons c a ih =>
    cases h with
    | keep hc h =>
      obtain ⟨a', b', rfl, ha, hb⟩ := ih h
      exact ⟨c :: a', b', rfl, .keep hc ha, hb⟩
    | feed h =>
      obtain ⟨a', b', rfl, ha, hb⟩ := ih h
      exact ⟨'\r' :: '\n' :: a', b', rfl, .feed ha, hb⟩

/-- Related texts are empty together. -/
theorem Returned.eq_nil_iff (h : Returned s t) : t = [] ↔ s = [] := by
  cases h <;> simp

/-- Related texts end with the same character. -/
theorem Returned.getLast?_eq (h : Returned s t) : t.getLast? = s.getLast? := by
  induction h with
  | nil => rfl
  | keep _ _ ih => rw [List.getLast?_cons, List.getLast?_cons, ih]
  | feed _ ih => rw [List.getLast?_cons_cons, List.getLast?_cons, List.getLast?_cons, ih]

/-- Related texts hold the same other characters. -/
theorem Returned.mem_iff (h : Returned s t) (hc : c ≠ '\r') : c ∈ t ↔ c ∈ s := by
  rw [← h.withoutReturns_eq]
  simp [withoutReturns, hc]

/-- Related texts have as many line feeds. -/
theorem Returned.lineFeeds_eq (h : Returned s t) : lineFeeds t = lineFeeds s := by
  rw [← h.withoutReturns_eq]
  exact (List.count_filter (by decide)).symm

/-! ## Pieces of lines -/

/-- A text that lies inside a line. -/
def Unbroken (w : List Char) : Prop :=
  '\r' ∉ w ∧ '\n' ∉ w

/-- Whether a text lies inside a line can be decided. -/
instance (w : List Char) : Decidable (Unbroken w) :=
  inferInstanceAs (Decidable (_ ∧ _))

/-- The end of a text that lies inside a line. -/
theorem Unbroken.of_cons (h : Unbroken (c :: w)) : c ≠ '\r' ∧ c ≠ '\n' ∧ Unbroken w := by
  obtain ⟨hreturn, hfeed⟩ := h
  obtain ⟨hc, hw⟩ := not_or.mp (List.mem_cons.not.mp hreturn)
  obtain ⟨hc', hw'⟩ := not_or.mp (List.mem_cons.not.mp hfeed)
  exact ⟨Ne.symm hc, Ne.symm hc', hw, hw'⟩

/-- No mark inside a line is found at the end of a line. -/
theorem Unbroken.after?_eq_none (hmark : Unbroken mark) (hne : mark ≠ []) (s : List Char) :
    after? mark ('\n' :: s) = none ∧ after? mark ('\r' :: s) = none := by
  obtain ⟨m, mark, rfl⟩ := List.exists_cons_of_ne_nil hne
  obtain ⟨hreturn, hfeed, -⟩ := hmark.of_cons
  simp [after?, hreturn, hfeed]

/-- Inside a line, related texts are the same. -/
theorem Returned.eq_of_unbroken (h : Returned s t) (hs : Unbroken s) : t = s := by
  induction h with
  | nil => rfl
  | keep _ _ ih => rw [ih hs.of_cons.2.2]
  | feed _ _ => exact absurd rfl hs.of_cons.2.1

/-- A mark inside a line is found in front of both of two related texts or of none. -/
theorem Returned.after? (h : Returned s t) (hmark : Unbroken mark) :
    Option.Rel Returned (after? mark s) (after? mark t) := by
  induction mark generalizing s t with
  | nil => exact .some h
  | cons m mark ih =>
    obtain ⟨hreturn, hfeed, hlater⟩ := hmark.of_cons
    cases h with
    | nil => exact .none
    | keep _ h =>
      rw [Text.after?, Text.after?]
      split
      · exact ih h hlater
      · exact .none
    | feed _ =>
      rw [Text.after?, Text.after?, if_neg hfeed, if_neg hreturn]
      exact .none

/-- Related texts start with the same marks. -/
theorem Returned.startsWith_eq (h : Returned s t) (hmark : Unbroken mark) :
    startsWith mark t = startsWith mark s := by
  unfold startsWith
  obtain ⟨hs, ht⟩ | ⟨rest, rest', hs, ht, -⟩ := eq_none_or_eq_some_of_rel (h.after? hmark)
  · rw [hs, ht]
  · rw [hs, ht]
    rfl

/-- A text that starts inside a line starts in the same way when it is spelled differently. -/
theorem Returned.exists_of_unbroken (h : Returned (w ++ s) t) (hw : Unbroken w) :
    ∃ t', t = w ++ t' ∧ Returned s t' := by
  obtain ⟨w', t', rfl, hfront, hs⟩ := h.exists_append
  exact ⟨t', by rw [hfront.eq_of_unbroken hw], hs⟩

/-- A text that is spelled differently starts inside a line as the spelling does. -/
theorem Returned.exists_of_unbroken_right (h : Returned s (w ++ t)) (hw : Unbroken w) :
    ∃ s', s = w ++ s' ∧ Returned s' t := by
  obtain ⟨-, ht⟩ | ⟨rest, rest', hs, ht, hrest⟩ := eq_none_or_eq_some_of_rel (h.after? hw)
  · rw [after?_append] at ht
    exact absurd ht (by simp)
  · rw [after?_append] at ht
    obtain rfl := Option.some.inj ht
    exact ⟨rest, after?_eq_some_iff.mp hs, hrest⟩

/-- A mark inside a line is cut out of both of two related texts or of none. -/
theorem Returned.cut? (h : Returned s t) (hmark : Unbroken mark) (hne : mark ≠ []) :
    Option.Rel PartsReturned (cut? mark s) (cut? mark t) := by
  induction h with
  | nil =>
    obtain ⟨m, mark, rfl⟩ := List.exists_cons_of_ne_nil hne
    exact .none
  | @keep c s t hc h ih =>
    rw [Text.cut?, Text.cut?]
    obtain ⟨hs, ht⟩ | ⟨rest, rest', hs, ht, hrest⟩ :=
      eq_none_or_eq_some_of_rel ((Returned.keep hc h).after? hmark)
    · rw [hs, ht]
      obtain ⟨hs, ht⟩ | ⟨parts, parts', hs, ht, hparts⟩ := eq_none_or_eq_some_of_rel ih
      · rw [hs, ht]
        exact .none
      · rw [hs, ht]
        exact .some ⟨.keep hc hparts.1, hparts.2⟩
    · rw [hs, ht]
      exact .some ⟨.nil, hrest⟩
  | feed h ih =>
    rw [Text.cut?, Text.cut?, Text.cut?, (hmark.after?_eq_none hne _).1,
      (hmark.after?_eq_none hne _).2, (hmark.after?_eq_none hne _).1]
    obtain ⟨hs, ht⟩ | ⟨parts, parts', hs, ht, hparts⟩ := eq_none_or_eq_some_of_rel ih
    · rw [hs, ht]
      exact .none
    · rw [hs, ht]
      exact .some ⟨.feed hparts.1, hparts.2⟩

/-- A mark occurs in both of two related texts or in none. -/
theorem Returned.occurs_eq (h : Returned s t) (hmark : Unbroken mark) (hne : mark ≠ []) :
    occurs mark t = occurs mark s := by
  unfold occurs
  obtain ⟨hs, ht⟩ | ⟨parts, parts', hs, ht, -⟩ := eq_none_or_eq_some_of_rel (h.cut? hmark hne)
  · rw [hs, ht]
  · rw [hs, ht]
    rfl

/-! ## Characters of a kind -/

/-- Characters of a kind that stands inside lines are the same in front of related texts. -/
theorem Returned.takeWhile_eq (h : Returned s t) (hreturn : p '\r' = false)
    (hfeed : p '\n' = false) : t.takeWhile p = s.takeWhile p := by
  induction h with
  | nil => rfl
  | @keep c s t _ _ ih => rw [List.takeWhile_cons, List.takeWhile_cons, ih]
  | feed _ _ =>
    rw [List.takeWhile_cons_of_neg (by simp [hreturn]),
      List.takeWhile_cons_of_neg (by simp [hfeed])]

/-- Related texts without the characters of a kind in front of them. -/
theorem Returned.dropWhile (h : Returned s t) (hp : p '\n' = true → p '\r' = true) :
    Returned (s.dropWhile p) (t.dropWhile p) := by
  induction h with
  | nil => exact .nil
  | @keep c s t hc h ih =>
    by_cases hdrop : p c = true
    · rw [List.dropWhile_cons_of_pos hdrop, List.dropWhile_cons_of_pos hdrop]
      exact ih
    · rw [List.dropWhile_cons_of_neg hdrop, List.dropWhile_cons_of_neg hdrop]
      exact .keep hc h
  | @feed s t h ih =>
    by_cases hfeed : p '\n' = true
    · rw [List.dropWhile_cons_of_pos hfeed, List.dropWhile_cons_of_pos (hp hfeed),
        List.dropWhile_cons_of_pos hfeed]
      exact ih
    · rw [List.dropWhile_cons_of_neg hfeed]
      by_cases hreturn : p '\r' = true
      · rw [List.dropWhile_cons_of_pos hreturn, List.dropWhile_cons_of_neg hfeed]
        exact .keep (by decide) h
      · rw [List.dropWhile_cons_of_neg hreturn]
        exact .feed h

/-- A text with one more character in front, without the characters of a kind at its end. -/
theorem dropWhile_reverse_cons (p : Char → Bool) (c : Char) (s : List Char) :
    ((c :: s).reverse.dropWhile p).reverse =
      if (s.reverse.dropWhile p).reverse = [] then [c].dropWhile p
      else c :: (s.reverse.dropWhile p).reverse := by
  rw [List.reverse_cons, List.dropWhile_append]
  by_cases hnil : s.reverse.dropWhile p = []
  · by_cases hc : p c = true
    · simp [hnil, hc]
    · simp [hnil, hc]
  · simp [hnil]

/-- Related texts without the characters of a kind at their ends. -/
theorem Returned.dropWhile_reverse (h : Returned s t) (hp : p '\n' = true → p '\r' = true) :
    Returned (s.reverse.dropWhile p).reverse (t.reverse.dropWhile p).reverse := by
  induction h with
  | nil => exact .nil
  | @keep c s t hc h ih =>
    have hone : Returned ([c].dropWhile p) ([c].dropWhile p) := (Returned.keep hc .nil).dropWhile hp
    rw [dropWhile_reverse_cons, dropWhile_reverse_cons]
    simp only [ih.eq_nil_iff]
    split
    · exact hone
    · exact .keep hc ih
  | @feed s t h ih =>
    rw [dropWhile_reverse_cons, dropWhile_reverse_cons, dropWhile_reverse_cons]
    simp only [ih.eq_nil_iff]
    by_cases hnil : (s.reverse.dropWhile p).reverse = []
    · by_cases hfeed : p '\n' = true
      · simpa [hnil, hfeed, hp hfeed] using Returned.nil
      · simpa [hnil, hfeed] using Returned.feed .nil
    · simpa [hnil] using Returned.feed ih

/-- Trimming keeps texts related. -/
theorem Returned.trim (h : Returned s t) : Returned (trim s) (trim t) := by
  have hblank : isBlank '\n' = true → isBlank '\r' = true := fun _ => by decide
  exact (h.dropWhile hblank).dropWhile_reverse hblank

/-! ## Lines -/

/-- The second lines are the first ones, which hold no carriage return, and all of them but the last
may have one at the end. -/
inductive LinesReturned : List (List Char) → List (List Char) → Prop where
  | last {line : List Char} (hline : '\r' ∉ line) : LinesReturned [line] [line]
  | cons {line ending : List Char} {lines others : List (List Char)} (hline : '\r' ∉ line)
    (hending : ending = [] ∨ ending = ['\r']) (h : LinesReturned lines others) :
    LinesReturned (line :: lines) ((line ++ ending) :: others)

/-- One more character in front of the first line. -/
theorem LinesReturned.cons_char {line other : List Char} {lines others : List (List Char)}
    (h : LinesReturned (line :: lines) (other :: others)) (hc : c ≠ '\r') :
    LinesReturned ((c :: line) :: lines) ((c :: other) :: others) := by
  have hmem : '\r' ∉ line → '\r' ∉ c :: line := fun hline =>
    List.mem_cons.not.mpr (not_or.mpr ⟨Ne.symm hc, hline⟩)
  cases h with
  | last hline => exact .last (hmem hline)
  | cons hline hending h => exact .cons (hmem hline) hending h

/-- The lines of related texts. -/
theorem Returned.splitOn (h : Returned s t) :
    LinesReturned (splitOn '\n' s) (splitOn '\n' t) := by
  induction h with
  | nil => exact .last (by simp)
  | @keep c s t hc _ ih =>
    by_cases hfeed : c = '\n'
    · subst hfeed
      exact .cons List.not_mem_nil (.inl rfl) ih
    · obtain ⟨line, lines, hs, hcs⟩ := splitOn_cons_of_ne hfeed s
      obtain ⟨other, others, ht, hct⟩ := splitOn_cons_of_ne hfeed t
      rw [hs, ht] at ih
      rw [hcs, hct]
      exact ih.cons_char hc
  | feed _ ih => exact .cons List.not_mem_nil (.inr rfl) ih

/-- Texts are related if their lines are. -/
theorem LinesReturned.joinWith {lines others : List (List Char)} (h : LinesReturned lines others) :
    Returned (joinWith ['\n'] lines) (joinWith ['\n'] others) := by
  have hne : ∀ {lines others}, LinesReturned lines others → lines ≠ [] ∧ others ≠ [] := by
    intro lines others h
    cases h <;> simp
  induction h with
  | last hline => exact .of_not_mem hline
  | cons hline hending h ih =>
    rw [joinWith_cons (hne h).1, joinWith_cons (hne h).2, List.append_assoc, List.append_assoc,
      List.append_assoc]
    refine (Returned.of_not_mem hline).append ?_
    rcases hending with rfl | rfl
    · exact .keep (by decide) ih
    · exact .feed ih

/-! ## Replacing -/

/-- A rule finds corresponding matches in related texts, and none that starts at the end of a
line. -/
structure Rule.Respects (rule : Rule) : Prop where
  broken : ∀ prev s, rule prev ('\n' :: s) = none ∧ rule prev ('\r' :: s) = none
  missed : ∀ prev s t, Returned s t → rule prev s = none → rule prev t = none
  found : ∀ prev matched s t found, rule prev (matched ++ s) = some found →
    matched.length = found.extra + 1 → Returned (matched ++ s) t →
    ∃ matched' t' found', t = matched' ++ t' ∧ rule prev t = some found' ∧
      matched'.length = found'.extra + 1 ∧ Returned matched matched' ∧
        Returned found.text found'.text ∧ Returned s t'

variable {rule : Rule} {prev : Option Char}

/-- A rule whose matches and replacements lie inside lines finds corresponding matches if it finds
the same in related texts. -/
theorem Rule.Respects.of_unbroken
    (hbroken : ∀ prev s, rule prev ('\n' :: s) = none ∧ rule prev ('\r' :: s) = none)
    (hsame : ∀ prev s t, Returned s t → rule prev t = rule prev s)
    (hmatched : ∀ prev matched s found, rule prev (matched ++ s) = some found →
      matched.length = found.extra + 1 → '\r' ∉ matched ++ s →
        Unbroken matched ∧ '\r' ∉ found.text) : rule.Respects where
  broken := hbroken
  missed prev s t h hnone := by rw [hsame prev s t h, hnone]
  found prev matched s t found hfound hlength h := by
    obtain ⟨hunbroken, htext⟩ := hmatched prev matched s found hfound hlength h.not_mem
    obtain ⟨t', rfl, hs⟩ := h.exists_of_unbroken hunbroken
    exact ⟨matched, t', found, rfl, (hsame prev _ _ h).trans hfound, hlength,
      .of_not_mem hunbroken.1, .of_not_mem htext, hs⟩

/-- A match at the present position is replaced. -/
theorem replaceMatchesFrom_of_found {matched : List Char} {found : Replacement}
    (hfound : rule prev (matched ++ s) = some found) (hlength : matched.length = found.extra + 1) :
    replaceMatchesFrom rule 0 prev (matched ++ s) =
      found.text ++ replaceMatchesFrom rule 0 matched.getLast? s := by
  cases matched with
  | nil => simp at hlength
  | cons c matched =>
    have hextra : found.extra = matched.length := by simpa using hlength.symm
    rw [List.cons_append] at hfound ⊢
    rw [replaceMatchesFrom, hfound]
    show found.text ++ replaceMatchesFrom rule found.extra (some c) (matched ++ s) = _
    rw [hextra, replaceMatchesFrom_append]

/-- The walks over two related texts stay in step. -/
theorem Scans.returned {u : List Char} (hrule : rule.Respects) (hscan : Scans rule prev s u)
    (h : Returned s t) : Returned u (replaceMatchesFrom rule 0 prev t) := by
  induction hscan generalizing t with
  | done =>
    cases h
    exact .nil
  | @keep prev c s u hnone _ ih =>
    cases h with
    | keep hc h =>
      rw [replaceMatchesFrom, hrule.missed _ _ _ (.keep hc h) hnone]
      exact .keep hc (ih h)
    | feed h =>
      rw [replaceMatchesFrom, (hrule.broken _ _).2]
      show Returned _ ('\r' :: replaceMatchesFrom rule 0 (some '\r') _)
      rw [replaceMatchesFrom, (hrule.broken _ _).1]
      exact .feed (ih h)
  | @replace prev found matched s u hfound hlength _ ih =>
    obtain ⟨matched', t', found', rfl, hfound', hlength', hmatched, htext, hs⟩ :=
      hrule.found _ _ _ _ _ hfound hlength h
    rw [replaceMatchesFrom_of_found hfound' hlength', hmatched.getLast?_eq]
    exact htext.append (ih hs)

/-- Replacing keeps texts related. -/
theorem Returned.replaceMatches (h : Returned s t) (hbound : rule.Bounded)
    (hrule : rule.Respects) : Returned (replaceMatches rule s) (replaceMatches rule t) :=
  (scans_replaceMatches hbound s).returned hrule h

/-- What the rule that replaces a mark finds. -/
theorem eq_of_markRule {new : List Char} {found : Replacement}
    (h : (if startsWith mark s then some (⟨new, mark.length - 1⟩ : Replacement) else none) =
      some found) : mark <+: s ∧ found = ⟨new, mark.length - 1⟩ := by
  split at h
  · rename_i hs
    exact ⟨startsWith_iff.mp hs, (Option.some.inj h).symm⟩
  · exact absurd h (by simp)

/-- The rule that replaces a mark finds it inside the text. -/
theorem markRule_bounded (hne : mark ≠ []) (new : List Char) : Rule.Bounded fun _ t =>
    if startsWith mark t then some ⟨new, mark.length - 1⟩ else none := by
  intro prev c s found hfound
  obtain ⟨hinitial, rfl⟩ := eq_of_markRule hfound
  have hle := hinitial.length_le
  have hpos := List.length_pos_iff.mpr hne
  rw [List.length_cons] at hle
  show mark.length - 1 ≤ s.length
  omega

/-- Replacing a mark inside a line keeps texts related. -/
theorem Returned.replaceAll {new : List Char} (h : Returned s t) (hmark : Unbroken mark)
    (hne : mark ≠ []) (hnew : '\r' ∉ new) :
    Returned (replaceAll mark new s) (replaceAll mark new t) := by
  refine h.replaceMatches (markRule_bounded hne new) (.of_unbroken ?_ ?_ ?_)
  · intro prev s
    simp [startsWith, hmark.after?_eq_none hne]
  · intro prev s t h
    rw [h.startsWith_eq hmark]
  · intro prev matched s found hfound hlength _
    obtain ⟨⟨rest, hrest⟩, rfl⟩ := eq_of_markRule hfound
    have hsame : mark.length = matched.length := by
      rw [hlength]
      exact (Nat.sub_add_cancel (List.length_pos_iff.mpr hne)).symm
    obtain ⟨rfl, -⟩ := List.append_inj hrest hsame
    exact ⟨hmark, hnew⟩

end DsdlHeaders.Text

/-!
# Searching and splitting texts

Texts are handled as lists of characters. Every function here walks its text once from left to
right and recurses on the text itself.

* **`after?`** strips a mark from the front of a text.
* **`cut?`** splits a text at the *first* occurrence of a mark.
* **`splitOn`** splits at every occurrence of one character, so a text with `n` separators has
  `n + 1` parts.
* **`replaceMatches`** is the scanner behind all replacement rules: it asks a rule for a match at
  every position, replaces what the rule consumed, and goes on right after it.
-/

namespace DsdlHeaders.Text

/-! ## Marks -/

/-- What follows `mark` when the text starts with it. -/
def after? : List Char → List Char → Option (List Char)
  | [], s => some s
  | _ :: _, [] => none
  | m :: mark, c :: s => if m = c then after? mark s else none

/-- The empty mark is in front of every text. -/
theorem after?_nil (s : List Char) : after? [] s = some s := by
  rw [after?]

/-- Does the text start with `mark`? -/
def startsWith (mark s : List Char) : Bool :=
  (after? mark s).isSome

/-- The text before the first occurrence of `mark`, and the text after it. -/
def cut? (mark : List Char) : List Char → Option (List Char × List Char)
  | [] => (after? mark []).map fun rest => ([], rest)
  | c :: s =>
    match after? mark (c :: s) with
    | some rest => some ([], rest)
    | none => (cut? mark s).map fun parts => (c :: parts.1, parts.2)

/-- Does `mark` occur anywhere in the text? -/
def occurs (mark s : List Char) : Bool :=
  (cut? mark s).isSome

/-- What follows a mark is no longer than the text. -/
theorem after?_length_le {mark s rest : List Char} (h : after? mark s = some rest) :
    rest.length ≤ s.length := by
  induction mark generalizing s with
  | nil =>
    rw [after?_nil] at h
    exact Nat.le_of_eq (congrArg List.length (Option.some.inj h).symm)
  | cons m mark ih =>
    cases s with
    | nil => simp [after?] at h
    | cons c s =>
      simp only [after?] at h
      split at h
      · exact Nat.le_succ_of_le (ih h)
      · simp at h

/-- What follows a non-empty mark is shorter than the text. -/
theorem after?_length_lt {mark s rest : List Char} (h : after? mark s = some rest)
    (hmark : mark ≠ []) : rest.length < s.length := by
  cases mark with
  | nil => exact absurd rfl hmark
  | cons m mark =>
    cases s with
    | nil => simp [after?] at h
    | cons c s =>
      simp only [after?] at h
      split at h
      · exact Nat.lt_succ_of_le (after?_length_le h)
      · simp at h

/-- What follows the first occurrence of a mark is no longer than the text. -/
theorem cut?_length_le {mark s : List Char} {parts : List Char × List Char}
    (h : cut? mark s = some parts) : parts.2.length ≤ s.length := by
  induction s generalizing parts with
  | nil =>
    simp only [cut?, Option.map_eq_some_iff] at h
    obtain ⟨rest, hrest, rfl⟩ := h
    exact after?_length_le hrest
  | cons c s ih =>
    simp only [cut?] at h
    split at h
    · rename_i rest hrest
      simp only [Option.some.injEq] at h
      subst h
      exact after?_length_le hrest
    · simp only [Option.map_eq_some_iff] at h
      obtain ⟨inner, hinner, rfl⟩ := h
      have shorter := ih hinner
      exact Nat.le_succ_of_le shorter

/-! ## Separators -/

/-- The parts of a text between the occurrences of `sep`; never empty. -/
def splitOn (sep : Char) : List Char → List (List Char)
  | [] => [[]]
  | c :: s =>
    if c = sep then [] :: splitOn sep s
    else
      match splitOn sep s with
      | [] => [[c]]
      | part :: parts => (c :: part) :: parts

/-- A separator ends a part. -/
theorem splitOn_cons_self (sep : Char) (s : List Char) :
    splitOn sep (sep :: s) = [] :: splitOn sep s := by
  rw [splitOn, if_pos rfl]

/-- Puts `sep` between the parts. -/
def joinWith (sep : List Char) : List (List Char) → List Char
  | [] => []
  | [part] => part
  | part :: parts => part ++ sep ++ joinWith sep parts

/-- Splits at the *last* occurrence of `sep`. -/
def cutLast? (sep : Char) : List Char → Option (List Char × List Char)
  | [] => none
  | c :: s =>
    match cutLast? sep s with
    | some parts => some (c :: parts.1, parts.2)
    | none => if c = sep then some ([], s) else none

/-- The empty text has no separator. -/
theorem cutLast?_nil (sep : Char) : cutLast? sep [] = none := by
  rw [cutLast?]

/-- Replaces every occurrence of one character by a text. -/
def replaceChar (old : Char) (new : List Char) : List Char → List Char
  | [] => []
  | c :: s => (if c = old then new else [c]) ++ replaceChar old new s

/-- Each character is replaced on its own. -/
theorem replaceChar_cons (old c : Char) (new s : List Char) :
    replaceChar old new (c :: s) = (if c = old then new else [c]) ++ replaceChar old new s := by
  rw [replaceChar]

/-- Line feeds in a text. -/
def lineFeeds (s : List Char) : Nat :=
  s.count '\n'

/-! ## Replacing -/

/-- What a replacement rule found at one position: the text to put there, and how many characters of
the source it stands for. A match never stands for nothing. -/
structure Replacement where
  /-- The text to put in place of the match. -/
  text : List Char
  /-- How many characters the match has beyond its first one. -/
  extra : Nat

/-- Scans a text with a rule. `skip` characters belong to the last match and are passed over;
`prev` is the character before the current position. -/
def replaceMatchesFrom (rule : Option Char → List Char → Option Replacement) :
    Nat → Option Char → List Char → List Char
  | _, _, [] => []
  | skip + 1, _, c :: s => replaceMatchesFrom rule skip (some c) s
  | 0, prev, c :: s =>
    match rule prev (c :: s) with
    | some found => found.text ++ replaceMatchesFrom rule found.extra (some c) s
    | none => c :: replaceMatchesFrom rule 0 (some c) s

/-- Replaces every match of a rule, leftmost first and without overlaps. The rule sees the
character before the position it is asked about and the text from there on. -/
def replaceMatches (rule : Option Char → List Char → Option Replacement) (s : List Char) :
    List Char :=
  replaceMatchesFrom rule 0 none s

/-- Replaces every occurrence of a non-empty mark. -/
def replaceAll (mark new : List Char) (s : List Char) : List Char :=
  replaceMatches (fun _ t => if startsWith mark t then some ⟨new, mark.length - 1⟩ else none) s

end DsdlHeaders.Text

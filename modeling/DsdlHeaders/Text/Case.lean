import DsdlHeaders.Text.CaseTable

/-!
# Upper and lower case

Full case conversion of texts. Upper case maps each character on its own and may lengthen the text
(`ß` becomes `SS`). Lower case does the same, except that a capital sigma that ends a word becomes
the final form: it ends a word when, passing over case-ignorable characters, a cased character
stands before it and none stands after it.
-/

namespace DsdlHeaders.Text

/-! ## Single characters -/

/-- The counterpart of a code point in a list of runs. -/
def runTarget? (n : Nat) : List CaseRun → Option Nat
  | [] => none
  | run :: runs =>
    if run.first ≤ n && n ≤ run.last && (n - run.first) % run.step == 0 then
      some ((n : Int) + run.shift).toNat
    else runTarget? n runs

/-- Is a code point in one of the ranges? -/
def inRanges (n : Nat) (ranges : List (Nat × Nat)) : Bool :=
  ranges.any fun range => range.1 ≤ n && n ≤ range.2

/-- The upper case form of one character. -/
def upperChar (c : Char) : List Char :=
  if c.toNat < 0x80 then
    [if 'a' ≤ c && c ≤ 'z' then Char.ofNat (c.toNat - 32) else c]
  else
    match upperExpansions.lookup c.toNat with
    | some codes => codes.map Char.ofNat
    | none => [((runTarget? c.toNat upperRuns).map Char.ofNat).getD c]

/-- The lower case form of one character that stands alone. -/
def lowerChar (c : Char) : List Char :=
  if c.toNat < 0x80 then
    [if 'A' ≤ c && c ≤ 'Z' then Char.ofNat (c.toNat + 32) else c]
  else if c = '\u0130' then ['i', '\u0307']
  else [((runTarget? c.toNat lowerRuns).map Char.ofNat).getD c]

/-! ## Texts -/

/-- The upper case form of a text. -/
def upper (s : List Char) : List Char :=
  s.flatMap upperChar

/-- Is the first character that is not case-ignorable a cased one? -/
def leadsCased (s : List Char) : Bool :=
  match s.dropWhile fun c => inRanges c.toNat caseIgnorable with
  | [] => false
  | c :: _ => inRanges c.toNat cased

/-- The lower case form of a text whose already converted part is `before`, last character first. -/
def lowerFrom : (before : List Char) → List Char → List Char
  | _, [] => []
  | before, c :: s =>
    (if c = '\u03a3' then
      [if leadsCased before && !leadsCased s then '\u03c2' else '\u03c3']
    else lowerChar c) ++ lowerFrom (c :: before) s

/-- The lower case form of a text. -/
def lower (s : List Char) : List Char :=
  lowerFrom [] s

end DsdlHeaders.Text

import DsdlHeaders.Text.Blank
import DsdlHeaders.Text.Search

/-!
# Normal text

Headers are written in a canonical form, so that a regenerated header can be compared with the one
that is already there byte by byte.

* **The form**: a text is `IsNormal` when it ends in exactly one line feed, no line has blank
  characters at its right end, no two blank lines follow each other, and no blank line stands
  between an opening brace at the end of a line and an indented line.
* **The way there**: `normalize` strips the right end of every line, keeps one line of every run of
  blank lines, drops the blank line between an opening brace and an indented line, and ends the
  text with one line feed.
-/

namespace DsdlHeaders

/-! ## Lines -/

/-- The lines of a text. A line feed at the very end ends the last line and starts no new one. -/
def textLines (s : List Char) : List (List Char) :=
  let parts := Text.splitOn '\n' s
  if parts.getLast? = some [] then parts.dropLast else parts

/-- Every line followed by a line feed. -/
def unlines (lines : List (List Char)) : List Char :=
  lines.flatMap (· ++ ['\n'])

/-! ## The form -/

/-- No blank line follows a blank line. -/
def NoBlankRun : List (List Char) → Prop
  | [] => True
  | [_] => True
  | a :: b :: lines => ¬(a = [] ∧ b = []) ∧ NoBlankRun (b :: lines)

/-- No line that ends in an opening brace is followed by a blank line and an indented line. -/
def NoGapAfterBrace : List (List Char) → Prop
  | a :: b :: c :: lines =>
    ¬(a.getLast? = some '\x7b' ∧ b = [] ∧ c.head? = some ' ') ∧ NoGapAfterBrace (b :: c :: lines)
  | _ => True

/-- The canonical form of header text. -/
structure IsNormal (s : List Char) : Prop where
  ended : s.getLast? = some '\n'
  single : s = ['\n'] ∨ ¬(['\n', '\n'] <:+ s)
  stripped : ∀ line ∈ textLines s, Text.trimEnd line = line
  spaced : NoBlankRun (textLines s)
  tight : NoGapAfterBrace (textLines s)

/-! ## The way there -/

/-- Keeps one line of every run of blank lines; `afterBlank` says whether a blank line came just
before. -/
def collapseBlank : (afterBlank : Bool) → List (List Char) → List (List Char)
  | _, [] => []
  | afterBlank, line :: lines =>
    if line = [] then
      if afterBlank then collapseBlank true lines else [] :: collapseBlank true lines
    else line :: collapseBlank false lines

/-- Drops the blank line between an opening brace and an indented line. -/
def tightenBraces (s : List Char) : List Char :=
  Text.replaceAll ['\x7b', '\n', '\n', ' '] ['\x7b', '\n', ' '] s

/-- Ends a text with exactly one line feed. -/
def endOnce (s : List Char) : List Char :=
  (s.reverse.dropWhile (· = '\n')).reverse ++ ['\n']

/-- Brings a text into canonical form, as characters. -/
def normalizeChars (s : List Char) : List Char :=
  endOnce (tightenBraces (unlines (collapseBlank false ((textLines s).map Text.trimEnd))))

/-- Brings a text into canonical form. -/
def normalize (text : String) : String :=
  String.ofList (normalizeChars text.toList)

end DsdlHeaders

/-!
# Blank characters

Two notions of white space occur in this library, and they are kept apart.

* **`isBlank`** is the Unicode property *White_Space*: 25 characters. Lines of generated text are
  stripped of it at their right end, and the bodies of template markers are trimmed by it.
* **`isGap`** is the white space of the markup reader: space, tab, carriage return and line feed.

`trimStart`, `trimEnd` and `trim` remove blank characters; nothing inside a text is touched.
-/

namespace DsdlHeaders.Text

/-! ## Character classes -/

/-- The Unicode property *White_Space*. -/
def isBlank (c : Char) : Bool :=
  c == ' ' || ('\t' ≤ c && c ≤ '\r') || c == '\u0085' || c == '\u00a0' || c == '\u1680' ||
    ('\u2000' ≤ c && c ≤ '\u200a') || c == '\u2028' || c == '\u2029' || c == '\u202f' ||
    c == '\u205f' || c == '\u3000'

/-- White space between the parts of a markup tag. -/
def isGap (c : Char) : Bool :=
  c == ' ' || c == '\t' || c == '\r' || c == '\n'

/-- The two characters that indent a line. -/
def isIndent (c : Char) : Bool :=
  c == ' ' || c == '\t'

/-- ASCII digits, the only digits a number may be written with. -/
def isDigit (c : Char) : Bool :=
  '0' ≤ c && c ≤ '9'

/-- ASCII letters. -/
def isLetter (c : Char) : Bool :=
  ('a' ≤ c && c ≤ 'z') || ('A' ≤ c && c ≤ 'Z')

/-- The first character of an identifier. -/
def isNameStart (c : Char) : Bool :=
  isLetter c || c == '_'

/-- A later character of an identifier. -/
def isNamePart (c : Char) : Bool :=
  isLetter c || isDigit c || c == '_'

/-- An ASCII identifier: a letter or underscore, then letters, digits and underscores. -/
def isIdentifier : List Char → Bool
  | [] => false
  | c :: cs => isNameStart c && cs.all isNamePart

/-! ## Trimming -/

/-- Removes blank characters from the left end. -/
def trimStart (s : List Char) : List Char :=
  s.dropWhile isBlank

/-- Removes blank characters from the right end. -/
def trimEnd (s : List Char) : List Char :=
  (s.reverse.dropWhile isBlank).reverse

/-- Removes blank characters from both ends. -/
def trim (s : List Char) : List Char :=
  trimEnd (trimStart s)

end DsdlHeaders.Text

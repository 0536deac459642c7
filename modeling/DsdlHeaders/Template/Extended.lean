import DsdlHeaders.Text.Blank
import DsdlHeaders.Text.Search

/-!
# The extended template notation

Templates are written in a shorthand:

* `${expression}` substitutes the value of an expression;
* a line `% keyword arguments:` is a block tag, closed by `% endkeyword`;
* `#!` starts a comment that reaches to the end of the line;
* a backslash at the end of a line joins it with the next one.

The **primitive** notation has only two markers, `$!expression!$` and `<!--(keyword arguments)-->`,
with one generic `<!--(end)-->` for all blocks. `toPrimitive` resolves the shorthand by six rules,
one after the other, each over the whole text: `joinContinuations`, `markSubstitutions`,
`markControlLines`, `closeBlocks`, `dropComments` and `spaceBodies`.
-/

namespace DsdlHeaders.Template.Extended

open Text

/-! ## Markers -/

/-- What opens a block tag. -/
def tagOpen : List Char := ['<', '!', '-', '-', '(']

/-- What closes a block tag. -/
def tagClose : List Char := [')', '-', '-', '>']

/-- The word that every block end starts with. -/
def endWord : List Char := ['e', 'n', 'd']

/-- The keyword of a macro and the space after it. -/
def definitionWord : List Char := ['m', 'a', 'c', 'r', 'o', ' ']

/-! ## The rules -/

/-- A backslash, a line break and the next line's indentation. -/
def continuationRule (_ : Option Char) (s : List Char) : Option Replacement :=
  let joined := fun (lead : Nat) (next : List Char) =>
    some (⟨[' '], lead + (next.takeWhile isIndent).length⟩ : Replacement)
  match s with
  | '\\' :: '\n' :: next => joined 1 next
  | '\\' :: '\r' :: '\n' :: next => joined 2 next
  | _ => none

/-- Puts one space in place of every line continuation. -/
def joinContinuations (s : List Char) : List Char :=
  replaceMatches continuationRule s

/-- `${body}` with a non-empty body and no `$` just before it. -/
def substitutionRule (prev : Option Char) (s : List Char) : Option Replacement :=
  match s with
  | '$' :: '\x7b' :: rest =>
    if prev = some '$' then none
    else
      match cut? ['\x7d'] rest with
      | some ([], _) => none
      | some (body, _) => some ⟨['$', '!'] ++ body ++ ['!', '$'], body.length + 2⟩
      | none => none
  | _ => none

/-- Marks substitutions. A `$` just before the marker keeps it as it is. -/
def markSubstitutions (s : List Char) : List Char :=
  replaceMatches substitutionRule s

/-- What may follow the body of a control line: a colon, indentation and a carriage return, all of
them optional. -/
def isLineTail (s : List Char) : Bool :=
  let rest := match s with
    | ':' :: rest => rest
    | _ => s
  match rest.dropWhile isIndent with
  | [] => true
  | ['\r'] => true
  | _ => false

/-- The carriage return at the end of a line tail. -/
def lineReturn (tail : List Char) : List Char :=
  if tail.getLast? = some '\r' then ['\r'] else []

/-- The shortest body, of at least the first character, that a line tail follows, and the carriage
return of that tail. -/
def shortestBody (first : Char) : List Char → List Char × List Char
  | [] => ([first], [])
  | c :: s =>
    if isLineTail (c :: s) then ([first], lineReturn (c :: s))
    else
      let found := shortestBody c s
      (first :: found.1, found.2)

/-- The body of a control line after its `%`. Leading indentation is no part of it, unless there is
nothing else. -/
def controlBody? (s : List Char) : Option (List Char × List Char) :=
  match s.dropWhile isIndent with
  | c :: rest => some (shortestBody c rest)
  | [] => s.getLast?.map fun c => ([c], [])

/-- Marks one line, if it is a control line. -/
def markControlLine (line : List Char) : List Char :=
  match line.dropWhile isIndent with
  | '%' :: s =>
    match controlBody? s with
    | some (body, ending) =>
      line.takeWhile isIndent ++ tagOpen ++ body ++ tagClose ++ ending
    | none => line
  | _ => line

/-- Turns control lines into block tags and keeps their indentation. -/
def markControlLines (s : List Char) : List Char :=
  joinWith ['\n'] ((splitOn '\n' s).map markControlLine)

/-- Lower case ASCII letters, which name the block that an end tag closes. -/
def isBlockLetter (c : Char) : Bool :=
  'a' ≤ c && c ≤ 'z'

/-- A block end that names its block. -/
def blockEndRule (_ : Option Char) (s : List Char) : Option Replacement :=
  match after? (tagOpen ++ endWord) s with
  | none => none
  | some rest =>
    let name := rest.takeWhile isBlockLetter
    if name = [] || !startsWith tagClose (rest.dropWhile isBlockLetter) then none
    else some ⟨tagOpen ++ endWord ++ tagClose, name.length + 11⟩

/-- Puts the generic end tag in place of every block end that names its block. -/
def closeBlocks (s : List Char) : List Char :=
  replaceMatches blockEndRule s

/-- Is the character part of a line? -/
def isInLine (c : Char) : Bool :=
  c != '\r' && c != '\n'

/-- A comment together with the indentation characters before it. -/
def commentRule (_ : Option Char) (s : List Char) : Option Replacement :=
  let lead := s.takeWhile isIndent
  let rest := s.dropWhile isIndent
  if startsWith ['#', '!'] rest then
    some ⟨[], lead.length + (rest.takeWhile isInLine).length - 1⟩
  else none

/-- Removes comments. -/
def dropComments (s : List Char) : List Char :=
  replaceMatches commentRule s

/-- A parameter list, or nothing: its text and what follows it. -/
def parameterList? (s : List Char) : Option (List Char × List Char) :=
  match s with
  | '(' :: rest =>
    let isParameter := fun c => c != ')' && isInLine c
    match rest.dropWhile isParameter with
    | ')' :: after => some ('(' :: rest.takeWhile isParameter ++ [')'], after)
    | _ => none
  | _ => some ([], s)

/-- The tag that opens a macro, and what follows it. -/
def bodyOpener? (s : List Char) : Option (List Char × List Char) := do
  let rest ← after? (tagOpen ++ definitionWord) s
  let name := rest.takeWhile isNamePart
  if name = [] then none
  else
    let (parameters, rest) ← parameterList? (rest.dropWhile isNamePart)
    let rest ← after? tagClose rest
    some (tagOpen ++ definitionWord ++ name ++ parameters ++ tagClose, rest)

/-- A tag that opens a macro, with the line break after it. -/
def bodyRule (_ : Option Char) (s : List Char) : Option Replacement :=
  match bodyOpener? s with
  | none => none
  | some (tag, '\n' :: _) => some ⟨tag ++ ['\n'], tag.length⟩
  | some (tag, '\r' :: '\n' :: _) => some ⟨tag ++ ['\r', '\n'], tag.length + 1⟩
  | some (tag, _) => some ⟨tag ++ ['\n'], tag.length - 1⟩

/-- Puts a line break after every tag that opens a macro and has none. -/
def spaceBodies (s : List Char) : List Char :=
  replaceMatches bodyRule s

/-! ## All rules -/

/-- The six rules in their order. -/
def rules : List (List Char → List Char) :=
  [joinContinuations, markSubstitutions, markControlLines, closeBlocks, dropComments, spaceBodies]

/-- The texts after the first rule, the first two rules, and so on. -/
def stages : List (List Char → List Char) → List Char → List (List Char)
  | [], _ => []
  | rule :: rules, s => rule s :: stages rules (rule s)

/-- A template in primitive notation. -/
def toPrimitive (s : List Char) : List Char :=
  spaceBodies (dropComments (closeBlocks (markControlLines (markSubstitutions
    (joinContinuations s)))))

end DsdlHeaders.Template.Extended

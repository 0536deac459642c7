import DsdlHeaders.Template.Extended

/-!
# The primitive template notation

A primitive template is literal text with two kinds of markers, substitutions `$!expression!$` and
block tags `<!--(keyword arguments)-->`. It is brought into the statement notation that the
evaluator reads in two steps.

* **Segments.** `segments` cuts the text at its markers, from left to right. A block tag that is
  alone on its line takes the whole line with it, so control lines leave no blank lines behind. A
  marker that is never closed ends the list.
* **Lowering.** `lowerFrom` checks the tags in order and matches every `end` with the innermost open
  block. The result is a list of `Piece`s: each end tag has become the closer of its block.

`Piece`s are written with `render`, which also neutralises whatever the literal text holds that the
evaluator would take for a delimiter. Errors carry the line of the offending marker.
-/

namespace DsdlHeaders.Template.Primitive

open Text Extended

/-! ## Errors -/

/-- What is wrong with a marker. -/
inductive MarkerFault where
  | unterminatedSubstitution
  | emptySubstitution
  | unterminatedTag
  | badLoop
  | noCondition (keyword : String)
  | unwantedArguments (keyword : String)
  | outsideCondition (keyword : String)
  | badDefinition (arguments : String)
  | badAssignment
  | endWithoutBlock
  | unknownKeyword (keyword : String)
  | neverClosed
deriving DecidableEq, Repr

/-- The wording of a marker fault. -/
def MarkerFault.message : MarkerFault → String
  | .unterminatedSubstitution => "unterminated substitution"
  | .emptySubstitution => "empty substitution"
  | .unterminatedTag => "unterminated block tag"
  | .badLoop => "expected 'for <target> in <iterable>'"
  | .noCondition keyword => "'" ++ keyword ++ "' requires a condition"
  | .unwantedArguments keyword => "'" ++ keyword ++ "' takes no arguments"
  | .outsideCondition keyword => "'" ++ keyword ++ "' outside of an 'if' block"
  | .badDefinition arguments => "invalid macro declaration '" ++ arguments ++ "'"
  | .badAssignment => "expected 'set <name> = <expression>'"
  | .endWithoutBlock => "'end' without an open block"
  | .unknownKeyword keyword => "unknown block keyword '" ++ keyword ++ "'"
  | .neverClosed => "block is never closed"

/-- A fault and the line of the marker it concerns, counted from one. -/
structure Error where
  line : Nat
  fault : MarkerFault
deriving DecidableEq, Repr

/-- The wording of an error. -/
def Error.message (error : Error) : String :=
  "line " ++ toString error.line ++ ": " ++ error.fault.message

/-! ## Segments -/

/-- A part of a primitive template. -/
inductive Segment where
  | text (s : List Char)
  | substitution (line : Nat) (body : List Char)
  | tag (line : Nat) (content : List Char)
  /-- A marker that is never closed. -/
  | broken (line : Nat) (fault : MarkerFault)
deriving DecidableEq, Repr

/-- Characters that may surround a tag that is alone on its line. -/
def isPadding (c : Char) : Bool :=
  isIndent c || c == '\r'

/-- If nothing but padding stands before and after a tag on its line: the text before that line, and
the text after it. `pending` is the literal text before the tag in reverse order, `fresh` says
whether it starts at the beginning of a line. -/
def aloneOnLine? (fresh : Bool) (pending rest : List Char) :
    Option (List Char × List Char) :=
  let before := pending.dropWhile isPadding
  let startsLine := match before with
    | [] => fresh
    | c :: _ => c == '\n'
  match startsLine, rest.dropWhile isPadding with
  | true, [] => some (before.reverse, [])
  | true, '\n' :: next => some (before.reverse, next)
  | _, _ => none

/-- What follows a tag's line is no longer than what follows the tag. -/
theorem aloneOnLine?_length_le {fresh : Bool} {pending rest : List Char}
    {parts : List Char × List Char} (h : aloneOnLine? fresh pending rest = some parts) :
    parts.2.length ≤ rest.length := by
  unfold aloneOnLine? at h
  have shorter := (List.dropWhile_suffix (l := rest) isPadding).length_le
  simp only at h
  split at h
  · simp only [Option.some.injEq] at h; subst h; simp
  · rename_i tail
    simp only [Option.some.injEq] at h
    subst h
    have := congrArg List.length tail
    simp only [List.length_cons] at this
    simp only
    omega
  · simp at h

/-- The segments of a text. `line` is the line of its first character, `fresh` says whether the
pending literal text starts at the beginning of a line, and `pending` is that text in reverse
order. -/
def segmentsFrom (line : Nat) (fresh : Bool) (pending s : List Char) : List Segment :=
  match s with
  | [] => [.text pending.reverse]
  | c :: s =>
    match hsub : after? ['$', '!'] (c :: s) with
    | some body =>
      match hcut : cut? ['!', '$'] body with
      | none => [.broken line .unterminatedSubstitution]
      | some parts =>
        have shorter : parts.2.length < (c :: s).length := by
          have := cut?_length_le hcut
          have := after?_length_lt hsub (by simp)
          omega
        .text pending.reverse :: .substitution line parts.1 ::
          segmentsFrom (line + lineFeeds parts.1) false [] parts.2
    | none =>
      match htag : after? tagOpen (c :: s) with
      | some body =>
        match hcut : cut? tagClose body with
        | none => [.broken line .unterminatedTag]
        | some parts =>
          have shorter : parts.2.length < (c :: s).length := by
            have := cut?_length_le hcut
            have := after?_length_lt htag (by decide)
            omega
          match halone : aloneOnLine? fresh pending parts.2 with
          | some around =>
            have shorter : around.2.length < (c :: s).length :=
              Nat.lt_of_le_of_lt (aloneOnLine?_length_le halone) shorter
            .text around.1 :: .tag line parts.1 ::
              segmentsFrom (line + lineFeeds parts.1 + 1) true [] around.2
          | none =>
            .text pending.reverse :: .tag line parts.1 ::
              segmentsFrom (line + lineFeeds parts.1) false [] parts.2
      | none => segmentsFrom (line + lineFeeds [c]) fresh (c :: pending) s
termination_by s.length
decreasing_by
  · exact shorter
  · exact shorter
  · exact shorter
  · exact Nat.lt_succ_self s.length

/-- The segments of a primitive template. -/
def segments (source : List Char) : List Segment :=
  segmentsFrom 1 true [] source

/-! ## Blocks and pieces -/

/-- The kinds of block. -/
inductive Block where
  | loop
  | condition
  | definition
deriving DecidableEq, Repr

/-- The statement that closes a block. -/
def Block.closer : Block → String
  | .loop => "endfor"
  | .condition => "endif"
  | .definition => "endmacro"

/-- A part of a template in statement notation. -/
inductive Piece where
  | text (s : List Char)
  | output (expression : List Char)
  | statement (keyword : String) (arguments : List Char)
  | otherwise
  | close (block : Block)
deriving DecidableEq, Repr

/-- The signature of a definition: a name and perhaps a parameter list. -/
def signature? (arguments : List Char) : Option (List Char) :=
  let checked := fun (name parameters : List Char) =>
    if Text.isIdentifier name then some (name ++ ['('] ++ parameters ++ [')']) else none
  match cut? ['('] arguments with
  | none => checked arguments []
  | some (name, rest) =>
    if rest.getLast? = some ')' then checked (trim name) (trim rest.dropLast) else none

/-- The blocks that are open, innermost first, each with the line of its tag. -/
abbrev Open := List (Block × Nat)

/-- Is the innermost open block a condition? -/
def Open.inCondition : Open → Bool
  | (.condition, _) :: _ => true
  | _ => false

/-- Splits a trimmed tag into its keyword and its trimmed arguments. -/
def keywordOf (content : List Char) : String × List Char :=
  let isWord := fun c => !isBlank c
  (String.ofList (content.takeWhile isWord), trim (content.dropWhile isWord))

/-- The piece that a tag stands for, and the blocks that are open after it. -/
def lowerTag (blocks : Open) (line : Nat) (content : List Char) :
    Except MarkerFault (Piece × Open) :=
  let (keyword, arguments) := keywordOf (trim content)
  match keyword with
  | "for" =>
    if occurs [' ', 'i', 'n', ' '] arguments then
      .ok (.statement "for" arguments, (.loop, line) :: blocks)
    else .error .badLoop
  | "if" =>
    if arguments = [] then .error (.noCondition "if")
    else .ok (.statement "if" arguments, (.condition, line) :: blocks)
  | "elif" =>
    if arguments = [] then .error (.noCondition "elif")
    else if blocks.inCondition then .ok (.statement "elif" arguments, blocks)
    else .error (.outsideCondition "elif")
  | "else" =>
    if arguments ≠ [] then .error (.unwantedArguments "else")
    else if blocks.inCondition then .ok (.otherwise, blocks)
    else .error (.outsideCondition "else")
  | "macro" =>
    match signature? arguments with
    | some signature => .ok (.statement "macro" signature, (.definition, line) :: blocks)
    | none => .error (.badDefinition (String.ofList arguments))
  | "set" =>
    if '=' ∈ arguments then .ok (.statement "set" arguments, blocks) else .error .badAssignment
  | "end" =>
    if arguments ≠ [] then .error (.unwantedArguments "end")
    else
      match blocks with
      | [] => .error .endWithoutBlock
      | (block, _) :: outer => .ok (.close block, outer)
  | other => .error (.unknownKeyword other)

/-- The pieces that segments stand for, when `blocks` are open before them. -/
def lowerFrom (blocks : Open) : List Segment → Except Error (List Piece)
  | [] =>
    match blocks with
    | [] => .ok []
    | (_, line) :: _ => .error ⟨line, .neverClosed⟩
  | .broken line fault :: _ => .error ⟨line, fault⟩
  | .text s :: rest => (lowerFrom blocks rest).map (.text s :: ·)
  | .substitution line body :: rest =>
    if trim body = [] then .error ⟨line, .emptySubstitution⟩
    else (lowerFrom blocks rest).map (.output (trim body) :: ·)
  | .tag line content :: rest =>
    match lowerTag blocks line content with
    | .error fault => .error ⟨line, fault⟩
    | .ok (piece, inner) => (lowerFrom inner rest).map (piece :: ·)

/-- The pieces of a primitive template. -/
def lower (source : List Char) : Except Error (List Piece) :=
  lowerFrom [] (segments source)

/-! ## Writing pieces -/

/-- What stands for an opening brace that must not start a delimiter. -/
def braceOutput : List Char :=
  "\x7b\x7b \"\x7b\" \x7d\x7d".toList

/-- Would an opening brace before this text start a delimiter? At the end of the text, `followed`
says whether a delimiter comes next. -/
def startsDelimiter (followed : Bool) : List Char → Bool
  | [] => followed
  | c :: _ => c == '\x7b' || c == '%' || c == '#'

/-- Neutralises opening braces that would start a delimiter. -/
def escapeBraces (followed : Bool) : List Char → List Char
  | [] => []
  | c :: s =>
    (if c = '\x7b' && startsDelimiter followed s then braceOutput else [c]) ++
      escapeBraces followed s

/-- Literal text in statement notation. A doubled dollar sign before a brace is written once. -/
def renderText (followed : Bool) (s : List Char) : List Char :=
  escapeBraces followed (replaceAll ['$', '$', '\x7b'] ['$', '\x7b'] s)

/-- A statement between its delimiters. -/
def renderStatement (content : List Char) : List Char :=
  "\x7b% ".toList ++ content ++ " %\x7d".toList

/-- One piece in statement notation; `followed` says whether another piece comes next. -/
def Piece.render (followed : Bool) : Piece → List Char
  | .text s => renderText followed s
  | .output expression => "\x7b\x7b ".toList ++ expression ++ " \x7d\x7d".toList
  | .statement keyword arguments => renderStatement (keyword.toList ++ ' ' :: arguments)
  | .otherwise => renderStatement "else".toList
  | .close block => renderStatement block.closer.toList

/-- Pieces in statement notation. -/
def render : List Piece → List Char
  | [] => []
  | piece :: rest => piece.render (!rest.isEmpty) ++ render rest

/-- A primitive template in statement notation. -/
def lowered (source : List Char) : Except Error (List Char) :=
  (lower source).map render

end DsdlHeaders.Template.Primitive

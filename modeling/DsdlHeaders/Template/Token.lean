import DsdlHeaders.Text.Numeral
import DsdlHeaders.Text.Search

/-!
# Tokens of the statement notation

A text in statement notation is cut into **parts**: literal text, outputs between double braces and
statements between braces with percent signs. Comments, between braces with hash signs, leave
nothing behind. Outputs and statements are read as tokens.

* **Delimiters.** A part ends at the first closing delimiter that stands between two tokens outside
  all brackets, so a delimiter inside quotes closes nothing, and neither do the braces at the end of
  one map inside another. A minus sign at the inner side of a delimiter removes the blank characters
  of the literal text on its outer side.
* **Tokens.** Names are ASCII identifiers. Texts stand between single or double quotes and know the
  usual escapes, also by octal and hexadecimal digits. Integers fit 128 bits and may be written with
  base 2, 8, 10 or 16; underscores may divide digits.

`parts` returns nothing when a part is never closed or holds a character that starts no token.
-/

namespace DsdlHeaders.Template

open Text

/-! ## Tokens -/

/-- Operators and punctuation. -/
inductive Symbol where
  | plus
  | minus
  | times
  | divide
  | floorDivide
  | modulo
  | power
  | bang
  | dot
  | comma
  | colon
  | tilde
  | assign
  | pipe
  | equal
  | notEqual
  | less
  | lessEqual
  | greater
  | greaterEqual
  | parenOpen
  | parenClose
  | bracketOpen
  | bracketClose
  | braceOpen
  | braceClose
deriving DecidableEq, Repr

/-- A token inside an output or a statement. -/
inductive Token where
  | name (name : String)
  | text (value : String)
  | integer (value : Nat)
  /-- The number `digits · 10^exponent`. -/
  | decimal (digits : Nat) (exponent : Int)
  | symbol (symbol : Symbol)
deriving DecidableEq, Repr

/-- White space between tokens. -/
def isTokenGap (c : Char) : Bool :=
  c == ' ' || c == '\t' || c == '\n' || c == '\x0c' || c == '\r'

/-- The symbol of one character. -/
def Symbol.ofChar? (c : Char) : Option Symbol :=
  match c with
  | '+' => some .plus
  | '-' => some .minus
  | '*' => some .times
  | '/' => some .divide
  | '%' => some .modulo
  | '!' => some .bang
  | '.' => some .dot
  | ',' => some .comma
  | ':' => some .colon
  | '~' => some .tilde
  | '=' => some .assign
  | '|' => some .pipe
  | '<' => some .less
  | '>' => some .greater
  | '(' => some .parenOpen
  | ')' => some .parenClose
  | '[' => some .bracketOpen
  | ']' => some .bracketClose
  | '\x7b' => some .braceOpen
  | '\x7d' => some .braceClose
  | _ => none

/-- The symbol of two characters. -/
def Symbol.ofPair? (c d : Char) : Option Symbol :=
  match c, d with
  | '/', '/' => some .floorDivide
  | '*', '*' => some .power
  | '=', '=' => some .equal
  | '!', '=' => some .notEqual
  | '<', '=' => some .lessEqual
  | '>', '=' => some .greaterEqual
  | _, _ => none

/-! ## Quoted texts -/

/-- The text up to the closing quote, escapes as they are written, and what follows the quote. -/
def quotedSpan (quote : Char) : List Char → Option (List Char × List Char)
  | [] => none
  | '\\' :: c :: s => (quotedSpan quote s).map fun found => ('\\' :: c :: found.1, found.2)
  | c :: s =>
    if c = quote then some ([], s)
    else (quotedSpan quote s).map fun found => (c :: found.1, found.2)

/-- The character that a short escape stands for. -/
def shortEscape? (c : Char) : Option Char :=
  match c with
  | '"' => some '"'
  | '\\' => some '\\'
  | '/' => some '/'
  | '\'' => some '\''
  | 'b' => some '\x08'
  | 'f' => some '\x0c'
  | 'n' => some '\n'
  | 'r' => some '\r'
  | 't' => some '\t'
  | _ => none

/-- The value of a digit in bases up to sixteen. -/
def digitIn? (base : Nat) (c : Char) : Option Nat :=
  let value :=
    if isDigit c then c.toNat - 48
    else if 'a' ≤ c && c ≤ 'f' then c.toNat - 87
    else if 'A' ≤ c && c ≤ 'F' then c.toNat - 55
    else base
  if value < base then some value else none

/-- The value of a non-empty list of digits. -/
def numberIn? (base : Nat) : List Char → Option Nat
  | [] => none
  | digits => digits.foldl (fun n c => do some (base * (← n) + (← digitIn? base c))) (some 0)

/-- The sixteen bit unit of four hexadecimal digits; a plus sign may stand for the first one. -/
def unit? (a b c d : Char) : Option Nat :=
  if a = '+' then numberIn? 16 [b, c, d] else numberIn? 16 [a, b, c, d]

/-- The first half of a character that is written as two units. -/
def isHighHalf (unit : Nat) : Bool :=
  0xd800 ≤ unit && unit < 0xdc00

/-- The second half of a character that is written as two units. -/
def isLowHalf (unit : Nat) : Bool :=
  0xdc00 ≤ unit && unit < 0xe000

/-- The character of two halves. -/
def joinHalves (high low : Nat) : Char :=
  Char.ofNat (0x10000 + (high - 0xd800) * 0x400 + (low - 0xdc00))

/-- What an escape of sixteen bit units stands for, from the first digit on. A character outside the
basic plane takes two units, each with an escape of its own; no half stands alone. -/
def unitEscape? : List Char → Option (List Char × List Char)
  | a :: b :: c :: d :: s => do
    let unit ← unit? a b c d
    if isLowHalf unit then none
    else if isHighHalf unit then
      match s with
      | '\\' :: 'u' :: e :: f :: g :: h :: t => do
        let low ← unit? e f g h
        if isLowHalf low then some ([joinHalves unit low], t) else none
      | _ => none
    else some ([Char.ofNat unit], s)
  | _ => none

/-- What follows an escape of sixteen bit units is no longer than the text. -/
theorem unitEscape?_length_le {s : List Char} {found : List Char × List Char}
    (h : unitEscape? s = some found) : found.2.length ≤ s.length := by
  unfold unitEscape? at h
  split at h
  · simp only [Option.bind_eq_bind, Option.bind_eq_some_iff] at h
    obtain ⟨unit, -, h⟩ := h
    split at h
    · simp at h
    · split at h
      · -- the escape of the other half follows
        split at h
        · simp only [Option.bind_eq_some_iff, Option.ite_none_right_eq_some,
            Option.some.injEq] at h
          obtain ⟨low, -, -, rfl⟩ := h
          simp only [List.length_cons]
          omega
        · simp at h
      · obtain rfl := Option.some.inj h
        simp only [List.length_cons]
        omega
  · simp at h

/-- The value of two hexadecimal digits; a plus sign may stand for the first one. -/
def byte? (a b : Char) : Option Nat :=
  if a = '+' then numberIn? 16 [b] else numberIn? 16 [a, b]

/-- What an escape of two hexadecimal digits stands for, from the first digit on. -/
def byteEscape? : List Char → Option (List Char × List Char)
  | a :: b :: s => (byte? a b).map fun n => ([Char.ofNat n], s)
  | _ => none

/-- What follows an escape of two hexadecimal digits is no longer than the text. -/
theorem byteEscape?_length_le {s : List Char} {found : List Char × List Char}
    (h : byteEscape? s = some found) : found.2.length ≤ s.length := by
  unfold byteEscape? at h
  split at h
  · obtain ⟨n, -, rfl⟩ := Option.map_eq_some_iff.mp h
    simp only [List.length_cons]
    omega
  · simp at h

/-- What an escape of one to three octal digits stands for, from the first digit on. -/
def octalEscape? (s : List Char) : Option (List Char × List Char) := do
  let digits := (s.take 3).takeWhile fun c => (digitIn? 8 c).isSome
  let n ← numberIn? 8 digits
  if n < 256 then some ([Char.ofNat n], s.drop digits.length) else none

/-- What follows an escape of octal digits is shorter than the text: no number is without digits. -/
theorem octalEscape?_length_lt {s : List Char} {found : List Char × List Char}
    (h : octalEscape? s = some found) : found.2.length < s.length := by
  simp only [octalEscape?, Option.bind_eq_bind, Option.bind_eq_some_iff,
    Option.ite_none_right_eq_some, Option.some.injEq] at h
  obtain ⟨n, hn, -, rfl⟩ := h
  have hdigits : (s.take 3).takeWhile (fun c => (digitIn? 8 c).isSome) ≠ [] := by
    intro hnil
    rw [hnil] at hn
    exact absurd hn (by simp [numberIn?])
  have htext : s ≠ [] := by
    rintro rfl
    exact hdigits rfl
  rw [List.length_drop]
  exact Nat.sub_lt (List.length_pos_iff.mpr htext) (List.length_pos_iff.mpr hdigits)

/-- What an escape stands for, from the character after the backslash on, and what follows it. A
backslash before any other character stands for itself. -/
def escape? : List Char → Option (List Char × List Char)
  | [] => none
  | 'u' :: s => unitEscape? s
  | 'x' :: s => byteEscape? s
  | c :: s =>
    match shortEscape? c with
    | some meant => some ([meant], s)
    | none => if (digitIn? 8 c).isSome then octalEscape? (c :: s) else some (['\\', c], s)

/-- What follows an escape is shorter than the text. -/
theorem escape?_length_lt {s : List Char} {found : List Char × List Char}
    (h : escape? s = some found) : found.2.length < s.length := by
  unfold escape? at h
  split at h
  · simp at h
  · exact Nat.lt_succ_of_le (unitEscape?_length_le h)
  · exact Nat.lt_succ_of_le (byteEscape?_length_le h)
  · split at h
    · obtain rfl := Option.some.inj h
      simp
    · split at h
      · exact octalEscape?_length_lt h
      · obtain rfl := Option.some.inj h
        simp

/-- Replaces escapes. Nothing is returned when one of them means nothing. -/
def unescape (s : List Char) : Option (List Char) :=
  match s with
  | [] => some []
  | '\\' :: rest =>
    match hfound : escape? rest with
    | none => none
    | some found =>
      have : found.2.length < rest.length := escape?_length_lt hfound
      (unescape found.2).map (found.1 ++ ·)
  | c :: rest => (unescape rest).map (c :: ·)
termination_by s.length
decreasing_by
  · exact Nat.lt_succ_of_lt this
  · exact Nat.lt_succ_self rest.length

/-! ## Numbers -/

/-- Where inside a number the reader is. -/
inductive NumberPart where
  | whole
  /-- After the mark of a base other than ten. -/
  | based (base : Nat)
  | fraction
  | exponentMark
  | exponent
deriving DecidableEq, Repr

/-- Does a point before the given text belong to a number? It does not before a name, unless that
looks like an exponent. -/
def pointBelongs : (rest : List Char) → Bool
  | [] => true
  | [c] => !isNameStart c
  | c :: d :: _ =>
    if c = 'e' || c = 'E' then isDigit d || d = '+' || d = '-' else !isNameStart c

/-- Where the reader is after one more character, if it belongs to the number; `rest` is what
follows it. -/
def NumberPart.step? (part : NumberPart) (c : Char) (rest : List Char) : Option NumberPart :=
  if c = '_' then some part
  else if isDigit c then some (if part = .exponentMark then .exponent else part)
  else if c = '.' then if part = .whole && pointBelongs rest then some .fraction else none
  else
    match part with
    | .based base => if base = 16 && (digitIn? 16 c).isSome then some part else none
    | .exponentMark => if c = '+' || c = '-' then some .exponent else none
    | .exponent => none
    | .whole => if c = 'e' || c = 'E' then some .exponentMark else none
    | .fraction => if c = 'e' || c = 'E' then some .exponentMark else none

/-- The characters of a number, what follows it, and where inside the number it ended. -/
def numberSpan (part : NumberPart) : List Char → (List Char × List Char) × NumberPart
  | [] => (([], []), part)
  | c :: s =>
    match part.step? c s with
    | none => (([], c :: s), part)
    | some next =>
      let found := numberSpan next s
      ((c :: found.1.1, found.1.2), found.2)

/-- The token of a decimal number with a point or an exponent. -/
def decimalToken? (s : List Char) : Option Token :=
  if isDecimal s then
    let whole := s.takeWhile isDigit
    let rest := s.dropWhile isDigit
    let isFraction := rest.head? = some '.'
    let fraction := if isFraction then (rest.drop 1).takeWhile isDigit else []
    let tail := if isFraction then (rest.drop 1).dropWhile isDigit else rest
    let power : Int :=
      match tail with
      | [] => 0
      | _ :: '-' :: digits => -(digitsValue digits : Int)
      | _ :: '+' :: digits => digitsValue digits
      | _ :: digits => digitsValue digits
    some (.decimal (digitsValue (whole ++ fraction)) (power - fraction.length))
  else none

/-- The token of an integer in a base, if it fits 128 bits. -/
def integerToken? (base : Nat) (s : List Char) : Option Token :=
  (numberIn? base s).bind fun n => if n < wordSize 128 then some (.integer n) else none

/-- The token of a number's characters. The last of them is no underscore. -/
def numberToken? (part : NumberPart) (s : List Char) : Option Token :=
  if s.getLast? = some '_' then none
  else
    let digits := s.filter (· ≠ '_')
    match part with
    | .whole => integerToken? 10 digits
    | .based base => integerToken? base digits
    | _ => decimalToken? digits

/-- The base that a mark stands for. -/
def baseOf? (mark : Char) : Option Nat :=
  match mark with
  | 'b' => some 2
  | 'B' => some 2
  | 'o' => some 8
  | 'O' => some 8
  | 'x' => some 16
  | 'X' => some 16
  | _ => none

/-- Where a number starts, and its characters without the mark of its base. -/
def numberStart (s : List Char) : NumberPart × List Char :=
  match s with
  | '0' :: mark :: rest =>
    match baseOf? mark with
    | some base => (.based base, rest)
    | none => (.whole, s)
  | _ => (.whole, s)

/-! ## Reading tokens -/

/-- The first token of a text that starts with no gap, and what follows it. -/
def token? (s : List Char) : Option (Token × List Char) :=
  match s with
  | [] => none
  | c :: rest =>
    match rest.head?.bind (Symbol.ofPair? c), Symbol.ofChar? c with
    | some symbol, _ => some (.symbol symbol, rest.drop 1)
    | none, some symbol => some (.symbol symbol, rest)
    | none, none =>
      if c = '"' || c = '\'' then do
        let found ← quotedSpan c rest
        let value ← unescape found.1
        some (.text (String.ofList value), found.2)
      else if isDigit c then
        let start := numberStart (c :: rest)
        let found := numberSpan start.1 start.2
        (numberToken? found.2 found.1.1).map fun token => (token, found.1.2)
      else if isNameStart c then
        some (.name (String.ofList (c :: rest.takeWhile isNamePart)), rest.dropWhile isNamePart)
      else none

/-- What follows a quoted text is shorter than the text. -/
theorem quotedSpan_length_le {quote : Char} {s : List Char} {found : List Char × List Char}
    (h : quotedSpan quote s = some found) : found.2.length ≤ s.length := by
  fun_induction quotedSpan quote s generalizing found with
  | case1 => simp at h
  | case2 c s ih =>
    obtain ⟨inner, hinner, rfl⟩ := Option.map_eq_some_iff.1 h
    have := ih hinner
    simp only [List.length_cons]
    omega
  | case3 s _ =>
    simp only [Option.some.injEq] at h
    subst h
    simp
  | case4 c s _ _ ih =>
    obtain ⟨inner, hinner, rfl⟩ := Option.map_eq_some_iff.1 h
    have := ih hinner
    simp only [List.length_cons]
    omega

/-- What follows a number is no longer than the text. -/
theorem numberSpan_length_le (part : NumberPart) (s : List Char) :
    (numberSpan part s).1.2.length ≤ s.length := by
  induction s generalizing part with
  | nil => simp [numberSpan]
  | cons c s ih =>
    simp only [numberSpan]
    split
    · simp
    · exact Nat.le_succ_of_le (ih _)

/-- A number that starts with a digit takes at least that digit. -/
theorem numberSpan_digit_length_lt {c : Char} {rest : List Char} (h : isDigit c = true) :
    (numberSpan (numberStart (c :: rest)).1 (numberStart (c :: rest)).2).1.2.length <
      (c :: rest).length := by
  have plain : ∀ s : List Char, (numberSpan .whole (c :: s)).1.2.length < (c :: s).length := by
    intro s
    have step : NumberPart.step? .whole c s = some .whole := by
      simp [NumberPart.step?, h]
    simp only [numberSpan, step, List.length_cons]
    exact Nat.lt_succ_of_le (numberSpan_length_le _ s)
  unfold numberStart
  split
  · rename_i mark tail heq
    split
    · have := congrArg List.length heq
      have := numberSpan_length_le (.based ‹Nat›) tail
      simp only [List.length_cons] at *
      omega
    · exact plain _
  · exact plain _

/-- What follows a token is shorter than the text. -/
theorem token?_length_lt {s : List Char} {found : Token × List Char}
    (h : token? s = some found) : found.2.length < s.length := by
  unfold token? at h
  split at h
  · simp at h
  · rename_i c rest
    split at h
    · simp only [Option.some.injEq] at h
      subst h
      simp only [List.length_drop, List.length_cons]
      omega
    · simp only [Option.some.injEq] at h
      subst h
      simp
    · split at h
      · simp only [Option.bind_eq_bind, Option.bind_eq_some_iff] at h
        obtain ⟨span, hspan, value, _, heq⟩ := h
        simp only [Option.some.injEq] at heq
        subst heq
        exact Nat.lt_succ_of_le (quotedSpan_length_le hspan)
      · split at h
        · rename_i hdigit
          obtain ⟨token, _, rfl⟩ := Option.map_eq_some_iff.1 h
          exact numberSpan_digit_length_lt hdigit
        · split at h
          · simp only [Option.some.injEq] at h
            subst h
            exact Nat.lt_succ_of_le (List.dropWhile_suffix (l := rest) isNamePart).length_le
          · simp at h

/-! ## Parts -/

/-- The two kinds of part that hold tokens. -/
inductive Tagged where
  | output
  | statement
deriving DecidableEq, Repr

/-- What follows a closing delimiter, and whether it removes blank characters there. -/
def closing? (kind : Tagged) (s : List Char) : Option (Bool × List Char) :=
  match kind, s with
  | .output, '\x7d' :: '\x7d' :: rest => some (false, rest)
  | .output, '-' :: '\x7d' :: '\x7d' :: rest => some (true, rest)
  | .output, '+' :: '\x7d' :: '\x7d' :: rest => some (false, rest)
  | .statement, '%' :: '\x7d' :: rest => some (false, rest)
  | .statement, '-' :: '%' :: '\x7d' :: rest => some (true, rest)
  | .statement, '+' :: '%' :: '\x7d' :: rest => some (false, rest)
  | _, _ => none

/-- What follows a closing delimiter is shorter than the text. -/
theorem closing?_length_lt {kind : Tagged} {s : List Char} {found : Bool × List Char}
    (h : closing? kind s = some found) : found.2.length < s.length := by
  unfold closing? at h
  split at h
  all_goals simp only [Option.some.injEq, reduceCtorEq] at h
  all_goals subst h
  all_goals simp only [List.length_cons]
  all_goals omega

/-- How many more brackets are open after a token than before it. -/
def Token.opens : Token → Int
  | .symbol .parenOpen => 1
  | .symbol .bracketOpen => 1
  | .symbol .braceOpen => 1
  | .symbol .parenClose => -1
  | .symbol .bracketClose => -1
  | .symbol .braceClose => -1
  | _ => 0

/-- The closing delimiter that a text starts with, which closes nothing inside brackets. -/
def closingAt? (kind : Tagged) (depth : Int) (s : List Char) : Option (Bool × List Char) :=
  if depth = 0 then closing? kind s else none

/-- What follows a closing delimiter outside brackets is shorter than the text. -/
theorem closingAt?_length_lt {kind : Tagged} {depth : Int} {s : List Char}
    {found : Bool × List Char} (h : closingAt? kind depth s = some found) :
    found.2.length < s.length := by
  unfold closingAt? at h
  split at h
  · exact closing?_length_lt h
  · simp at h

/-- The tokens up to the closing delimiter, whether it removes blank characters after it, and what
follows it. `depth` is the number of brackets that are open before the text. -/
def tokensUntil (kind : Tagged) (depth : Int) (s : List Char) :
    Option (List Token × Bool × List Char) :=
  match hgap : s.dropWhile isTokenGap with
  | [] => none
  | c :: rest =>
    match closingAt? kind depth (c :: rest) with
    | some closed => some ([], closed)
    | none =>
      match hfound : token? (c :: rest) with
      | none => none
      | some found =>
        have : found.2.length < s.length := by
          have := token?_length_lt hfound
          have shorter := (List.dropWhile_suffix (l := s) isTokenGap).length_le
          rw [hgap] at shorter
          omega
        (tokensUntil kind (depth + found.1.opens) found.2).map fun later =>
          (found.1 :: later.1, later.2)
termination_by s.length

/-- What follows the closing delimiter is shorter than the text. -/
theorem tokensUntil_length_lt {kind : Tagged} {depth : Int} {s : List Char}
    {found : List Token × Bool × List Char} (h : tokensUntil kind depth s = some found) :
    found.2.2.length < s.length := by
  fun_induction tokensUntil kind depth s generalizing found with
  | case1 => simp at h
  | case2 depth s c rest hgap closed hclosed =>
    simp only [Option.some.injEq] at h
    subst h
    have := closingAt?_length_lt hclosed
    have shorter := (List.dropWhile_suffix (l := s) isTokenGap).length_le
    rw [hgap] at shorter
    simp only
    omega
  | case3 => simp at h
  | case4 depth s c rest hgap _ token htoken _ ih =>
    obtain ⟨later, hlater, rfl⟩ := Option.map_eq_some_iff.1 h
    have := ih hlater
    simp only
    omega

/-- A part of a text in statement notation. -/
inductive Part where
  | literal (s : List Char)
  | tagged (kind : Tagged) (tokens : List Token)
deriving DecidableEq, Repr

/-- What an opening delimiter starts. -/
inductive Opening where
  | tagged (kind : Tagged)
  | comment
deriving DecidableEq, Repr

/-- The opening delimiter that a text starts with, and what follows it. -/
def opening? (s : List Char) : Option (Opening × List Char) :=
  match s with
  | '\x7b' :: '\x7b' :: rest => some (.tagged .output, rest)
  | '\x7b' :: '%' :: rest => some (.tagged .statement, rest)
  | '\x7b' :: '#' :: rest => some (.comment, rest)
  | _ => none

/-- The sign at the inner side of an opening delimiter: whether blank characters before it are
removed, and what follows it. -/
def openingSign (s : List Char) : Bool × List Char :=
  match s with
  | '-' :: rest => (true, rest)
  | '+' :: rest => (false, rest)
  | _ => (false, s)

/-- What follows a comment, from its opening delimiter on, and whether blank characters after it are
removed. One minus sign that is all of a comment stands at both of its inner sides. -/
def commentEnd? (s : List Char) : Option (Bool × List Char) :=
  (cut? ['#', '\x7d'] s).map fun parts => (parts.1.getLast? = some '-', parts.2)

/-- Literal text before a delimiter; blank characters at its end are removed on demand. -/
def literalPart (trimmed : Bool) (pending : List Char) : List Part :=
  let kept := (if trimmed then pending.dropWhile isBlank else pending).reverse
  if kept = [] then [] else [.literal kept]

/-- Text after a delimiter; blank characters at its start are removed on demand. -/
def resume (trimmed : Bool) (s : List Char) : List Char :=
  if trimmed then trimStart s else s

/-- What follows an opening delimiter is shorter than the text. -/
theorem opening?_length_lt {s : List Char} {found : Opening × List Char}
    (h : opening? s = some found) : found.2.length < s.length := by
  unfold opening? at h
  split at h
  all_goals simp only [Option.some.injEq, reduceCtorEq] at h
  all_goals subst h
  all_goals simp only [List.length_cons]
  all_goals omega

/-- A sign takes nothing but itself. -/
theorem openingSign_length_le (s : List Char) : (openingSign s).2.length ≤ s.length := by
  unfold openingSign
  split <;> simp

/-- Resuming adds nothing. -/
theorem resume_length_le (trimmed : Bool) (s : List Char) :
    (resume trimmed s).length ≤ s.length := by
  unfold resume trimStart
  split
  · exact (List.dropWhile_suffix isBlank).length_le
  · exact Nat.le_refl _

/-- What follows a comment is no longer than the text. -/
theorem commentEnd?_length_le {s : List Char} {found : Bool × List Char}
    (h : commentEnd? s = some found) : found.2.length ≤ s.length := by
  obtain ⟨parts, hparts, rfl⟩ := Option.map_eq_some_iff.1 h
  exact cut?_length_le hparts

/-- The parts of a text; `pending` is the literal text before it, in reverse order. -/
def partsFrom (pending s : List Char) : Option (List Part) :=
  match s with
  | [] => some (literalPart false pending)
  | c :: rest =>
    match hopen : opening? (c :: rest) with
    | none => partsFrom (c :: pending) rest
    | some (.comment, inner) =>
      match hend : commentEnd? inner with
      | none => none
      | some (trimmed, after) =>
        have shorter : (resume trimmed after).length < (c :: rest).length := by
          have h1 := opening?_length_lt hopen
          have h3 := commentEnd?_length_le hend
          have h4 := resume_length_le trimmed after
          simp only at h1 h3
          omega
        (partsFrom [] (resume trimmed after)).map
          (literalPart (openingSign inner).1 pending ++ ·)
    | some (.tagged kind, inner) =>
      match htokens : tokensUntil kind 0 (openingSign inner).2 with
      | none => none
      | some (tokens, trimmed, after) =>
        have shorter : (resume trimmed after).length < (c :: rest).length := by
          have h1 := opening?_length_lt hopen
          have h2 := openingSign_length_le inner
          have h3 := tokensUntil_length_lt htokens
          have h4 := resume_length_le trimmed after
          simp only at h1 h3
          omega
        (partsFrom [] (resume trimmed after)).map
          (literalPart (openingSign inner).1 pending ++ .tagged kind tokens :: ·)
termination_by s.length
decreasing_by
  · exact Nat.lt_succ_self rest.length
  · exact shorter
  · exact shorter

/-- The parts of a text in statement notation. -/
def parts (source : List Char) : Option (List Part) :=
  partsFrom [] source

end DsdlHeaders.Template

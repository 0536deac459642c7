import DsdlHeaders.Template.Token
import DsdlHeaders.Template.Tree

/-!
# Reading expressions

Expressions are read from tokens by levels, the loosest first:

1. `a if c else b`,
2. `or`,
3. `and`,
4. `not`,
5. comparisons, `in` and `not in`,
6. `+` and `-`,
7. `~`,
8. `*`, `/`, `//` and `%`,
9. `**`,
10. a sign, members, items, slices and calls, then filters and tests.

All binary operators group to the left, except that comparisons that follow each other form one
chain. A sign binds tighter than the member access after it, so `-x.y` is the member `y` of `-x`.

Each level is a function of the level below it, and every loop takes at least one token in every
round, so the number of tokens bounds the rounds. Only brackets and argument lists lead back to the
first level, and each of them takes a token too, so the same number bounds how often that happens.

How deep expressions nest is limited by a **budget**. A whole expression takes one unit of it while
it is read, and so does everything without operators; the value of a keyword argument takes none.
-/

namespace DsdlHeaders.Template

/-- Reads something from the front of a list of tokens and returns what is left of it. -/
abbrev Reader (α : Type) := List Token → Option (α × List Token)

namespace Reader

/-! ## Single tokens -/

/-- Passes over one symbol. -/
def skip (symbol : Symbol) : List Token → Option (List Token)
  | .symbol s :: rest => if s = symbol then some rest else none
  | _ => none

/-- Passes over one given word. -/
def skipWord (word : String) : List Token → Option (List Token)
  | .name w :: rest => if w = word then some rest else none
  | _ => none

/-- Does a symbol come next? -/
def isAt (symbol : Symbol) (tokens : List Token) : Bool :=
  (skip symbol tokens).isSome

/-- Reads a name. -/
def anyName : Reader String
  | .name w :: rest => some (w, rest)
  | _ => none

/-! ## Binary operators -/

/-- An operator with its meaning. -/
abbrev Joiner := List Token → Option ((Expr → Expr → Expr) × List Token)

/-- Joins operands to the left, for at most the given number of rounds. -/
def joinLeft (joiner : Joiner) (operand : Reader Expr) : Nat → Expr → Reader Expr
  | 0, left, tokens => some (left, tokens)
  | rounds + 1, left, tokens =>
    match joiner tokens with
    | none => some (left, tokens)
    | some (join, rest) => do
      let (right, rest) ← operand rest
      joinLeft joiner operand rounds (join left right) rest

/-- Operands with operators of one level between them. -/
def level (joiner : Joiner) (operand : Reader Expr) : Reader Expr := fun tokens => do
  let (left, rest) ← operand tokens
  joinLeft joiner operand rest.length left rest

/-- A joiner from a table of symbols. -/
def symbolJoiner (meaning : Symbol → Option BinaryOp) : Joiner
  | .symbol s :: rest => (meaning s).map fun op => (.binary op, rest)
  | _ => none

/-- The word `or`. -/
def orJoiner : Joiner := fun tokens =>
  (skipWord "or" tokens).map fun rest => (.or, rest)

/-- The word `and`. -/
def andJoiner : Joiner := fun tokens =>
  (skipWord "and" tokens).map fun rest => (.and, rest)

/-- The comparison of a sign. -/
def comparison? : Symbol → Option Comparison
  | .equal => some .equal
  | .notEqual => some .notEqual
  | .less => some .less
  | .lessEqual => some .lessEqual
  | .greater => some .greater
  | .greaterEqual => some .greaterEqual
  | _ => none

/-- A comparison or a question of membership. -/
def comparisonSign : Reader Comparison
  | .symbol s :: rest => (comparison? s).map fun sign => (sign, rest)
  | .name w :: rest =>
    if w = "in" then some (.isIn, rest)
    else if w = "not" then (skipWord "in" rest).map fun rest => (.notIn, rest)
    else none
  | _ => none

/-- The further links of a chain, for at most the given number of rounds. -/
def chainLinks (operand : Reader Expr) : (rounds : Nat) → Reader (List (Comparison × Expr))
  | 0, tokens => some ([], tokens)
  | rounds + 1, tokens =>
    match comparisonSign tokens with
    | none => some ([], tokens)
    | some (sign, rest) => do
      let (right, rest) ← operand rest
      let (later, rest) ← chainLinks operand rounds rest
      some ((sign, right) :: later, rest)

/-- An operand, or a chain of comparisons between operands. -/
def comparisons (operand : Reader Expr) : Reader Expr := fun tokens => do
  let (first, rest) ← operand tokens
  let (links, rest) ← chainLinks operand rest.length rest
  match links with
  | [] => some (first, rest)
  | _ => some (.compare first (links.map (·.1)) (links.map (·.2)), rest)

/-- Sums and differences. -/
def sum? : Symbol → Option BinaryOp
  | .plus => some .add
  | .minus => some .subtract
  | _ => none

/-- The sign that joins texts. -/
def concat? : Symbol → Option BinaryOp
  | .tilde => some .concat
  | _ => none

/-- Products and quotients. -/
def product? : Symbol → Option BinaryOp
  | .times => some .multiply
  | .divide => some .divide
  | .floorDivide => some .floorDivide
  | .modulo => some .modulo
  | _ => none

/-- Powers. -/
def power? : Symbol → Option BinaryOp
  | .power => some .power
  | _ => none

/-- Any number of words `not` before an operand. -/
def negations (operand : Reader Expr) : Reader Expr
  | .name w :: rest =>
    if w = "not" then (negations operand rest).map fun found => (.not found.1, found.2)
    else operand (.name w :: rest)
  | tokens => operand tokens

/-- Any number of minus signs before an operand. -/
def signs (operand : Reader Expr) : Reader Expr
  | .symbol s :: rest =>
    if s = .minus then (signs operand rest).map fun found => (.negate found.1, found.2)
    else operand (.symbol s :: rest)
  | tokens => operand tokens

/-! ## Lists and argument lists -/

/-- Further items up to a closing symbol, each after a comma; a comma may follow the last one. -/
def itemsAfter (close : Symbol) (item : Reader α) : (rounds : Nat) → Reader (List α)
  | 0, _ => none
  | rounds + 1, tokens =>
    match skip close tokens with
    | some rest => some ([], rest)
    | none => do
      let tokens ← skip .comma tokens
      match skip close tokens with
      | some rest => some ([], rest)
      | none =>
        let (head, rest) ← item tokens
        let (tail, rest) ← itemsAfter close item rounds rest
        some (head :: tail, rest)

/-- All items up to a closing symbol. -/
def items (close : Symbol) (item : Reader α) : Reader (List α) := fun tokens =>
  match skip close tokens with
  | some rest => some ([], rest)
  | none => do
    let (head, rest) ← item tokens
    let (tail, rest) ← itemsAfter close item (rest.length + 1) rest
    some (head :: tail, rest)

/-- An argument. -/
inductive Argument where
  /-- A value, or several of them. -/
  | positional (value : Expr)
  /-- A value with its keyword, or several of them. -/
  | keyword (name : Option String) (value : Expr)
deriving Repr

/-- An argument. A plain name before an equals sign is a keyword; one star spreads the items of a
value, two stars spread a map of keyword arguments. -/
def argument (value keywordValue : Reader Expr) : Reader Argument := fun tokens =>
  match skip .times tokens, skip .power tokens with
  | some rest, _ => (value rest).map fun found => (.positional (.spread found.1), found.2)
  | none, some rest => (value rest).map fun found => (.keyword none found.1, found.2)
  | none, none => do
    let (found, rest) ← value tokens
    match found, skip .assign rest with
    | .name w, some rest =>
      (keywordValue rest).map fun later => (.keyword (some w) later.1, later.2)
    | _, _ => some (.positional found, rest)

/-- May an argument follow a keyword argument? -/
def Argument.mayFollowKeyword : Argument → Bool
  | .positional (.spread _) => true
  | .positional _ => false
  | .keyword _ _ => true

/-- Does no plain value follow a keyword argument? -/
def keywordsLast : List Argument → Bool
  | [] => true
  | .positional _ :: rest => keywordsLast rest
  | .keyword _ _ :: rest => rest.all Argument.mayFollowKeyword

/-- Arguments after an opening parenthesis. -/
def arguments (value keywordValue : Reader Expr) : Reader (List Argument) := fun tokens => do
  let (found, rest) ← items .parenClose (argument value keywordValue) tokens
  if keywordsLast found && found.length ≤ 2000 then some (found, rest) else none

/-- The values of the arguments without keyword. -/
def positional (found : List Argument) : List Expr :=
  found.filterMap fun a => match a with
    | .positional value => some value
    | .keyword _ _ => none

/-- The keywords of the other arguments. -/
def keywords (found : List Argument) : List (Option String) :=
  found.filterMap fun a => match a with
    | .positional _ => none
    | .keyword name _ => some name

/-- The values of the other arguments. -/
def keywordValues (found : List Argument) : List Expr :=
  found.filterMap fun a => match a with
    | .positional _ => none
    | .keyword _ value => some value

/-! ## Simple expressions -/

/-- The texts that follow one another at the front of a list of tokens, joined. -/
def adjacentTexts : List Token → String × List Token
  | .text s :: rest =>
    let later := adjacentTexts rest
    (s ++ later.1, later.2)
  | tokens => ("", tokens)

/-- What a word means as an expression. -/
def wordMeaning (word : String) : Expr :=
  if word = "true" || word = "True" then .boolean true
  else if word = "false" || word = "False" then .boolean false
  else if word = "none" || word = "None" then .nothing
  else .name word

/-- A key with its value. -/
def entry (nested : Reader Expr) : Reader (Expr × Expr) := fun tokens => do
  let (key, rest) ← nested tokens
  let rest ← skip .colon rest
  let (value, rest) ← nested rest
  some ((key, value), rest)

/-- What stands between parentheses: an expression, or a list when there is a comma or nothing. -/
def parenthesised (nested : Reader Expr) : Reader Expr := fun tokens =>
  match skip .parenClose tokens with
  | some rest => some (.list [], rest)
  | none => do
    let (head, rest) ← nested tokens
    match skip .parenClose rest with
    | some rest => some (head, rest)
    | none =>
      let (tail, rest) ← itemsAfter .parenClose nested (rest.length + 1) rest
      some (.list (head :: tail), rest)

/-- An expression without operators. -/
def primary (nested : Reader Expr) : Reader Expr
  | .name w :: rest => some (wordMeaning w, rest)
  | .text s :: rest =>
    let later := adjacentTexts rest
    some (.text (s ++ later.1), later.2)
  | .integer n :: rest => some (.integer n, rest)
  | .decimal digits exponent :: rest => some (.decimal digits exponent, rest)
  | .symbol .parenOpen :: rest => parenthesised nested rest
  | .symbol .bracketOpen :: rest =>
    (items .bracketClose nested rest).map fun found => (.list found.1, found.2)
  | .symbol .braceOpen :: rest =>
    (items .braceClose (entry nested) rest).map fun found =>
      (.map (found.1.flatMap fun e => [e.1, e.2]), found.2)
  | _ => none

/-! ## Access, calls, filters and tests -/

/-- An expression, or `none` when one of the given symbols comes next. -/
def optionalPart (value : Reader Expr) (ends : List Symbol) : Reader Expr := fun tokens =>
  if ends.any (isAt · tokens) then some (.nothing, tokens) else value tokens

/-- What follows an opening bracket: a key, or the parts of a slice. -/
def subscript (value : Reader Expr) (object : Expr) : Reader Expr := fun tokens => do
  let (start, rest) ← optionalPart value [.colon] tokens
  match skip .colon rest with
  | none => do
    let rest ← skip .bracketClose rest
    some (.item object start, rest)
  | some rest => do
    let (stop, rest) ← optionalPart value [.bracketClose, .colon] rest
    let (step, rest) ←
      match skip .colon rest with
      | some rest => optionalPart value [.bracketClose] rest
      | none => some (.nothing, rest)
    let rest ← skip .bracketClose rest
    some (.slice object start stop step, rest)

/-- Members, items, slices and calls after an expression. A number in place of a member's name is
the key of an item. -/
def accesses (value keywordValue : Reader Expr) : Nat → Expr → Reader Expr
  | 0, found, tokens => some (found, tokens)
  | rounds + 1, found, tokens =>
    match tokens with
    | .symbol .dot :: .integer n :: rest =>
      accesses value keywordValue rounds (.item found (.integer n)) rest
    | .symbol .dot :: rest => do
      let (member, rest) ← anyName rest
      accesses value keywordValue rounds (.member found member) rest
    | .symbol .bracketOpen :: rest => do
      let (next, rest) ← subscript value found rest
      accesses value keywordValue rounds next rest
    | .symbol .parenOpen :: rest => do
      let (given, rest) ← arguments value keywordValue rest
      accesses value keywordValue rounds
        (.call found (positional given) (keywords given) (keywordValues given)) rest
    | _ => some (found, tokens)

/-- A primary expression with its signs and accesses. -/
def operand (nested value keywordValue : Reader Expr) : Reader Expr := fun tokens => do
  let (found, rest) ← signs (primary nested) tokens
  accesses value keywordValue rest.length found rest

/-- May the token start the argument of a test that has no parentheses? -/
def startsTestArgument : Token → Bool
  | .name w => !(w = "and" || w = "or" || w = "else" || w = "is")
  | .text _ => true
  | .integer _ => true
  | .decimal _ _ => true
  | .symbol s => s = .plus || s = .minus || s = .bracketOpen || s = .braceOpen

/-- Further names after points, joined to the name before them. -/
def dottedFrom : (rounds : Nat) → (sofar : String) → Reader String
  | 0, sofar, tokens => some (sofar, tokens)
  | rounds + 1, sofar, tokens =>
    match skip .dot tokens with
    | none => some (sofar, tokens)
    | some rest => do
      let (name, rest) ← anyName rest
      dottedFrom rounds (sofar ++ "." ++ name) rest

/-- The name of a filter or test, which may have points in it. -/
def dottedName : Reader String := fun tokens => do
  let (name, rest) ← anyName tokens
  dottedFrom rest.length name rest

/-- The arguments of a test. -/
def testArguments (operand : Reader Expr) (value keywordValue : Reader Expr) :
    Reader (List Argument)
  | .symbol .parenOpen :: rest => arguments value keywordValue rest
  | token :: rest =>
    if startsTestArgument token then
      (operand (token :: rest)).map fun found => ([.positional found.1], found.2)
    else some ([], token :: rest)
  | [] => some ([], [])

/-- The arguments of a filter. -/
def filterArguments (value keywordValue : Reader Expr) : Reader (List Argument)
  | .symbol .parenOpen :: rest => arguments value keywordValue rest
  | tokens => some ([], tokens)

/-- Filters and tests after an expression. -/
def filters (operand : Reader Expr) (value keywordValue : Reader Expr) :
    Nat → Expr → Reader Expr
  | 0, found, tokens => some (found, tokens)
  | rounds + 1, found, tokens =>
    match tokens with
    | .symbol .pipe :: rest => do
      let (filter, rest) ← dottedName rest
      let (given, rest) ← filterArguments value keywordValue rest
      filters operand value keywordValue rounds
        (.filter filter found (positional given) (keywords given) (keywordValues given)) rest
    | .name w :: rest =>
      if w = "is" then do
        let negated := (skipWord "not" rest).isSome
        let (test, rest) ← dottedName (if negated then rest.drop 1 else rest)
        let (given, rest) ← testArguments operand value keywordValue rest
        let tested :=
          Expr.test test found (positional given) (keywords given) (keywordValues given)
        filters operand value keywordValue rounds (if negated then .not tested else tested) rest
      else some (found, tokens)
    | _ => some (found, tokens)

/-- What an expression is read with, at one level of nesting. -/
structure Level where
  /-- Reads what stands between brackets. -/
  nested : Reader Expr
  /-- Reads an argument or a key. -/
  value : Reader Expr
  /-- Reads the value of a keyword argument. -/
  keywordValue : Reader Expr

/-- An operand with its filters and tests. -/
def filtered (level : Level) : Reader Expr := fun tokens => do
  let whole := operand level.nested level.value level.keywordValue
  let (found, rest) ← whole tokens
  filters whole level.value level.keywordValue rest.length found rest

/-! ## Whole expressions -/

/-- Everything from `or` on. -/
def operators (inner : Level) : Reader Expr :=
  level orJoiner <| level andJoiner <| negations <| comparisons <|
    level (symbolJoiner sum?) <| level (symbolJoiner concat?) <| level (symbolJoiner product?) <|
    level (symbolJoiner power?) <| filtered inner

/-- Conditions after an expression; `alternative` reads what follows `else`. -/
def conditions (simple alternative : Reader Expr) : Nat → Expr → Reader Expr
  | 0, found, tokens => some (found, tokens)
  | rounds + 1, found, tokens =>
    match skipWord "if" tokens with
    | none => some (found, tokens)
    | some rest => do
      let (condition, rest) ← simple rest
      match skipWord "else" rest with
      | none => conditions simple alternative rounds (.choose condition found .absent) rest
      | some rest => do
        let (other, rest) ← alternative rest
        conditions simple alternative rounds (.choose condition found other) rest

/-- An expression with conditions, of at most the given number of alternatives. -/
def conditionalFor (simple : Reader Expr) : Nat → Reader Expr
  | 0, _ => none
  | rounds + 1, tokens => do
    let (found, rest) ← simple tokens
    conditions simple (conditionalFor simple rounds) rest.length found rest

/-- An expression with conditions. -/
def conditional (simple : Reader Expr) : Reader Expr := fun tokens =>
  conditionalFor simple (tokens.length + 1) tokens

/-- A whole expression, given how one without a condition is read within a budget. -/
def wholeWith (simple : Nat → Reader Expr) : (budget : Nat) → Reader Expr
  | 0 => fun _ => none
  | budget + 1 => conditional (simple budget)

/-- An expression without a condition at its first level, within a budget. Brackets and argument
lists lead back here at most `rounds` times. -/
def disjunctionFor : (rounds : Nat) → (budget : Nat) → Reader Expr
  | 0, _ => fun _ => none
  | _ + 1, 0 => fun _ => none
  | rounds + 1, budget + 1 =>
    operators {
      nested := wholeWith (disjunctionFor rounds) budget
      value := wholeWith (disjunctionFor rounds) (budget + 1)
      keywordValue := disjunctionFor rounds (budget + 1) }

/-- An expression without a condition at its first level, within a budget. -/
def disjunction (budget : Nat) : Reader Expr := fun tokens =>
  disjunctionFor (tokens.length + 1) budget tokens

/-- An expression within a budget. -/
def expression (budget : Nat) : Reader Expr :=
  wholeWith disjunction budget

end Reader

end DsdlHeaders.Template

import DsdlHeaders.Text.Blank

/-!
# Numbers written in decimal

Readers for the numbers that occur in documents and templates. All of them read the whole text or
nothing, take ASCII digits only, allow any number of leading zeros and compute the exact value
before any range is checked, so nothing ever wraps.

* **`unsigned?`** reads an optional `+` and digits, below a bound.
* **`signed?`** reads an optional `+` or `-` and digits, in a two's complement range.
* **`isFloating`** decides whether a text is a floating point literal.
-/

namespace DsdlHeaders.Text

/-- How many values a word of `bits` bits has. -/
def wordSize (bits : Nat) : Nat :=
  Nat.pow 2 bits

/-- The value of one digit. -/
def digitValue (c : Char) : Nat :=
  c.toNat - '0'.toNat

/-- The value of a list of digits, read from the left. -/
def digitsValue (s : List Char) : Nat :=
  s.foldl (fun n c => 10 * n + digitValue c) 0

/-- One or more digits and nothing else. -/
def natural? (s : List Char) : Option Nat :=
  if s.isEmpty || !s.all isDigit then none else some (digitsValue s)

/-- An optional `+` and one or more digits, with a value below `bound`. -/
def unsigned? (bound : Nat) (s : List Char) : Option Nat :=
  let digits := match s with
    | '+' :: rest => rest
    | _ => s
  (natural? digits).bind fun n => if n < bound then some n else none

/-- An optional sign and one or more digits, with a value in `-half .. half - 1`. -/
def signed? (half : Nat) (s : List Char) : Option Int :=
  match s with
  | '-' :: rest => (natural? rest).bind fun n => if n ≤ half then some (-(n : Int)) else none
  | '+' :: rest => (natural? rest).bind fun n => if n < half then some (n : Int) else none
  | _ => (natural? s).bind fun n => if n < half then some (n : Int) else none

/-! ## Floating point literals -/

/-- Drops one leading sign. -/
def dropSign : List Char → List Char
  | '+' :: rest => rest
  | '-' :: rest => rest
  | s => s

/-- An exponent part, or nothing at all. -/
def isExponent : List Char → Bool
  | [] => true
  | c :: rest =>
    (c == 'e' || c == 'E') && !(dropSign rest).isEmpty && (dropSign rest).all isDigit

/-- Digits with an optional point, at least one digit in all, and an optional exponent. -/
def isDecimal (s : List Char) : Bool :=
  let whole := s.takeWhile isDigit
  match s.dropWhile isDigit with
  | '.' :: rest =>
    (!whole.isEmpty || !(rest.takeWhile isDigit).isEmpty) && isExponent (rest.dropWhile isDigit)
  | rest => !whole.isEmpty && isExponent rest

/-- Lower case for ASCII letters. -/
def asciiLower (c : Char) : Char :=
  if 'A' ≤ c && c ≤ 'Z' then Char.ofNat (c.toNat + 32) else c

/-- A floating point literal: an optional sign, then a decimal number or one of the names of
infinity and not-a-number in any case. -/
def isFloating (s : List Char) : Bool :=
  let body := dropSign s
  let name := body.map asciiLower
  name == ['i', 'n', 'f'] || name == ['i', 'n', 'f', 'i', 'n', 'i', 't', 'y'] ||
    name == ['n', 'a', 'n'] || isDecimal body

end DsdlHeaders.Text

import DsdlHeaders.Text.Numeral

/-!
# The shortest decimal of a binary floating point number

A finite double is `m · 2^q`. All reals that round to it form an interval around it, whose ends
belong to it exactly when `m` is even. Among the decimals with one digit, then two, and so on, the
first grid that meets the interval gives the digits; of two hits the nearer one is taken. All of it
is exact arithmetic on natural numbers.

* **`decode`** reads sign, `m` and `q` off the bits.
* **`shortest`** finds the digits and the decimal exponent.
* **`plain`** writes a number positionally, always with a point.
* **`general`** does the same, but switches to an exponent for very large and very small numbers.
-/

namespace DsdlHeaders.Text.Shortest

/-! ## Binary numbers -/

/-- A finite double as sign, significand and binary exponent. -/
structure Binary where
  /-- Is the sign bit set? -/
  negative : Bool
  /-- The integral significand. -/
  significand : Nat
  /-- The exponent of two. -/
  exponent : Int
  /-- Does the lower neighbour lie at half the distance of the upper one? -/
  narrowBelow : Bool

/-- What the bits of a double stand for. -/
inductive Decoded where
  | nan
  | infinite (negative : Bool)
  | finite (value : Binary)

/-- Reads the bits of a double. -/
def decode (x : Float) : Decoded :=
  let bits : Nat := x.toBits.toNat
  let negative := bits / wordSize 63 == 1
  let biased : Nat := bits / wordSize 52 % 2048
  let fraction : Nat := bits % wordSize 52
  if biased == 2047 then
    if fraction == 0 then .infinite negative else .nan
  else if biased == 0 then
    .finite ⟨negative, fraction, -1074, false⟩
  else
    .finite ⟨negative, wordSize 52 + fraction, (biased : Int) - 1075, fraction == 0 && 1 < biased⟩

/-! ## Decimal digits -/

/-- The least `j` with `den ≤ num · 10^j`, searched upwards from `start`. -/
def leastScale (num den : Nat) : (fuel start : Nat) → Nat
  | 0, start => start
  | fuel + 1, start =>
    if den ≤ num * Nat.pow 10 start then start else leastScale num den fuel (start + 1)

/-- The exponent of the leading decimal digit of `num / den`. -/
def leadingExponent (num den : Nat) : Int :=
  if den ≤ num then ((Nat.toDigits 10 (num / den)).length : Int) - 1
  else -(leastScale num den 400 1 : Int)

/-- A decimal number `digits · 10^exponent`. -/
structure Decimal where
  /-- The significant digits, as one number. -/
  digits : Nat
  /-- The exponent of ten. -/
  exponent : Int

/-- The decimal on the grid of `count` digits that lies in the interval of the number and is
nearest to it, if there is one. The number is `num / den`; `below` and `above` are the distances
to the ends of its interval, in units of `1 / den`. -/
def onGrid (num den below above : Nat) (closed : Bool) (count : Nat) : Option Decimal :=
  let grid : Int := leadingExponent num den - (count : Int) + 1
  let up := Nat.pow 10 grid.toNat
  let down := Nat.pow 10 (-grid).toNat
  -- All quantities are now in units of 1 / (den · down).
  let value := num * down
  let unit := up * den
  let floor := value / unit
  let fits (d : Nat) : Bool :=
    let here := d * unit
    let low := value - below * down
    let high := value + above * down
    if closed then low ≤ here && here ≤ high else low < here && here < high
  let lowFits := 0 < floor && fits floor
  let highFits := fits (floor + 1)
  if lowFits && highFits then
    let toLow := value - floor * unit
    let toHigh := (floor + 1) * unit - value
    some ⟨if toLow < toHigh || (toLow == toHigh && floor % 2 == 0) then floor else floor + 1, grid⟩
  else if lowFits then some ⟨floor, grid⟩
  else if highFits then some ⟨floor + 1, grid⟩
  else none

/-- The first grid with a hit, from `count` digits on. -/
def searchGrid (num den below above : Nat) (closed : Bool) : (fuel count : Nat) → Decimal
  | 0, _ => ⟨0, 0⟩
  | fuel + 1, count =>
    match onGrid num den below above closed count with
    | some found => found
    | none => searchGrid num den below above closed fuel (count + 1)

/-- Drops trailing zeros of the digits. -/
def Decimal.stripped : (fuel : Nat) → Decimal → Decimal
  | 0, d => d
  | fuel + 1, d =>
    if d.digits != 0 && d.digits % 10 == 0 then
      Decimal.stripped fuel ⟨d.digits / 10, d.exponent + 1⟩
    else d

/-- The shortest decimal that reads back as the number. -/
def shortest (b : Binary) : Decimal :=
  if b.significand == 0 then ⟨0, 0⟩
  else
    -- Quarters of the unit in the last place make both half gaps integral.
    let q := b.exponent - 2
    let scale := Nat.pow 2 q.toNat
    let den := Nat.pow 2 (-q).toNat
    let num := 4 * b.significand * scale
    let below := (if b.narrowBelow then 1 else 2) * scale
    let above := 2 * scale
    (searchGrid num den below above (b.significand % 2 == 0) 17 1).stripped 20

/-! ## Writing -/

/-- Writes a decimal positionally, with at least one digit on each side of the point. -/
def Decimal.positional (d : Decimal) : List Char :=
  let digits := Nat.toDigits 10 d.digits
  if 0 ≤ d.exponent then
    digits ++ List.replicate d.exponent.toNat '0' ++ ['.', '0']
  else
    let places := (-d.exponent).toNat
    let padded := List.replicate (places + 1 - digits.length) '0' ++ digits
    padded.take (padded.length - places) ++ ['.'] ++ padded.drop (padded.length - places)

/-- Writes a decimal with an exponent, one digit before the point and no trailing `.0`. -/
def Decimal.scientific (d : Decimal) : List Char :=
  let digits := Nat.toDigits 10 d.digits
  let power := d.exponent + (digits.length : Int) - 1
  let mantissa := match digits with
    | [] => []
    | [lead] => [lead]
    | lead :: rest => lead :: '.' :: rest
  mantissa ++ ['e'] ++ (toString power).toList

/-- The sign of a number as text. -/
def signText (negative : Bool) : List Char :=
  if negative then ['-'] else []

/-- A number written positionally, always with a point. -/
def plain (x : Float) : String :=
  match decode x with
  | .nan => "NaN"
  | .infinite negative => String.ofList (signText negative ++ ['i', 'n', 'f'])
  | .finite b => String.ofList (signText b.negative ++ (shortest b).positional)

/-- A number written positionally from `10^-4` up to below `10^16`, and with an exponent outside
that range. -/
def general (x : Float) : String :=
  match decode x with
  | .nan => "NaN"
  | .infinite negative => String.ofList (signText negative ++ ['i', 'n', 'f'])
  | .finite b =>
    let d := shortest b
    let power := d.exponent + ((Nat.toDigits 10 d.digits).length : Int) - 1
    let body :=
      if b.significand == 0 || (-4 ≤ power && power < 16) then d.positional else d.scientific
    String.ofList (signText b.negative ++ body)

end DsdlHeaders.Text.Shortest

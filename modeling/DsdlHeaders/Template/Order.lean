import DsdlHeaders.Template.Value

/-!
# The order of values

* **Order.** `compare` puts values of different kinds in a fixed order, and compares numbers exactly
  by value, texts by code points, functions by their paths, sequences and maps from the front. It
  looks into nothing that a stream or the state of an expansion has to be asked for.
* **Numbers** may be equal and yet differ in the order: a boolean equals a number, and a whole
  number equals a float only if it survives becoming one.
* **Maps.** Keys are the same when neither comes before the other, so `true` and `1` are two keys
  and `1` and `1.0` are one.
-/

namespace DsdlHeaders.Template.Value

/-! ## Order -/

/-- The place of a kind in the order of all values. -/
def rank : Value → Nat
  | .undefined _ => 0
  | .nothing => 1
  | .boolean _ => 2
  | .word _ => 3
  | .integer _ => 3
  | .float _ => 3
  | .text _ => 4
  | .list _ => 5
  | .entries _ _ => 6
  | .routine _ _ => 6
  | .loop .. => 6
  | .derived _ _ => 7
  | .stream _ => 7
  | .joined .. => 7
  | .window .. => 7
  | .backward .. => 7
  | .function _ => 8

/-- A key that orders floats: what is not a number, then negative ones by descending size, then
positive ones. Both zeros have the same key. -/
def floatKey (x : Float) : Int :=
  let bits : Nat := x.toBits.toNat
  if x.isNaN then -(Text.wordSize 63 : Int)
  else if bits < Text.wordSize 63 then bits
  else (Text.wordSize 63 : Int) - bits

/-- Compares a whole number with a float, exactly. -/
def compareFloat (n : Int) (x : Float) : Ordering :=
  match Text.Shortest.decode x with
  | .nan => .gt
  | .infinite negative => if negative then .gt else .lt
  | .finite binary =>
    let size : Int := binary.significand * Nat.pow 2 binary.exponent.toNat
    let down : Int := Nat.pow 2 (-binary.exponent).toNat
    Ord.compare (n * down) (if binary.negative then -size else size)

/-- Compares two numbers. -/
def compareNumbers (a b : Value) : Ordering :=
  match a, b with
  | .float x, .float y => Ord.compare (floatKey x) (floatKey y)
  | .float x, _ => (compareFloat (b.integer?.getD 0) x).swap
  | _, .float y => compareFloat (a.integer?.getD 0) y
  | _, _ => Ord.compare (a.integer?.getD 0) (b.integer?.getD 0)

mutual

/-- Compares two values. -/
def compare : Value → Value → Ordering
  | .text s, .text t => Ord.compare s t
  | .function f, .function g => Ord.compare f.path g.path
  | .list xs, .list ys => compareLists xs ys
  | .derived _ xs, .derived _ ys => compareLists xs ys
  | .entries _ xs, .entries _ ys => compareEntries xs ys
  | a, b => (Ord.compare a.rank b.rank).then (compareNumbers a b)
termination_by structural a => a

/-- Compares two lists from the front. -/
def compareLists : List Value → List Value → Ordering
  | [], [] => .eq
  | [], _ :: _ => .lt
  | _ :: _, [] => .gt
  | x :: xs, y :: ys => (compare x y).then (compareLists xs ys)

/-- Compares the entries of two maps from the front. -/
def compareEntries : List (Value × Value) → List (Value × Value) → Ordering
  | [], [] => .eq
  | [], _ :: _ => .lt
  | _ :: _, [] => .gt
  | x :: xs, y :: ys => (compareEntry x y).then (compareEntries xs ys)

/-- Compares two entries: first their keys, then their values. -/
def compareEntry : Value × Value → Value × Value → Ordering
  | (k, v), (l, w) => (compare k l).then (compare v w)

end

/-! ## Equal numbers -/

/-- Are two numbers equal? -/
def equalNumbers (a b : Value) : Bool :=
  match pair? exactFloat? a b with
  | some (.integers m n) => m == n
  | some (.floats x y) => x == y
  | none => false

/-! ## Maps -/

/-- Puts an entry into ascending entries. An entry with the same key is replaced. -/
def insertEntry (key value : Value) : List (Value × Value) → List (Value × Value)
  | [] => [(key, value)]
  | (k, v) :: rest =>
    match compare key k with
    | .lt => (key, value) :: (k, v) :: rest
    | .eq => (k, value) :: rest
    | .gt => (k, v) :: insertEntry key value rest

/-- The entries of a list in ascending order; of two with one key the later one stays. -/
def sortEntries (found : List (Value × Value)) : List (Value × Value) :=
  found.foldl (fun sorted e => insertEntry e.1 e.2 sorted) []

/-- A map with the given entries. -/
def map (found : List (Value × Value)) : Value :=
  .entries false (sortEntries found)

/-- Are two keys the same? -/
def sameKey : Value → Value → Bool
  | .text s, .text t => s = t
  | a, b => compare a b = .eq

/-- The value of a key. -/
def lookup? (key : Value) : List (Value × Value) → Option Value
  | [] => none
  | (k, v) :: rest => if sameKey key k then some v else lookup? key rest

end DsdlHeaders.Template.Value

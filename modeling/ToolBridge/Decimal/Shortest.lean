import ToolBridge.Decimal.Binary64

/-! The fewest decimal digits that read back as a given double, the nearest to it of those, and of
two equally near the even one. -/

namespace ToolBridge.Decimal

/-- Digits, most significant first, and the power of ten of the first of them. -/
structure Scientific where
  digits : List Nat
  exponent : Int
deriving DecidableEq, Repr

/-- The reals that round to a double, as `[low, high] * 2 ^ power`, ends included or not. -/
structure Interval where
  low : Nat
  middle : Nat
  high : Nat
  power : Int
  closed : Bool

def Interval.of (x : Binary64) : Interval :=
  let (m, q) := x.parts
  let below := if m == Binary64.implicitBit && q > -1074 then 1 else 2
  ⟨4 * m - below, 4 * m, 4 * m + 2, q - 2, m % 2 == 0⟩

/-- Compares `a * 2 ^ p` with `d * 10 ^ k`. -/
def compareScaled (a : Nat) (p : Int) (d : Nat) (k : Int) : Ordering :=
  compare (a * Nat.pow 2 p.toNat * Nat.pow 10 (-k).toNat)
    (d * Nat.pow 10 k.toNat * Nat.pow 2 (-p).toNat)

def Interval.holds (i : Interval) (d : Nat) (k : Int) : Bool :=
  match compareScaled i.low i.power d k, compareScaled i.high i.power d k with
  | .lt, .gt => true
  | .eq, _ => i.closed
  | _, .eq => i.closed
  | _, _ => false

/-- The power of ten of the first digit of `num / den`, both positive. -/
def leadingPower (num den : Nat) : Int :=
  let guess : Int := (Nat.toDigits 10 num).length - (Nat.toDigits 10 den).length
  if den * Nat.pow 10 guess.toNat ≤ num * Nat.pow 10 (-guess).toNat then guess else guess - 1

/-- The better of the two neighbours on the grid of step `10 ^ k`, if one lies in the interval. -/
def Interval.nearest? (i : Interval) (num den : Nat) (k : Int) : Option Nat :=
  let num := num * Nat.pow 10 (-k).toNat
  let den := den * Nat.pow 10 k.toNat
  let d := num / den
  match i.holds d k, i.holds (d + 1) k with
  | true, false => some d
  | false, true => some (d + 1)
  | true, true =>
    let twice := 2 * (num % den)
    some (if twice < den then d else if den < twice then d + 1 else d + d % 2)
  | false, false => none

/-- Tries grids of `count`, `count + 1`, … digits. -/
def Interval.search (i : Interval) (num den : Nat) (top : Int) (count : Nat) : Nat → Nat × Int
  | 0 =>
    let k := top - count + 1
    (num * Nat.pow 10 (-k).toNat / (den * Nat.pow 10 k.toNat), k)
  | more + 1 =>
    match i.nearest? num den (top - count + 1) with
    | some d => (d, top - count + 1)
    | none => i.search num den top (count + 1) more

def digitsOf (n : Nat) : List Nat := (Nat.toDigits 10 n).map fun c => c.toNat - '0'.toNat

/-- Seventeen digits always suffice. -/
def shortest (x : Binary64) : Scientific :=
  if x.isZero then ⟨[0], 0⟩
  else
    let (num, den) := x.ratio
    let (d, k) := (Interval.of x).search num den (leadingPower num den) 1 17
    let digits := digitsOf d
    let trimmed := (digits.reverse.dropWhile (· == 0)).reverse
    ⟨trimmed, k + (digits.length - 1)⟩

end ToolBridge.Decimal

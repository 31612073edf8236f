/-! Double-precision numbers as their 64 bits, rounded exactly: every operation here is a quotient
of natural numbers sent to the nearest double, ties to the even one. -/

namespace ToolBridge

structure Binary64 where
  bits : UInt64
deriving DecidableEq, Repr

namespace Binary64

def negative (x : Binary64) : Bool := x.bits ≥ 0x8000000000000000

def neg (x : Binary64) : Binary64 := ⟨x.bits ^^^ 0x8000000000000000⟩

/-- The bits without the sign, as a number that grows with the magnitude. -/
def magnitude (x : Binary64) : Nat := x.bits.toNat % 0x8000000000000000

def infinity : Binary64 := ⟨0x7FF0000000000000⟩

def isInfinite (x : Binary64) : Bool := x.magnitude == 0x7FF0000000000000

def isZero (x : Binary64) : Bool := x.magnitude == 0

def zero : Binary64 := ⟨0⟩

/-- The bit that a significand has and the word does not show, `2 ^ 52`. -/
def implicitBit : Nat := 0x10000000000000

/-- Whole significand and power of two of the magnitude: its value is `m * 2 ^ q`. -/
def parts (x : Binary64) : Nat × Int :=
  let high : Nat := x.magnitude / implicitBit
  let low : Nat := x.magnitude % implicitBit
  if high == 0 then (low, -1074) else (low + implicitBit, (high : Int) - 1075)

/-- `m * 2 ^ q` as a quotient of natural numbers. -/
def quotient (m : Nat) (q : Int) : Nat × Nat :=
  if 0 ≤ q then (m * Nat.pow 2 q.toNat, 1) else (m, Nat.pow 2 (-q).toNat)

/-- The magnitude as a quotient of natural numbers. -/
def ratio (x : Binary64) : Nat × Nat := quotient x.parts.1 x.parts.2

/-- The whole number nearest to a quotient, the even one of two. -/
def roundQuotient (num den : Nat) : Nat :=
  let low := num / den
  let twice := 2 * (num % den)
  if twice < den then low else if den < twice then low + 1 else low + low % 2

/-- The double nearest to `num / den`; infinity where that is out of range, and where `den` is 0. -/
def ofRatio (num den : Nat) : Binary64 :=
  if num == 0 then zero
  else if den == 0 then infinity
  else
    let guess : Int := (num.log2 : Int) - den.log2 - 53
    let atLeast (q : Int) : Bool :=
      2 * implicitBit * den * Nat.pow 2 q.toNat ≤ num * Nat.pow 2 (-q).toNat
    let q := max (-1074) (if atLeast guess then guess + 1 else guess)
    let m := roundQuotient (num * Nat.pow 2 (-q).toNat) (den * Nat.pow 2 q.toNat)
    let magnitude := (q + 1074).toNat * implicitBit + m
    if magnitude ≥ infinity.magnitude then infinity else ⟨magnitude.toUInt64⟩

def ofNat (n : Nat) : Binary64 := ofRatio n 1

/-- Product of two magnitudes. -/
def mul (x y : Binary64) : Binary64 :=
  ofRatio (x.ratio.1 * y.ratio.1) (x.ratio.2 * y.ratio.2)

/-- Quotient of two magnitudes. -/
def div (x y : Binary64) : Binary64 :=
  ofRatio (x.ratio.1 * y.ratio.2) (x.ratio.2 * y.ratio.1)

end Binary64

end ToolBridge

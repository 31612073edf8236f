import ToolBridge.Decimal.Binary64

/-! A double from a whole significand and a power of ten, by one rounding each for the significand,
the power and their product or quotient; so not always the nearest double. -/

namespace ToolBridge.Decimal

def powerOfTen (n : Nat) : Binary64 := .ofNat (Nat.pow 10 n)

/-- The largest power of ten that is a double. -/
def topPower : Nat := 308

/-- Divides by `10 ^ n`, by the largest power first as often as `n` has it. -/
def divideByPower (x : Binary64) (n : Nat) : Binary64 :=
  if n ≤ topPower then x.div (powerOfTen n)
  else if x.isZero then x
  else divideByPower (x.div (powerOfTen topPower)) (n - topPower)
termination_by n
decreasing_by simp [topPower] at *; omega

/-- None where the result is out of range. -/
def scale? (significand : Nat) (exponent : Int) : Option Binary64 :=
  let x := Binary64.ofNat significand
  if exponent < 0 then some (divideByPower x (-exponent).toNat)
  else if exponent.toNat ≤ topPower then
    let y := x.mul (powerOfTen exponent.toNat)
    if y.isInfinite then none else some y
  else if x.isZero then some x
  else none

end ToolBridge.Decimal

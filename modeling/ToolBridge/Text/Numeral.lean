/-! Whole numbers in text: digits of one radix after an optional sign, with nothing around them. -/

namespace ToolBridge.Text

/-- The value of a digit or letter, counting from `a` as ten in either case. -/
def digitValue (c : Char) : Option Nat :=
  if '0' ≤ c ∧ c ≤ '9' then some (c.toNat - '0'.toNat)
  else if 'a' ≤ c ∧ c ≤ 'z' then some (c.toNat - 'a'.toNat + 10)
  else if 'A' ≤ c ∧ c ≤ 'Z' then some (c.toNat - 'A'.toNat + 10)
  else none

def digitIn (radix : Nat) (c : Char) : Option Nat :=
  (digitValue c).filter (· < radix)

/-- One digit or more, read from the most significant. -/
def readDigits (radix : Nat) : List Char → Option Nat
  | [] => none
  | digits => digits.foldlM (fun value c => (digitIn radix c).map (value * radix + ·)) 0

def readNatChars (radix : Nat) : List Char → Option Nat
  | '+' :: digits => readDigits radix digits
  | digits => readDigits radix digits

/-- A numeral below `bound`, with an optional plus sign. -/
def readNat (radix bound : Nat) (s : String) : Option Nat :=
  (readNatChars radix s.toList).filter (· < bound)

/-- A decimal numeral of a signed word of `bits` bits. -/
def readInt (bits : Nat) (s : String) : Option Int :=
  match s.toList with
  | '-' :: digits =>
    ((readDigits 10 digits).filter (· ≤ Nat.pow 2 (bits - 1))).map fun n => -(n : Int)
  | digits => ((readNatChars 10 digits).filter (· < Nat.pow 2 (bits - 1))).map Int.ofNat

end ToolBridge.Text

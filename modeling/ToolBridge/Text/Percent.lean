import ToolBridge.Text.Utf8

/-! Percent escapes of addresses. Writing escapes every octet that is not unreserved; reading leaves
alone what is not an escape. -/

namespace ToolBridge.Text.Percent

def hexDigit (n : Nat) : UInt8 := if n < 10 then (0x30 + n).toUInt8 else (0x41 + (n - 10)).toUInt8

def hexValue (b : UInt8) : Option UInt8 :=
  if 0x30 ≤ b ∧ b ≤ 0x39 then some (b - 0x30)
  else if 0x41 ≤ b ∧ b ≤ 0x46 then some (b - 0x41 + 10)
  else if 0x61 ≤ b ∧ b ≤ 0x66 then some (b - 0x61 + 10)
  else none

/-- Letters, digits and `-`, `.`, `_`, `~`. -/
def isUnreserved (b : UInt8) : Bool :=
  (0x30 ≤ b && b ≤ 0x39) || (0x41 ≤ b && b ≤ 0x5A) || (0x61 ≤ b && b ≤ 0x7A) ||
    b == 0x2D || b == 0x2E || b == 0x5F || b == 0x7E

def encodeByte (b : UInt8) : Bytes :=
  if isUnreserved b then [b] else [0x25, hexDigit (b.toNat / 16), hexDigit (b.toNat % 16)]

def encodeBytes (bytes : Bytes) : Bytes := bytes.flatMap encodeByte

def decodeBytes : Bytes → Bytes
  | 0x25 :: a :: b :: rest =>
    match hexValue a, hexValue b with
    | some high, some low => (high * 16 + low) :: decodeBytes rest
    | _, _ => 0x25 :: decodeBytes (a :: b :: rest)
  | b :: rest => b :: decodeBytes rest
  | [] => []

def encode (s : String) : String :=
  .ofList ((encodeBytes (utf8 s)).map fun b => Char.ofNat b.toNat)

/-- None where the octets that the escapes give are not text. -/
def decode? (s : String) : Option String := ofUtf8? (decodeBytes (utf8 s))

end ToolBridge.Text.Percent

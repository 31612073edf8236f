import ToolBridge.Bytes

/-! Text as octets. Ill-formed octets are refused, or each longest piece of them that could start a
character is read as one replacement character. -/

namespace ToolBridge.Text

def utf8 (s : String) : Bytes := s.toUTF8.data.toList

def ofUtf8? (bytes : Bytes) : Option String := String.fromUTF8? ⟨bytes.toArray⟩

theorem ofUtf8?_utf8 (s : String) : ofUtf8? (utf8 s) = some s := by
  simp [ofUtf8?, utf8, String.fromUTF8?, s.isValidUTF8]
  rfl

def replacement : Char := '\uFFFD'

/-- The least and greatest octet that may follow `lead`, and how many octets follow it in all.
None where `lead` starts no character of more than one octet. -/
def following (lead : UInt8) : Option (UInt8 × UInt8 × Nat) :=
  if lead < 0xC2 then none
  else if lead ≤ 0xDF then some (0x80, 0xBF, 1)
  else if lead == 0xE0 then some (0xA0, 0xBF, 2)
  else if lead == 0xED then some (0x80, 0x9F, 2)
  else if lead ≤ 0xEF then some (0x80, 0xBF, 2)
  else if lead == 0xF0 then some (0x90, 0xBF, 3)
  else if lead ≤ 0xF3 then some (0x80, 0xBF, 3)
  else if lead == 0xF4 then some (0x80, 0x8F, 3)
  else none

/-- The bits that `lead` gives to its character. -/
def leadBits (lead : UInt8) : Nat :=
  if lead ≤ 0xDF then lead.toNat % 32 else if lead ≤ 0xEF then lead.toNat % 16 else lead.toNat % 8

/-- A character begun: its bits so far, the range of the next octet, and how many octets are owed. -/
structure Begun where
  bits : Nat
  least : UInt8
  greatest : UInt8
  owed : Nat

/-- Reads on, with the characters read so far, last first. -/
def readLossy (done : List Char) (begun : Option Begun) : Bytes → List Char
  | [] => if begun.isSome then replacement :: done else done
  | b :: rest =>
    let start (done : List Char) : List Char × Option Begun :=
      if b < 0x80 then (Char.ofNat b.toNat :: done, none)
      else match following b with
        | none => (replacement :: done, none)
        | some (least, greatest, owed) => (done, some ⟨leadBits b, least, greatest, owed⟩)
    let (done, begun) := match begun with
      | none => start done
      | some g =>
        if g.least ≤ b && b ≤ g.greatest then
          let bits := g.bits * 64 + b.toNat % 64
          if g.owed ≤ 1 then (Char.ofNat bits :: done, none)
          else (done, some ⟨bits, 0x80, 0xBF, g.owed - 1⟩)
        else start (replacement :: done)
    readLossy done begun rest

def ofUtf8Lossy (bytes : Bytes) : String := .ofList (readLossy [] none bytes).reverse

end ToolBridge.Text

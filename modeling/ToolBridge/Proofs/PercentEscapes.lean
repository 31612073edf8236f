import Mathlib.Data.List.Basic
import ToolBridge.Proofs.TextOctets
import ToolBridge.Text.Percent

/-! Percent escapes read back. What is written has letters, digits, a few marks and the percent sign only, so nothing
that takes an address apart finds a place to cut in it. -/

namespace ToolBridge.Text.Percent

theorem hexValue_hexDigit {n : Nat} (digit : n < 16) : hexValue (hexDigit n) = some n.toUInt8 := by
  have values : ∀ n < 16, hexValue (hexDigit n) = some n.toUInt8 := by decide
  exact values n digit

theorem isUnreserved_hexDigit {n : Nat} (digit : n < 16) : isUnreserved (hexDigit n) = true := by
  have marks : ∀ n < 16, isUnreserved (hexDigit n) = true := by decide
  exact marks n digit

theorem halves (b : UInt8) : b.toNat / 16 < 16 ∧ b.toNat % 16 < 16 := by
  have small : b.toNat < 256 := b.toNat_lt_size
  omega

theorem decodeBytes_plain {b : UInt8} (plain : b ≠ 0x25) (rest : Bytes) : decodeBytes (b :: rest) = b :: decodeBytes rest := by
  rw [decodeBytes]
  rintro a c after rfl
  exact absurd rfl plain

theorem decodeBytes_encodeByte (b : UInt8) (rest : Bytes) : decodeBytes (encodeByte b ++ rest) = b :: decodeBytes rest := by
  unfold encodeByte
  split
  next plain =>
    refine decodeBytes_plain ?_ rest
    rintro rfl
    exact absurd plain (by decide)
  next =>
    obtain ⟨high, low⟩ := halves b
    have whole : (b.toNat / 16).toUInt8 * 16 + (b.toNat % 16).toUInt8 = b := by
      apply UInt8.toNat_inj.mp
      simp [UInt8.toNat_add, UInt8.toNat_mul]
      omega
    simp only [List.cons_append, List.nil_append, decodeBytes, hexValue_hexDigit high, hexValue_hexDigit low, whole]

theorem decodeBytes_encodeBytes (bytes : Bytes) : decodeBytes (encodeBytes bytes) = bytes := by
  induction bytes with
  | nil => rfl
  | cons b rest ih =>
    rw [encodeBytes, List.flatMap_cons, decodeBytes_encodeByte]
    exact congrArg (b :: ·) ih

theorem mem_encodeBytes {b : UInt8} {bytes : Bytes} (member : b ∈ encodeBytes bytes) :
    isUnreserved b = true ∨ b = 0x25 := by
  obtain ⟨octet, _, inside⟩ := List.mem_flatMap.mp member
  obtain ⟨high, low⟩ := halves octet
  unfold encodeByte at inside
  split at inside
  next plain => exact Or.inl (List.mem_singleton.mp inside ▸ plain)
  next =>
    simp only [List.mem_cons, List.not_mem_nil, or_false] at inside
    rcases inside with rfl | rfl | rfl
    · exact Or.inr rfl
    · exact Or.inl (isUnreserved_hexDigit high)
    · exact Or.inl (isUnreserved_hexDigit low)

/-- A letter, a digit, or one of `%`, `-`, `.`, `_` and `~`. -/
def Mark (c : Char) : Prop := ∃ b, (isUnreserved b = true ∨ b = 0x25) ∧ c = Char.ofNat b.toNat

theorem mark_encode {s : String} {c : Char} (member : c ∈ (encode s).toList) : Mark c := by
  rw [encode, String.toList_ofList] at member
  obtain ⟨b, inside, rfl⟩ := List.mem_map.mp member
  exact ⟨b, mem_encodeBytes inside, rfl⟩

/-- Whatever can be told of each of these octets by looking at it holds of all. -/
theorem forall_written (holds : Nat → Prop)
    (each : ∀ n < 256, isUnreserved n.toUInt8 = true ∨ n.toUInt8 = 0x25 → holds n) {b : UInt8}
    (written : isUnreserved b = true ∨ b = 0x25) : holds b.toNat :=
  each b.toNat b.toNat_lt_size (by simpa using written)

theorem Mark.visible {c : Char} (mark : Mark c) : 0x21 ≤ c.toNat ∧ c.toNat ≤ 0x7E := by
  obtain ⟨b, written, rfl⟩ := mark
  exact forall_written (fun n => 0x21 ≤ (Char.ofNat n).toNat ∧ (Char.ofNat n).toNat ≤ 0x7E) (by decide +kernel) written

theorem Mark.apart {c : Char} (mark : Mark c) : c ∉ ['?', '&', '=', '+'] := by
  obtain ⟨b, written, rfl⟩ := mark
  exact forall_written (fun n => Char.ofNat n ∉ ['?', '&', '=', '+']) (by decide +kernel) written

theorem encodeChar_written {b : UInt8} (written : isUnreserved b = true ∨ b = 0x25) :
    String.utf8EncodeChar (Char.ofNat b.toNat) = [b] := by
  have octet := forall_written (fun n => String.utf8EncodeChar (Char.ofNat n) = [n.toUInt8]) (by decide +kernel) written
  simpa using octet

theorem octets_written {bytes : Bytes} (written : ∀ b ∈ bytes, isUnreserved b = true ∨ b = 0x25) :
    (bytes.map fun b => Char.ofNat b.toNat).flatMap String.utf8EncodeChar = bytes := by
  rw [List.flatMap_map]
  exact (List.flatMap_congr fun b member => encodeChar_written (written b member)).trans (List.flatMap_singleton' _)

theorem utf8_encode (s : String) : utf8 (encode s) = encodeBytes (utf8 s) := by
  rw [utf8_eq, encode, String.toList_ofList, octets_written fun _ => mem_encodeBytes]

theorem decode?_encode (s : String) : decode? (encode s) = some s := by
  rw [decode?, utf8_encode, decodeBytes_encodeBytes, ofUtf8?_utf8]

end ToolBridge.Text.Percent

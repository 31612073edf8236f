import ToolBridge.Http.Line

/-! Text in lines of octets. A character of ASCII is one octet, and no octet of another character
is one of ASCII: where a line of text ends can be told from the octets alone. -/

namespace ToolBridge.Text

theorem utf8_eq (s : String) : utf8 s = s.toList.flatMap String.utf8EncodeChar := by
  have encoded : s.toUTF8 = (s.toList.flatMap String.utf8EncodeChar).toByteArray := by
    conv => lhs; rw [← String.ofList_toList (s := s)]
    rw [String.toUTF8_eq_toByteArray]
    rfl
  rw [utf8, encoded, List.toList_data_toByteArray]

@[simp] theorem utf8_empty : utf8 "" = [] := by
  simp [utf8_eq]

theorem utf8_append (s t : String) : utf8 (s ++ t) = utf8 s ++ utf8 t := by
  simp [utf8_eq]

theorem encodeChar_ascii {c : Char} {b : UInt8} (member : b ∈ String.utf8EncodeChar c)
    (ascii : b < 0x80) : c.toNat = b.toNat := by
  have small : b.toNat < 128 := ascii
  simp only [String.utf8EncodeChar] at member
  split at member
  case isTrue one =>
    obtain rfl := List.mem_singleton.mp member
    have below : c.val.toNat < 2 ^ 8 := by omega
    exact (UInt8.toNat_ofNat'.trans (Nat.mod_eq_of_lt below)).symm
  case isFalse =>
    -- every octet of a longer encoding has its highest bit set
    exfalso
    split at member
    · simp only [List.mem_cons, List.not_mem_nil, or_false] at member
      rcases member with rfl | rfl <;> simp only [UInt8.toNat_ofNat'] at small <;> omega
    · split at member <;> simp only [List.mem_cons, List.not_mem_nil, or_false] at member
      · rcases member with rfl | rfl | rfl <;> simp only [UInt8.toNat_ofNat'] at small <;> omega
      · rcases member with rfl | rfl | rfl | rfl <;> simp only [UInt8.toNat_ofNat'] at small <;> omega

theorem length_utf8 {s : String} (ascii : ∀ c ∈ s.toList, c.toNat < 0x80) : (utf8 s).length = s.toList.length := by
  have one : ∀ c ∈ s.toList, (String.utf8EncodeChar c).length = 1 := by
    intro c member
    have small : c.val.toNat < 0x80 := ascii c member
    rw [String.utf8EncodeChar, if_pos (by omega), List.length_singleton]
  rw [utf8_eq, List.length_flatMap, List.map_congr_left one, List.map_const', List.sum_replicate_nat, Nat.mul_one]

theorem mem_utf8 {s : String} {b : UInt8} (member : b ∈ utf8 s) (ascii : b < 0x80) :
    ∃ c ∈ s.toList, c.toNat = b.toNat := by
  rw [utf8_eq] at member
  obtain ⟨c, inside, octet⟩ := List.mem_flatMap.mp member
  exact ⟨c, inside, encodeChar_ascii octet ascii⟩

theorem getLast?_utf8 {s : String} {b : UInt8} (last : (utf8 s).getLast? = some b) (ascii : b < 0x80) :
    ∃ c, s.toList.getLast? = some c ∧ c.toNat = b.toNat := by
  rw [utf8_eq] at last
  rcases List.eq_nil_or_concat s.toList with empty | ⟨before, c, whole⟩
  · simp [empty] at last
  · have nonempty : String.utf8EncodeChar c ≠ [] := String.utf8EncodeChar_ne_nil
    rw [whole, List.concat_eq_append, List.flatMap_append, List.flatMap_singleton, List.getLast?_append,
      List.getLast?_eq_some_getLast nonempty, Option.some_or, Option.some.injEq] at last
    refine ⟨c, by simp [whole], ?_⟩
    exact encodeChar_ascii (last ▸ List.getLast_mem nonempty) ascii

end ToolBridge.Text

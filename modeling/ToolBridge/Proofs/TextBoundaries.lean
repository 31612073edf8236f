import ToolBridge.Proofs.JsonTokens

/-! Where characters begin in the octets of a text, and its lossy reading. No octet that goes on with a character could
begin one, so a text can be cut before any octet that does not; and nothing is replaced in octets that are a text. -/

namespace ToolBridge.Text

/-- An octet that goes on with a character. -/
def Continues (b : UInt8) : Prop := 0x80 ≤ b.toNat ∧ b.toNat < 0xC0

theorem encodeChar_cases (c : Char) :
    (c.toNat < 0x80 ∧ String.utf8EncodeChar c = [UInt8.ofNat c.toNat]) ∨
    (0x80 ≤ c.toNat ∧ c.toNat < 0x800 ∧ String.utf8EncodeChar c =
      [UInt8.ofNat (0xC0 + c.toNat / 64), UInt8.ofNat (0x80 + c.toNat % 64)]) ∨
    (0x800 ≤ c.toNat ∧ c.toNat < 0x10000 ∧ String.utf8EncodeChar c =
      [UInt8.ofNat (0xE0 + c.toNat / 4096), UInt8.ofNat (0x80 + c.toNat / 64 % 64),
        UInt8.ofNat (0x80 + c.toNat % 64)]) ∨
    (0x10000 ≤ c.toNat ∧ c.toNat < 0x110000 ∧ String.utf8EncodeChar c =
      [UInt8.ofNat (0xF0 + c.toNat / 262144), UInt8.ofNat (0x80 + c.toNat / 4096 % 64),
        UInt8.ofNat (0x80 + c.toNat / 64 % 64), UInt8.ofNat (0x80 + c.toNat % 64)]) := by
  have valid : c.toNat < 0xD800 ∨ 0xDFFF < c.toNat ∧ c.toNat < 0x110000 := c.valid
  have value : c.val.toNat = c.toNat := rfl
  simp only [String.utf8EncodeChar, value]
  split
  · exact .inl ⟨by omega, rfl⟩
  · split
    · refine .inr (.inl ⟨by omega, by omega, ?_⟩)
      rw [Nat.mod_eq_of_lt (by omega : c.toNat / 64 < 0x20), Nat.add_comm, Nat.add_comm (c.toNat % 64)]
    · split
      · refine .inr (.inr (.inl ⟨by omega, by omega, ?_⟩))
        rw [Nat.mod_eq_of_lt (by omega : c.toNat / 4096 < 0x10), Nat.add_comm, Nat.add_comm (c.toNat % 64),
          Nat.add_comm (c.toNat / 64 % 64)]
      · refine .inr (.inr (.inr ⟨by omega, by omega, ?_⟩))
        rw [Nat.mod_eq_of_lt (by omega : c.toNat / 262144 < 0x08), Nat.add_comm, Nat.add_comm (c.toNat % 64),
          Nat.add_comm (c.toNat / 64 % 64), Nat.add_comm (c.toNat / 4096 % 64)]

theorem continues_ofNat {n : Nat} (small : n < 64) : Continues (UInt8.ofNat (0x80 + n)) := by
  rw [Continues, UInt8.toNat_ofNat_of_lt' (by simp only [UInt8.size]; omega)]
  omega

theorem not_continues_ofNat {n : Nat} (outside : n < 0x80 ∨ 0xC0 ≤ n) (octet : n < 256) :
    ¬ Continues (UInt8.ofNat n) := by
  rw [Continues, UInt8.toNat_ofNat_of_lt' (by simpa only [UInt8.size] using octet)]
  omega

/-- The first octet of a character goes on with none, and all others do. -/
theorem encodeChar_shape (c : Char) :
    ∃ lead tail, String.utf8EncodeChar c = lead :: tail ∧ ¬ Continues lead ∧ ∀ b ∈ tail, Continues b := by
  have each {n : Nat} : Continues (UInt8.ofNat (0x80 + n % 64)) := continues_ofNat (Nat.mod_lt _ (by omega))
  rcases encodeChar_cases c with ⟨low, code⟩ | ⟨low, high, code⟩ | ⟨low, high, code⟩ | ⟨low, high, code⟩
  · exact ⟨_, _, code, not_continues_ofNat (.inl low) (by omega), List.forall_mem_nil _⟩
  · exact ⟨_, _, code, not_continues_ofNat (.inr (by omega)) (by omega), List.forall_mem_singleton.mpr each⟩
  · exact ⟨_, _, code, not_continues_ofNat (.inr (by omega)) (by omega),
      List.forall_mem_cons.mpr ⟨each, List.forall_mem_singleton.mpr each⟩⟩
  · exact ⟨_, _, code, not_continues_ofNat (.inr (by omega)) (by omega),
      List.forall_mem_cons.mpr ⟨each, List.forall_mem_cons.mpr ⟨each, List.forall_mem_singleton.mpr each⟩⟩⟩

/-- No character's octets begin another's. -/
theorem encodeChar_append_inj {c d : Char} {s t : Bytes}
    (same : String.utf8EncodeChar c ++ s = String.utf8EncodeChar d ++ t) : c = d ∧ s = t := by
  have first (c : Char) (s : Bytes) : (String.utf8EncodeChar c ++ s).toByteArray.utf8DecodeChar? 0 = some c := by
    rw [List.toByteArray_append]
    exact ByteArray.utf8DecodeChar?_utf8EncodeChar_append
  obtain rfl : c = d := Option.some.inj ((first c s).symm.trans (same ▸ first d t))
  exact ⟨rfl, List.append_cancel_left same⟩

/-- A text can be cut before an octet that begins a character. -/
theorem octets_cut {s : List Char} {before after : Bytes} {b : UInt8} (whole : octets s = before ++ b :: after)
    (begins : ¬ Continues b) : ∃ s₁ s₂, before = octets s₁ ∧ b :: after = octets s₂ := by
  induction s generalizing before with
  | nil => simp at whole
  | cons c s ih =>
    rw [octets_cons] at whole
    rcases List.append_eq_append_iff.mp whole with ⟨more, first, later⟩ | ⟨more, first, later⟩
    · -- the cut comes after the first character
      obtain ⟨s₁, s₂, left, right⟩ := ih later
      exact ⟨c :: s₁, s₂, by rw [octets_cons, first, left], right⟩
    · obtain ⟨lead, tail, code, _, continued⟩ := encodeChar_shape c
      cases more with
      | nil => exact ⟨[c], s, by simpa using first.symm, by simpa using later⟩
      | cons d more =>
        obtain ⟨rfl, rest⟩ := List.cons.inj (later : b :: after = d :: (more ++ octets s))
        cases before with
        | nil => exact ⟨[], c :: s, rfl, by rw [octets_cons, first, rest]; rfl⟩
        | cons a before =>
          have inside := (List.cons.inj (code.symm.trans first)).2
          exact absurd (continued b (by simp [inside])) begins

/-- What stands before and after a whole character of a text is text. -/
theorem octets_around {s : List Char} {before after : Bytes} {c : Char}
    (whole : octets s = before ++ (String.utf8EncodeChar c ++ after)) :
    ∃ s₁ s₂, before = octets s₁ ∧ after = octets s₂ := by
  obtain ⟨lead, tail, code, begins, _⟩ := encodeChar_shape c
  have led : octets s = before ++ lead :: (tail ++ after) := by rw [whole, code, List.cons_append]
  obtain ⟨s₁, s₂, left, right⟩ := octets_cut led begins
  refine ⟨s₁, ?_⟩
  cases s₂ with
  | nil => cases right
  | cons d s₂ =>
    have same : String.utf8EncodeChar c ++ after = String.utf8EncodeChar d ++ octets s₂ := by
      rw [code, List.cons_append, right, octets_cons]
    exact ⟨s₂, left, (encodeChar_append_inj same).2⟩

/-! ## Lossy reading -/

section
variable {done : List Char} {b least greatest : UInt8} {bits owed : Nat} {rest : Bytes}

theorem readLossy_lead (high : ¬ b < 0x80) (begins : following b = some (least, greatest, owed)) :
    readLossy done none (b :: rest) = readLossy done (some ⟨leadBits b, least, greatest, owed⟩) rest := by
  rw [readLossy]
  simp only [if_neg high, begins]

theorem readLossy_next (within : least ≤ b ∧ b ≤ greatest) (more : 1 < owed) :
    readLossy done (some ⟨bits, least, greatest, owed⟩) (b :: rest) =
      readLossy done (some ⟨bits * 64 + b.toNat % 64, 0x80, 0xBF, owed - 1⟩) rest := by
  rw [readLossy]
  simp only [within, decide_true, Bool.and_self, if_true, if_neg (Nat.not_le.mpr more)]

theorem readLossy_last (within : least ≤ b ∧ b ≤ greatest) :
    readLossy done (some ⟨bits, least, greatest, 1⟩) (b :: rest) =
      readLossy (Char.ofNat (bits * 64 + b.toNat % 64) :: done) none rest := by
  rw [readLossy]
  simp only [within, decide_true, Bool.and_self, if_true, Nat.le_refl]

end

theorem following_two : ∀ k < 32, 2 ≤ k → ¬ UInt8.ofNat (0xC0 + k) < 0x80 ∧
    following (UInt8.ofNat (0xC0 + k)) = some (0x80, 0xBF, 1) ∧ leadBits (UInt8.ofNat (0xC0 + k)) = k := by decide

theorem following_three : ∀ k < 16, ¬ UInt8.ofNat (0xE0 + k) < 0x80 ∧
    following (UInt8.ofNat (0xE0 + k)) = some (if k = 0 then 0xA0 else 0x80, if k = 13 then 0x9F else 0xBF, 2) ∧
    leadBits (UInt8.ofNat (0xE0 + k)) = k := by decide

theorem following_four : ∀ k < 5, ¬ UInt8.ofNat (0xF0 + k) < 0x80 ∧
    following (UInt8.ofNat (0xF0 + k)) = some (if k = 0 then 0x90 else 0x80, if k = 4 then 0x8F else 0xBF, 3) ∧
    leadBits (UInt8.ofNat (0xF0 + k)) = k := by decide

/-- An octet that goes on with a character, its range given in numbers. -/
theorem within_ofNat {n : Nat} (small : n < 64) (least greatest : UInt8) (least_le : least.toNat ≤ 0x80 + n)
    (le_greatest : 0x80 + n ≤ greatest.toNat) :
    (least ≤ UInt8.ofNat (0x80 + n) ∧ UInt8.ofNat (0x80 + n) ≤ greatest) ∧ (UInt8.ofNat (0x80 + n)).toNat % 64 = n := by
  rw [UInt8.le_iff_toNat_le, UInt8.le_iff_toNat_le, UInt8.toNat_ofNat_of_lt' (by simp only [UInt8.size]; omega)]
  omega

theorem readLossy_encodeChar (c : Char) (done : List Char) (rest : Bytes) :
    readLossy done none (String.utf8EncodeChar c ++ rest) = readLossy (c :: done) none rest := by
  have read {n : Nat} (same : n = c.toNat) : Char.ofNat n = c := same ▸ Char.ofNat_toNat c
  have plain {n : Nat} := within_ofNat (Nat.mod_lt n (by omega)) 0x80 0xBF (Nat.le_add_right _ _)
    (Nat.add_le_add_left (Nat.le_of_lt_succ (Nat.mod_lt _ (by omega))) 0x80)
  rcases encodeChar_cases c with ⟨low, code⟩ | ⟨low, high, code⟩ | ⟨low, high, code⟩ | ⟨low, high, code⟩
  · have octet : (UInt8.ofNat c.toNat).toNat = c.toNat := UInt8.toNat_ofNat_of_lt' (Nat.lt_trans low (by decide))
    have ascii : UInt8.ofNat c.toNat < 0x80 := UInt8.lt_iff_toNat_lt.mpr (octet.symm ▸ low)
    rw [code, List.singleton_append, readLossy]
    simp only [if_pos ascii, octet, Char.ofNat_toNat]
  · obtain ⟨more, begins, lead⟩ := following_two (c.toNat / 64) (by omega) (by omega)
    rw [code, List.cons_append, List.singleton_append, readLossy_lead more begins, lead, readLossy_last plain.1,
      plain.2, read (by omega)]
  · have valid : c.toNat < 0xD800 ∨ 0xDFFF < c.toNat ∧ c.toNat < 0x110000 := c.valid
    obtain ⟨more, begins, lead⟩ := following_three (c.toNat / 4096) (by omega)
    have second := within_ofNat (Nat.mod_lt (c.toNat / 64) (by omega))
      (if c.toNat / 4096 = 0 then 0xA0 else 0x80) (if c.toNat / 4096 = 13 then 0x9F else 0xBF)
      (by split <;> simp only [UInt8.reduceToNat] <;> omega)
      (by split <;> simp only [UInt8.reduceToNat] <;> omega)
    rw [code, List.cons_append, List.cons_append, List.singleton_append, readLossy_lead more begins, lead,
      readLossy_next second.1 (by omega), second.2, readLossy_last plain.1, plain.2, read (by omega)]
  · obtain ⟨more, begins, lead⟩ := following_four (c.toNat / 262144) (by omega)
    have second := within_ofNat (Nat.mod_lt (c.toNat / 4096) (by omega))
      (if c.toNat / 262144 = 0 then 0x90 else 0x80) (if c.toNat / 262144 = 4 then 0x8F else 0xBF)
      (by split <;> simp only [UInt8.reduceToNat] <;> omega)
      (by split <;> simp only [UInt8.reduceToNat] <;> omega)
    rw [code, List.cons_append, List.cons_append, List.cons_append, List.singleton_append,
      readLossy_lead more begins, lead, readLossy_next second.1 (by omega), second.2,
      readLossy_next plain.1 (by omega), plain.2, readLossy_last plain.1, plain.2, read (by omega)]

theorem readLossy_octets (s done : List Char) : readLossy done none (octets s) = s.reverse ++ done := by
  induction s generalizing done with
  | nil => rfl
  | cons c s ih => rw [octets_cons, readLossy_encodeChar, ih, List.reverse_cons, List.append_assoc, List.singleton_append]

theorem ofUtf8Lossy_utf8 (s : String) : ofUtf8Lossy (utf8 s) = s := by
  rw [ofUtf8Lossy, ← octets_toList, readLossy_octets, List.append_nil, List.reverse_reverse, String.ofList_toList]

end ToolBridge.Text

import ToolBridge.Proofs.Truncation
import ToolBridge.Proofs.WordReader

/-! The limits of the reader. Whatever comes in, what is accepted is within them, what is refused for its size is beyond
them, counting stays within 64-bit words, and every request takes octets off the input, so that reading one after another
comes to an end. -/

namespace ToolBridge.Http

structure Limited (limit : Nat) (input : Bytes) : Prop where
  /-- No sum, difference or place leaves its bounds. -/
  words : Words.readRequest limit input = some (readRequest limit input)
  accepted (r : Request) (rest : Bytes) : (readRequest limit input).Returns (some r) rest ↔
    ∃ l, r = RequestLayout.request l ∧ RequestRead limit input l rest ∧ (l.body.Unclosed → rest = [])
  headersTooLarge : (readRequest limit input).atEnd = .error .headersTooLarge ↔ Overlong limit input
  bodyTooLarge (most : Nat) : (readRequest limit input).atEnd = .error (.bodyTooLarge most) ↔
    most = limit ∧ RequestOverfull limit input
  consumed (r : Request) (rest : Bytes) : (readRequest limit input).Returns (some r) rest → rest.length < input.length
  /-- One request after another is read, until no more is. -/
  ends : ∃ requests left, Taken limit True input requests left ∧ requests.length + left.length ≤ input.length ∧
    ∀ r, (readRequest limit left).atEnd ≠ .ok (some r)

section
variable {limit : Nat} {input rest : Bytes} {r : Request}

theorem length_of_returns (returned : (readRequest limit input).Returns (some r) rest) : rest.length < input.length := by
  rcases returned with read | ⟨read, rfl⟩
  · exact (readRequest_length read).2
  · refine List.length_pos_iff.mpr fun none_ => ?_
    rw [none_, readRequest_nil] at read
    cases read

/-- The octets left over are fewer after each request. -/
theorem taken_to_end (limit : Nat) (input : Bytes) :
    ∃ requests left, Taken limit True input requests left ∧ requests.length + left.length ≤ input.length ∧
      ∀ r, (readRequest limit left).atEnd ≠ .ok (some r) := by
  induction length : input.length using Nat.strongRecOn generalizing input with
  | ind n ih =>
    subst length
    by_cases none_ : ∀ r, (readRequest limit input).atEnd ≠ .ok (some r)
    · exact ⟨[], input, .none input, Nat.le_of_eq (Nat.zero_add _), none_⟩
    · obtain ⟨r, read⟩ := not_forall_not.mp none_
      obtain ⟨rest, returned⟩ := Reading.atEnd_eq_ok.mp read
      have shorter := length_of_returns returned
      rcases returned with read | ⟨read, rfl⟩
      · obtain ⟨later, left, taken, fewer, last⟩ := ih rest.length shorter rest rfl
        exact ⟨r :: later, left, .next read taken, by rw [List.length_cons]; omega, last⟩
      · refine ⟨[r], [], .last trivial read, ?_, fun _ again => ?_⟩
        · rw [List.length_singleton, Nat.add_comm]
          exact shorter
        · rw [readRequest_nil] at again
          cases again

end

theorem reader_limited {limit : Nat} (word : limit < UInt64.size) (input : Bytes) : Limited limit input where
  words := Words.readRequest_eq word input
  accepted _ _ := readRequest_returns
  headersTooLarge := readRequest_headersTooLarge
  bodyTooLarge _ := readRequest_bodyTooLarge
  consumed _ _ := length_of_returns
  ends := taken_to_end limit input

/-- One octet in a chunk, and then as many as a word can count. -/
def beyondWords : Bytes :=
  (oneChunk none).head.bytes ++ (Text.utf8 "1\r\na\r\n" ++ Text.utf8 "ffffffffffffffff\r\n")

/-- No limit is so high that a sum of sizes could wrap around below it. -/
theorem reader_limited_beyondWords :
    UInt64.size - 1 < UInt64.size ∧
      (readRequest (UInt64.size - 1) beyondWords).atEnd = .error (.bodyTooLarge (UInt64.size - 1)) := by
  have word : UInt64.size - 1 < UInt64.size := by decide
  refine ⟨word, ((reader_limited word beyondWords).bodyTooLarge _).mpr ⟨rfl, (oneChunk none).head, _, rfl, ?_, ?_⟩⟩
  · decide +kernel
  · refine .chunks (by decide) ⟨[⟨⟨"1", .crlf, by decide, by decide⟩, [0x61], by decide, by decide⟩],
      ⟨"ffffffffffffffff", .crlf, by decide, by decide⟩, UInt64.size - 1, [], ?_, ?_, ?_, ?_, ?_⟩
    all_goals decide +kernel

end ToolBridge.Http

import ToolBridge.Proofs.ReadFields

/-! Lines as they are taken off an input. Whatever the octets are, a line that is read is one that could have been sent,
its octets are gone from the input and from the budget, and it is refused for its length only if the budget has less. -/

namespace ToolBridge.Http

/-- The first line of an input with its ending, or all there is if no line ends. -/
def firstLine (input : Bytes) : Bytes :=
  input.takeWhile (· != 0x0A) ++ (input.dropWhile (· != 0x0A)).take 1

section
variable {budget left : Nat} {input rest : Bytes} {text : String} {fault : Fault}

theorem withoutEndCr_concat (line : Bytes) : withoutEndCr (line ++ [0x0D]) = line := by
  simp [withoutEndCr]

theorem withoutEndCr_eq_self {line : Bytes} (last : line.getLast? ≠ some 0x0D) : withoutEndCr line = line := by
  unfold withoutEndCr
  split
  next rest reversed => exact absurd (by rw [List.getLast?_eq_head?_reverse, reversed]; rfl) last
  next => rfl

/-- Octets up to a line feed are those of a line, if they are text. -/
theorem sentLine_of_octets {octets : Bytes} (plain : 0x0A ∉ octets)
    (told : Text.ofUtf8? (withoutEndCr octets) = some text) :
    ∃ l : SentLine, l.text = text ∧ l.bytes = octets ++ [0x0A] := by
  have spelled := Text.utf8_of_ofUtf8? told
  have single : '\n' ∉ text.toList := by
    by_contra broken
    have feed := Text.mem_utf8_feed (not_not.mpr broken)
    rw [spelled] at feed
    exact plain (withoutEndCr_subset _ feed)
  by_cases last : octets.getLast? = some 0x0D
  · obtain ⟨before, rfl⟩ := List.getLast?_eq_some_iff.mp last
    rw [withoutEndCr_concat] at spelled
    exact ⟨⟨text, .crlf, single, nofun⟩, rfl, by simp [SentLine.bytes, Ending.bytes, spelled]⟩
  · rw [withoutEndCr_eq_self last] at spelled
    refine ⟨⟨text, .lf, single, fun _ ends => last ?_⟩, rfl, by simp [SentLine.bytes, Ending.bytes, spelled]⟩
    obtain ⟨before, whole⟩ := List.getLast?_eq_some_iff.mp ends
    have return_ : String.utf8EncodeChar '\r' = [0x0D] := by decide
    rw [← spelled, Text.utf8_eq, whole, List.flatMap_append, List.flatMap_singleton, return_, List.getLast?_concat]

theorem readLine_taken (read : readLine budget input = .line text left rest) :
    ∃ l : SentLine, l.text = text ∧ input = l.bytes ++ rest ∧ l.bytes.length + left = budget := by
  have whole := List.takeWhile_append_dropWhile (p := (· != 0x0A)) (l := input)
  have plain : 0x0A ∉ input.takeWhile (· != 0x0A) := fun feed => absurd (List.mem_takeWhile_imp feed) (by decide)
  simp only [readLine] at read
  split at read
  · split at read
    · cases read
    · split at read <;> cases read
  next b tail cut =>
    have feed : b = 0x0A := by
      have first := List.head_dropWhile_not (· != (0x0A : UInt8)) (l := input) (by simp [cut])
      simpa [cut] using first
    split at read
    · cases read
    next paid =>
      split at read
      next told =>
        cases read
        obtain ⟨l, same, octets⟩ := sentLine_of_octets plain told
        refine ⟨l, same, ?_, ?_⟩
        · rw [octets, List.append_assoc, List.singleton_append, ← (feed ▸ cut : _ = 0x0A :: rest), whole]
        · rw [octets, List.length_append, List.length_singleton]
          omega
      · cases read

theorem readLine_fault (read : readLine budget input = .refused fault) :
    fault = .headersTooLarge ∧ budget < (firstLine input).length ∨ fault = .malformedRequest .notText := by
  simp only [readLine] at read
  unfold firstLine
  split at read
  next cut =>
    split at read
    next spent =>
      cases read
      rw [cut]
      exact .inl ⟨rfl, by simpa using spent⟩
    · split at read <;> cases read
  next b tail cut =>
    split at read
    next spent =>
      cases read
      rw [cut]
      exact .inl ⟨rfl, by simpa using spent⟩
    · split at read
      · cases read
      · cases read
        exact .inr rfl

theorem readLine_absent (read : readLine budget input = .absent) : input = [] := by
  have whole := List.takeWhile_append_dropWhile (p := (· != 0x0A)) (l := input)
  simp only [readLine] at read
  split at read
  next cut =>
    split at read
    · cases read
    · split at read
      next empty =>
        rw [cut, List.isEmpty_iff.mp empty] at whole
        exact whole.symm
      · cases read
  next =>
    split at read
    · cases read
    · split at read <;> cases read

theorem readLine_long (beyond : budget < (firstLine input).length) : readLine budget input = .refused .headersTooLarge := by
  unfold firstLine at beyond
  simp only [readLine]
  split
  next cut => rw [if_pos (by simpa [cut] using beyond)]
  next b tail cut => rw [if_pos (by simpa [cut] using beyond)]

end

theorem firstLine_nil : firstLine [] = [] := rfl

/-! ## What a reading may come to -/

/-- Values that a reading may be done with and what they leave, values that the end of the input settles, and what it
takes to be refused for the length of lines or of a body. -/
structure Outcomes (α : Type) where
  done : α → Bytes → Prop
  ended : α → Prop
  long : Prop
  large : Nat → Prop

/-- Any reading may turn out malformed, or be cut short. -/
inductive Reading.Comes {α : Type} (o : Outcomes α) : Reading α → Prop where
  | done {value : α} {rest : Bytes} (holds : o.done value rest) : Comes o (.done value rest)
  | ended {value : α} (holds : o.ended value) : Comes o (.more (.ok value))
  | long (beyond : o.long) : Comes o (.refused .headersTooLarge)
  | large {limit : Nat} (beyond : o.large limit) : Comes o (.refused (.bodyTooLarge limit))
  | flawed (flaw : RequestFlaw) : Comes o (.malformed flaw)
  | cut (flaw : RequestFlaw) : Comes o (.unlessMore flaw)

namespace Reading.Comes
variable {α β : Type} {o : Outcomes α} {p : Outcomes β} {r : Reading α}

theorem mono {wider : Outcomes α} (comes : r.Comes o) (done : ∀ value rest, o.done value rest → wider.done value rest)
    (ended : ∀ value, o.ended value → wider.ended value) (long : o.long → wider.long)
    (large : ∀ limit, o.large limit → wider.large limit) : r.Comes wider := by
  cases comes with
  | done holds => exact .done (done _ _ holds)
  | ended holds => exact .ended (ended _ holds)
  | long beyond => exact .long (long beyond)
  | large beyond => exact .large (large _ beyond)
  | flawed flaw => exact .flawed flaw
  | cut flaw => exact .cut flaw

theorem check {part : Except RequestFlaw β} {next : β → Reading α}
    (goes : ∀ value, part = .ok value → (next value).Comes o) :
    (Reading.check part next).Comes o := by
  cases part with
  | error flaw => exact .flawed flaw
  | ok value => exact goes value rfl

/-- Only what goes on is left to show of two readings in a row. -/
theorem bind {next : α → Bytes → Reading β} (comes : r.Comes o)
    (done : ∀ value rest, o.done value rest → (next value rest).Comes p)
    (ended : ∀ value, o.ended value → (Reading.more (next value []).atEnd).Comes p) (long : o.long → p.long)
    (large : ∀ limit, o.large limit → p.large limit) : (r.bind next).Comes p := by
  cases comes with
  | done holds => exact done _ _ holds
  | ended holds => exact ended _ holds
  | long beyond => exact .long (long beyond)
  | large beyond => exact .large (large _ beyond)
  | flawed flaw => exact .flawed flaw
  | cut flaw => exact .cut flaw

theorem of_fault {budget : Nat} {input : Bytes} {fault : Fault} (read : readLine budget input = .refused fault)
    (long : budget < (firstLine input).length → o.long) : (Reading.refused fault).Comes o := by
  rcases readLine_fault read with ⟨rfl, beyond⟩ | rfl
  · exact .long (long beyond)
  · exact .flawed _

end Reading.Comes

end ToolBridge.Http

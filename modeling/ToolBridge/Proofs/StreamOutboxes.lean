import ToolBridge.Stream.Outbox

/-! What waits in an outbox, and what each operation does to it. Later proofs look at outboxes only
through `frames`, `Readable` and the count of those made. -/

namespace ToolBridge.Stream.Outboxes
open EventStream (Frame)

/-- What waits for the writer of a box, oldest first. -/
def frames (box : Nat) (o : Outboxes) : List Frame := ((o.boxes.get? box).map (·.frames)).getD []

/-- Somebody may still take frames out of the box. -/
def Readable (box : Nat) (o : Outboxes) : Prop := ∃ b, o.boxes.get? box = some b ∧ b.read = true

/-- The bridge may still add frames to the box. -/
def Fed (box : Nat) (o : Outboxes) : Prop := ∃ b, o.boxes.get? box = some b ∧ b.fed = true

variable (o : Outboxes) (box other : Nat)

/-! ## One box changed -/

theorem frames_put (b : Outbox) :
    Outboxes.frames other { o with boxes := o.boxes.put box b } = if other = box then b.frames else o.frames other := by
  simp only [frames, Entries.get?_put, eq_comm (a := other)]
  split <;> rfl

theorem frames_absent (absent : o.boxes.get? box = none) : o.frames box = [] := by
  simp [frames, absent]

/-- A box that is emptied, if it is there, has nothing in it, and the others have what they had. -/
theorem frames_emptied {after : Outboxes}
    (emptied : (∃ b : Outbox, b.frames = [] ∧ after = { o with boxes := o.boxes.put box b }) ∨
      o.boxes.get? box = none ∧ after = o) :
    after.frames other = if other = box then [] else o.frames other := by
  rcases emptied with ⟨b, empty, rfl⟩ | ⟨absent, rfl⟩
  · rw [frames_put, empty]
  · split
    next same => exact same ▸ after.frames_absent box absent
    next => rfl

/-- Whether a box is read does not depend on what is in it, or on whether it is fed. -/
theorem readable_put {b changed : Outbox} (found : o.boxes.get? box = some b) (same : changed.read = b.read) :
    Outboxes.Readable other { o with boxes := o.boxes.put box changed } ↔ o.Readable other := by
  simp only [Readable, Entries.get?_put]
  split
  next here =>
    subst here
    simp [found, same]
  next => rfl

/-! ## The operations -/

theorem frames_make : o.make.2.frames other = if other = o.made + 1 then [] else o.frames other := by
  simp only [frames, make, Entries.get?_put, eq_comm (a := other)]
  split <;> rfl

theorem made_make : o.make.2.made = o.made + 1 := rfl

theorem readable_make : o.make.2.Readable other ↔ other = o.made + 1 ∨ o.Readable other := by
  simp only [Readable, make, Entries.get?_put, eq_comm (a := other)]
  split
  next same => simp [same]
  next different => simp [different]

theorem send?_isSome (frame : Frame) : (o.send? box frame).isSome ↔ o.Readable box := by
  cases found : o.boxes.get? box with
  | none => simp [send?, Readable, found]
  | some b => cases open_ : b.read <;> simp [send?, Readable, found, open_]

section Sent
variable {o box} {frame : Frame} {after : Outboxes} (sent : o.send? box frame = some after)
include sent

theorem sent_put : ∃ b, o.boxes.get? box = some b ∧ b.read = true ∧
    after = { o with boxes := o.boxes.put box { b with frames := b.frames ++ [frame] } } := by
  simp only [send?] at sent
  split at sent
  next b found =>
    split at sent
    next readable => exact ⟨b, found, readable, (Option.some.inj sent).symm⟩
    next => cases sent
  next => cases sent

theorem frames_sent : after.frames other = if other = box then o.frames box ++ [frame] else o.frames other := by
  obtain ⟨b, found, _, rfl⟩ := sent_put sent
  rw [frames_put]
  simp [frames, found]

theorem made_sent : after.made = o.made := by
  obtain ⟨_, _, _, rfl⟩ := sent_put sent
  rfl

theorem readable_sent : after.Readable other ↔ o.Readable other := by
  obtain ⟨b, found, readable, rfl⟩ := sent_put sent
  exact o.readable_put box other found rfl

end Sent

theorem made_endFeed : (o.endFeed box).made = o.made := by
  unfold endFeed
  split <;> rfl

theorem frames_endFeed : (o.endFeed box).frames other = o.frames other := by
  unfold endFeed
  split
  next b found =>
    rw [frames_put]
    split
    next same => simp [frames, same, found]
    next => rfl
  next => rfl

theorem readable_endFeed : (o.endFeed box).Readable other ↔ o.Readable other := by
  unfold endFeed
  split
  next b found => exact o.readable_put box other found rfl
  next => rfl

theorem boxes_endFeed (apart : other ≠ box) : (o.endFeed box).boxes.get? other = o.boxes.get? other := by
  unfold endFeed
  split
  · rw [Entries.get?_put, if_neg apart.symm]
  · rfl

theorem fed_endFeed : ¬ (o.endFeed box).Fed box := by
  rintro ⟨b, found, fed⟩
  unfold endFeed at found
  split at found
  · rw [Entries.get?_put, if_pos rfl] at found
    cases found
    cases fed
  next absent =>
    rw [absent] at found
    cases found

theorem drained : (o.drain box).1 = o.frames box := by
  unfold drain frames
  split
  next b found => simp [found]
  next absent => simp [absent]

theorem made_drain : (o.drain box).2.made = o.made := by
  unfold drain
  split <;> rfl

theorem frames_drain : (o.drain box).2.frames other = if other = box then [] else o.frames other := by
  refine o.frames_emptied box other ?_
  unfold drain
  split
  next => exact Or.inl ⟨_, rfl, rfl⟩
  next absent => exact Or.inr ⟨absent, rfl⟩

theorem readable_drain : (o.drain box).2.Readable other ↔ o.Readable other := by
  unfold drain
  split
  next b found => exact o.readable_put box other found rfl
  next => rfl

theorem made_endRead : (o.endRead box).made = o.made := by
  unfold endRead
  split <;> rfl

theorem frames_endRead : (o.endRead box).frames other = if other = box then [] else o.frames other := by
  refine o.frames_emptied box other ?_
  unfold endRead
  split
  next => exact Or.inl ⟨_, rfl, rfl⟩
  next absent => exact Or.inr ⟨absent, rfl⟩

theorem received :
    (∃ frame rest, o.frames box = frame :: rest ∧ (o.receive box).1 = .frame frame ∧
      (o.receive box).2.made = o.made ∧
      ∀ other, (o.receive box).2.frames other = if other = box then rest else o.frames other) ∨
    (o.frames box = [] ∧ (∀ frame, (o.receive box).1 ≠ .frame frame) ∧ (o.receive box).2 = o) := by
  unfold receive
  split
  next b found =>
    split
    next frame rest waiting =>
      refine Or.inl ⟨frame, rest, by simp [frames, found, waiting], rfl, rfl, ?_⟩
      exact fun other => o.frames_put box other _
    next empty =>
      refine Or.inr ⟨by simp [frames, found, empty], ?_, rfl⟩
      intro frame
      cases b.fed <;> simp
  next absent => exact Or.inr ⟨o.frames_absent box absent, by simp, rfl⟩

theorem readable_receive : (o.receive box).2.Readable other ↔ o.Readable other := by
  unfold receive
  split
  next b found =>
    split
    next => exact o.readable_put box other found rfl
    next => rfl
  next => rfl

theorem made_receive : (o.receive box).2.made = o.made := by
  rcases o.received box with ⟨_, _, _, _, made, _⟩ | ⟨_, _, same⟩
  · exact made
  · rw [same]

end ToolBridge.Stream.Outboxes

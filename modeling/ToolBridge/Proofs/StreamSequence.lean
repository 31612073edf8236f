import ToolBridge.Proofs.StreamIsolation
import ToolBridge.Proofs.StreamQueries

/-! What goes into one stream goes there in the order of delivery, whatever else happens: sessions closed, replies
handed back, or dropped. What an open stream has got came before what waits beside it. -/

namespace ToolBridge.Stream.World
open EventStream (Frame)

/-- The data that went into an outbox, whether or not its writer has taken it, and that was not handed back
without being taken. -/
def carried (outbox : Nat) (w : World) : List String :=
  (w.taken outbox ++ w.registry.outboxes.frames outbox).map (·.data)

/-- While each stream is opened under a connection of its own, no connection has two. -/
theorem single_step {w : World} {action : Action} (single : (w.openings.map (·.connection)).Nodup)
    (fresh : w.Fresh action) : ((w.step action).openings.map (·.connection)).Nodup := by
  cases action with
  | register connection session resume => exact single_stepRegister single session resume fresh
  | _ => rwa [(step_narrowed _ (by simp)).openings]

structure Sequenced (w : World) : Prop where
  recorded : w.Recorded
  /-- No two streams are opened under one connection. -/
  single : (w.openings.map (·.connection)).Nodup
  streams : ∀ opening ∈ w.openings, (w.carried opening.outbox).Sublist (w.delivered opening.session)
  buffers : ∀ session, (w.registry.pendingOf session).Sublist (w.delivered session)
  behind : ∀ connection c, w.registry.connections.get? connection = some c →
    (w.carried c.outbox ++ w.registry.pendingOf c.session).Sublist (w.delivered c.session)

namespace Sequenced
variable {w : World}

theorem initial : Sequenced {} := by
  refine ⟨.initial, ?_, ?_, ?_, ?_⟩ <;> simp [Registry.pendingOf, Entries.get?]

/-- Where nothing new goes into a stream or waits for one, all stays in order. -/
private theorem shrunk (sequenced : w.Sequenced) {after : World} (recorded : after.Recorded)
    (openings : after.openings = w.openings) (delivered : after.delivered = w.delivered)
    (connections : ∀ connection c, after.registry.connections.get? connection = some c →
      w.registry.connections.get? connection = some c)
    (carried : ∀ box, (after.carried box).Sublist (w.carried box))
    (pending : ∀ session, (after.registry.pendingOf session).Sublist (w.registry.pendingOf session)) :
    after.Sequenced := by
  refine ⟨recorded, openings ▸ sequenced.single, ?_, ?_, ?_⟩
  · intro opening member
    rw [delivered]
    exact (carried _).trans (sequenced.streams opening (openings ▸ member))
  · intro session
    rw [delivered]
    exact (pending session).trans (sequenced.buffers session)
  · intro connection c open_
    rw [delivered]
    exact ((carried _).append (pending _)).trans (sequenced.behind connection c (connections connection c open_))

private theorem reduced_preserves (sequenced : w.Sequenced) {after : World} (recorded : after.Recorded)
    (reduced : Reduced w after) : after.Sequenced := by
  refine sequenced.shrunk recorded reduced.openings reduced.delivered reduced.connections ?_ ?_
  · intro box
    simp only [carried, reduced.taken]
    rcases reduced.frames box with same | empty
    · rw [same]
    · rw [empty, List.append_nil, List.map_append]
      exact List.sublist_append_left ..
  · intro session
    rcases reduced.pending session with same | empty
    · rw [same]
    · rw [empty]
      exact List.nil_sublist _

private theorem stepReceive_preserves (sequenced : w.Sequenced) (outbox : Nat)
    (recorded : (w.stepReceive outbox).Recorded) : (w.stepReceive outbox).Sequenced := by
  refine sequenced.shrunk recorded rfl rfl (fun _ _ open_ => open_) ?_ fun _ => List.Sublist.refl _
  intro box
  rw [carried, carried, stepReceive_moves]

private theorem stepRegister_preserves (sequenced : w.Sequenced) (connection : Nat) (session : String)
    (resume : Option Int) (fresh : w.Fresh (.register connection session resume))
    (recorded : (w.stepRegister connection session resume).Recorded) :
    (w.stepRegister connection session resume).Sequenced := by
  obtain ⟨sent, left, opened⟩ := w.stepRegister_opened connection session resume
  let after := w.stepRegister connection session resume
  let box := w.registry.outboxes.made + 1
  have waited : (sent ++ left).Sublist (w.delivered session) := opened.divided ▸ sequenced.buffers session
  have old : ∀ outbox, outbox ≠ box → after.carried outbox = w.carried outbox := by
    intro outbox different
    rw [carried, opened.frames, if_neg different]
    rfl
  have new : after.carried box = sent := by
    change (w.taken box ++ after.registry.outboxes.frames box).map _ = _
    rw [opened.frames, if_pos rfl, (sequenced.recorded.unused box (Nat.lt_succ_self _)).2, List.nil_append,
      numbered_data]
  have added : after.openings = w.openings ++ [⟨connection, session, box⟩] := stepRegister_openings ..
  refine ⟨recorded, ?_, ?_, ?_, ?_⟩
  · exact single_step sequenced.single fresh
  · intro opening member
    rw [added, List.mem_append, List.mem_singleton] at member
    rcases member with earlier | rfl
    · have bound := sequenced.recorded.boxes opening earlier
      rw [old _ (by omega)]
      exact sequenced.streams opening earlier
    · rw [new]
      exact (List.sublist_append_left ..).trans waited
  · intro other
    rw [opened.pendingOf]
    split
    next same =>
      subst same
      exact (List.sublist_append_right ..).trans waited
    next => exact sequenced.buffers other
  · intro number c open_
    rw [opened.pendingOf]
    rcases sequenced.recorded.consistent.open_after opened open_ with ⟨_, rfl⟩ | ⟨_, earlier, different⟩
    · rw [if_pos rfl, new]
      exact waited
    · have bound := sequenced.recorded.consistent.boxes number c earlier
      rw [if_neg different, old _ (by omega)]
      exact sequenced.behind number c earlier

/-- What was delivered grows at its end, if at all. -/
private theorem delivered_grows (session data other : String) :
    (w.delivered other).Sublist ((w.stepDeliver session data).delivered other) := by
  simp only [stepDeliver]
  split
  next same =>
    subst same
    exact List.sublist_append_left ..
  next => exact List.Sublist.refl _

/-- A reply that a stream takes goes behind all that the stream has got, and overtakes none that waits. -/
private theorem carries_preserves (sequenced : w.Sequenced) {session data : String} {connection : Nat} {c : Connection}
    (carries : w.Carries session data connection c) (recorded : (w.stepDeliver session data).Recorded) :
    (w.stepDeliver session data).Sequenced := by
  let after := w.stepDeliver session data
  have grown := fun other => delivered_grows (w := w) session data other
  have owner := sequenced.recorded.opened connection c carries.open_
  have old : ∀ outbox, outbox ≠ c.outbox → after.carried outbox = w.carried outbox := by
    intro outbox beside
    rw [carried, carries.frames_beside beside]
    rfl
  have new : (after.carried c.outbox).Sublist (after.delivered session) := by
    have arrived : after.delivered session = w.delivered session ++ [data] := if_pos rfl
    rw [carried, carries.frames_own, arrived, ← List.append_assoc, List.map_append]
    exact (carries.belongs ▸ sequenced.streams _ owner).append (List.Sublist.refl _)
  refine ⟨recorded, sequenced.single, ?_, ?_, ?_⟩
  · intro opening member
    by_cases here : opening.outbox = c.outbox
    · obtain rfl := sequenced.recorded.owner member owner here
      rw [carries.belongs]
      exact new
    · rw [old _ here]
      exact (sequenced.streams opening member).trans (grown _)
  · intro other
    rw [carries.pending]
    exact (sequenced.buffers other).trans (grown other)
  · intro number e found
    rw [carries.pending]
    rw [carries.streamed.connections] at found
    split at found
    · cases found
      rw [carries.belongs, carries.idle, List.append_nil]
      exact new
    next different =>
      have beside : e.outbox ≠ c.outbox := fun shared =>
        different (congrArg Opening.connection
          (sequenced.recorded.owner (sequenced.recorded.opened number e found) owner shared))
      rw [old _ beside]
      exact (sequenced.behind number e found).trans (grown _)

private theorem shelves_preserves (sequenced : w.Sequenced) {session data : String} (shelves : w.Shelves session data)
    (recorded : (w.stepDeliver session data).Recorded) : (w.stepDeliver session data).Sequenced := by
  let after := w.stepDeliver session data
  have grown := fun other => delivered_grows (w := w) session data other
  have still : ∀ outbox, after.carried outbox = w.carried outbox := by
    intro outbox
    rw [carried, shelves.frames]
    rfl
  refine ⟨recorded, sequenced.single, ?_, ?_, ?_⟩
  · intro opening member
    rw [still]
    exact (sequenced.streams opening member).trans (grown _)
  · intro other
    rw [shelves.pending]
    split
    next here =>
      have arrived : after.delivered session = w.delivered session ++ [data] := if_pos rfl
      rw [here, arrived]
      exact (sequenced.buffers session).append (List.Sublist.refl _)
    next => exact (sequenced.buffers other).trans (grown other)
  · intro number e found
    obtain ⟨before, different⟩ := shelves.connections number e found
    rw [shelves.pending, if_neg different, still]
    exact (sequenced.behind number e before).trans (grown _)

private theorem stepDeliver_preserves (sequenced : w.Sequenced) (session data : String)
    (recorded : (w.stepDeliver session data).Recorded) : (w.stepDeliver session data).Sequenced := by
  rcases sequenced.recorded.carries_or_shelves session data with ⟨_, _, carries⟩ | shelves
  · exact sequenced.carries_preserves carries recorded
  · exact sequenced.shelves_preserves shelves recorded

/-- What a writer hands back is the frame that it took last, if any, and all that still waits in its outbox. -/
private theorem handed_back {taken frames : List Frame} {failed : Option Frame}
    (last : failed = none ∨ failed = taken.getLast?) :
    (Registry.replies (failed.toList ++ frames)).Sublist ((taken ++ frames).map (·.data)) := by
  refine (List.filter_sublist.map _).trans ((List.Sublist.append ?_ (List.Sublist.refl _)).map _)
  cases failed with
  | none => exact List.nil_sublist _
  | some frame =>
    have final : taken.getLast? = some frame := by simpa [eq_comm] using last
    exact List.singleton_sublist.mpr (List.mem_of_getLast? final)

private theorem stepFail_preserves (sequenced : w.Sequenced) {connection outbox : Nat} {failed : Option Frame}
    (given : w.Given (.fail connection failed outbox)) (recorded : (w.stepFail connection failed outbox).Recorded) :
    (w.stepFail connection failed outbox).Sequenced := by
  obtain ⟨⟨opening, member, rfl, rfl⟩, last⟩ := given
  cases open_ : w.registry.connections.get? opening.connection with
  | none =>
    have same := w.stepFail_absent failed opening.outbox open_
    refine sequenced.shrunk recorded rfl rfl ?_ ?_ ?_
    · rw [same]
      exact fun _ _ found => found
    · intro box
      rw [carried, same]
      exact List.Sublist.refl _
    · rw [same]
      exact fun _ => List.Sublist.refl _
  | some c =>
    -- The writer holds the outbox that its connection was opened with.
    have own : opening.outbox = c.outbox := congrArg Opening.outbox
      (List.inj_on_of_nodup_map sequenced.single member (sequenced.recorded.opened _ c open_) rfl)
    rw [own] at last recorded ⊢
    have gone := w.stepFail_failed failed c.outbox open_
    let after := w.stepFail opening.connection failed c.outbox
    have carried : ∀ box, (after.carried box).Sublist (w.carried box) := by
      intro box
      rw [World.carried, gone.frames]
      split
      · rw [List.append_nil, World.carried, List.map_append]
        exact List.sublist_append_left ..
      · exact List.Sublist.refl _
    refine ⟨recorded, sequenced.single, ?_, ?_, ?_⟩
    · exact fun other known => (carried other.outbox).trans (sequenced.streams other known)
    · intro session
      rw [gone.pendingOf]
      split
      next same =>
        subst same
        exact ((handed_back last).append (List.Sublist.refl _)).trans (sequenced.behind _ c open_)
      next => exact sequenced.buffers session
    · intro number d found
      rw [connections_stepFail] at found
      split at found
      · cases found
      next different =>
        rw [gone.pendingOf, if_neg fun same => different (sequenced.recorded.consistent.only found open_ same)]
        exact ((carried d.outbox).append (List.Sublist.refl _)).trans (sequenced.behind number d found)

theorem step_preserves (sequenced : w.Sequenced) (action : Action) (fresh : w.Fresh action) (given : w.Given action) :
    (w.step action).Sequenced := by
  have recorded := sequenced.recorded.step_preserves action (sequenced.recorded.fresh_sound fresh)
  cases action with
  | register connection session resume => exact sequenced.stepRegister_preserves connection session resume fresh recorded
  | deliver session data => exact sequenced.stepDeliver_preserves session data recorded
  | fail connection failed outbox => exact sequenced.stepFail_preserves given recorded
  | receive outbox => exact sequenced.stepReceive_preserves outbox recorded
  | _ => exact sequenced.reduced_preserves recorded (step_reduced (by trivial))

end Sequenced

end ToolBridge.Stream.World

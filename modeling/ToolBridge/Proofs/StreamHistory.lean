import Mathlib.Data.List.Nodup
import ToolBridge.Proofs.StreamConsistency

/-! Runs of a registry with a record of what happened: the streams opened, what was delivered for
each session, and what each writer took out of its outbox and handed back. The record decides
nothing; statements about whole runs are made in its terms. -/

namespace ToolBridge.Stream
open EventStream (Frame)

/-- What the server and the writers of streams do with a registry. -/
inductive Action where
  | register (connection : Nat) (session : String) (resume : Option Int)
  | deliver (session data : String)
  | unregister (connection : Nat)
  /-- A writer gives up, with the frame that it could not write. -/
  | fail (connection : Nat) (failed : Option Frame) (outbox : Nat)
  | receive (outbox : Nat)
  | letGo (outbox : Nat)
  | closeSession (session : String)
  | discardPending (session : String)
  | closeAll

def Action.perform (r : Registry) : Action → Registry
  | .register connection session resume => (r.register connection session resume).2
  | .deliver session data => (r.deliver session data).2
  | .unregister connection => (r.unregister connection).2
  | .fail connection failed outbox => (r.fail connection failed outbox).2
  | .receive outbox => { r with outboxes := (r.outboxes.receive outbox).2 }
  | .letGo outbox => { r with outboxes := r.outboxes.endRead outbox }
  | .closeSession session => (r.closeSession session).2
  | .discardPending session => (r.discardPending session).2
  | .closeAll => r.closeAll.2

structure Opening where
  connection : Nat
  session : String
  outbox : Nat
deriving DecidableEq, Repr

structure World where
  registry : Registry := {}
  /-- The streams opened so far, oldest first. -/
  openings : List Opening := []
  /-- What was passed to `deliver` for a session, in order. -/
  delivered : String → List String := fun _ => []
  /-- What the writer of an outbox has taken, in order. -/
  taken : Nat → List Frame := fun _ => []
  /-- The frame that the writer of an outbox has handed back, if it has. -/
  returned : Nat → Option Frame := fun _ => none
  /-- The outboxes of streams that were taken out because they could not take a reply. -/
  refused : List Nat := []
  /-- The outboxes whose writers have given up. -/
  abandoned : List Nat := []

namespace World

def stepRegister (connection : Nat) (session : String) (resume : Option Int) (w : World) : World :=
  let (registration, registry) := w.registry.register connection session resume
  { w with registry, openings := w.openings ++ [⟨connection, session, registration.outbox⟩] }

def stepDeliver (session data : String) (w : World) : World :=
  let (delivery, registry) := w.registry.deliver session data
  { w with
    registry
    delivered := fun other => if other = session then w.delivered session ++ [data] else w.delivered other
    refused := match delivery, (w.registry.current.get? session).bind w.registry.connections.get? with
      | .buffered, some c => w.refused ++ [c.outbox]
      | _, _ => w.refused }

def stepFail (connection : Nat) (failed : Option Frame) (outbox : Nat) (w : World) : World :=
  { w with
    registry := (w.registry.fail connection failed outbox).2
    returned := fun other => if other = outbox then failed else w.returned other
    abandoned := w.abandoned ++ [outbox] }

def stepReceive (outbox : Nat) (w : World) : World :=
  let (found, outboxes) := w.registry.outboxes.receive outbox
  { w with
    registry := { w.registry with outboxes }
    taken := match found with
      | .frame frame => fun other => if other = outbox then w.taken outbox ++ [frame] else w.taken other
      | _ => w.taken }

def step (w : World) : Action → World
  | .register connection session resume => w.stepRegister connection session resume
  | .deliver session data => w.stepDeliver session data
  | .fail connection failed outbox => w.stepFail connection failed outbox
  | .receive outbox => w.stepReceive outbox
  | action => { w with registry := action.perform w.registry }

/-- The record never changes what the registry does. -/
theorem registry_step (w : World) (action : Action) : (w.step action).registry = action.perform w.registry := by
  cases action <;> rfl

def run (w : World) (actions : List Action) : World := actions.foldl step w

def Lawful (permitted : World → Action → Prop) (w : World) : List Action → Prop
  | [] => True
  | action :: rest => permitted w action ∧ Lawful permitted (w.step action) rest

instance lawfulDecidable (permitted : World → Action → Prop) [∀ w action, Decidable (permitted w action)] :
    (w : World) → (actions : List Action) → Decidable (Lawful permitted w actions)
  | _, [] => inferInstanceAs (Decidable True)
  | w, action :: rest =>
    have := lawfulDecidable permitted (w.step action) rest
    inferInstanceAs (Decidable (permitted w action ∧ Lawful permitted (w.step action) rest))

theorem run_preserves {permitted : World → Action → Prop} {holds : World → Prop}
    (preserves : ∀ w action, holds w → permitted w action → holds (w.step action))
    {w : World} {actions : List Action} (start : holds w) (lawful : Lawful permitted w actions) :
    holds (w.run actions) := by
  induction actions generalizing w with
  | nil => exact start
  | cons action rest ih => exact ih (preserves w action start lawful.1) lawful.2

/-- The replies that a writer leaves behind: the one it failed on, and all still in its outbox. -/
def undelivered (failed : Option Frame) (outbox : Nat) (w : World) : List String :=
  Registry.replies (failed.toList ++ w.registry.outboxes.frames outbox)

def openingsOf (session : String) (w : World) : List Opening := w.openings.filter (·.session = session)

theorem mem_openingsOf {w : World} {session : String} {opening : Opening} :
    opening ∈ w.openingsOf session ↔ opening ∈ w.openings ∧ opening.session = session := by
  simp [openingsOf]

theorem newest_mem {w : World} {session : String} {earlier : List Opening} {newest : Opening}
    (shape : w.openingsOf session = earlier ++ [newest]) : newest ∈ w.openings ∧ newest.session = session := by
  rw [← mem_openingsOf, shape]
  simp

/-- Outboxes are not shared between streams, and hold nothing but replies. -/
structure Traced (w : World) : Prop where
  boxes : ∀ opening ∈ w.openings, opening.outbox ≤ w.registry.outboxes.made
  distinct : (w.openings.map (·.outbox)).Nodup
  opened : ∀ connection c, w.registry.connections.get? connection = some c →
    ⟨connection, c.session, c.outbox⟩ ∈ w.openings
  unused : ∀ box, w.registry.outboxes.made < box →
    w.registry.outboxes.frames box = [] ∧ w.taken box = []
  messages : ∀ box, ∀ frame ∈ w.taken box ++ w.registry.outboxes.frames box, frame.event = some "message"

/-- The maps of the registry agree, and an open connection is the newest stream of its session. -/
structure Recorded (w : World) : Prop extends Traced w where
  consistent : w.registry.Consistent
  newest : ∀ connection c, w.registry.connections.get? connection = some c →
    ∃ earlier, w.openingsOf c.session = earlier ++ [⟨connection, c.session, c.outbox⟩]

/-- No connection is registered for one session while it is open for another. -/
def Sound (w : World) : Action → Prop
  | .register connection session _ => w.registry.Free connection session
  | _ => True

variable {w : World}

/-! ## Actions that open no stream -/

/-- What every action but a registration leaves as it was. -/
structure Narrowed (before after : World) : Prop where
  openings : after.openings = before.openings
  made : after.registry.outboxes.made = before.registry.outboxes.made
  connections : ∀ connection c, after.registry.connections.get? connection = some c →
    ∃ d, before.registry.connections.get? connection = some d ∧ c.session = d.session ∧ c.outbox = d.outbox
  /-- Only the outbox of an open connection gets anything new. -/
  frames : ∀ box, ∀ frame ∈ after.registry.outboxes.frames box,
    frame ∈ before.registry.outboxes.frames box ∨ frame.event = some "message" ∧
      ∃ connection d, before.registry.connections.get? connection = some d ∧ d.outbox = box
  taken : ∀ box, ∀ frame ∈ after.taken box, frame ∈ before.taken box ++ before.registry.outboxes.frames box

/-- Taking out connections narrows, whatever happens to waiting replies. -/
private theorem narrowed_of_connections {after : World} (openings : after.openings = w.openings)
    (made : after.registry.outboxes.made = w.registry.outboxes.made)
    (connections : ∀ connection c, after.registry.connections.get? connection = some c →
      w.registry.connections.get? connection = some c)
    (taken : after.taken = w.taken)
    (frames : ∀ box, after.registry.outboxes.frames box ⊆ w.registry.outboxes.frames box) :
    Narrowed w after := by
  refine ⟨openings, made, fun connection c found => ⟨c, connections connection c found, rfl, rfl⟩, ?_, ?_⟩
  · exact fun box frame member => Or.inl (frames box member)
  · intro box frame member
    rw [taken] at member
    exact List.mem_append_left _ member

theorem stepDeliver_narrowed (session data : String) :
    Narrowed w (w.stepDeliver session data) := by
  rcases w.registry.deliver_cases session data with ⟨connection, d, accepts, _, streamed⟩ | ⟨_, _, same⟩
  · obtain ⟨_, open_, _, _⟩ := accepts
    refine ⟨rfl, streamed.made, ?_, ?_, fun _ _ member => List.mem_append_left _ member⟩
    · intro other c found
      have found : (w.registry.deliver session data).2.connections.get? other = some c := found
      rw [streamed.connections] at found
      split at found
      next same =>
        cases found
        exact ⟨d, same ▸ open_, rfl, rfl⟩
      next => exact ⟨c, found, rfl, rfl⟩
    · intro box frame member
      have member : frame ∈ (w.registry.deliver session data).2.outboxes.frames box := member
      rw [streamed.frames] at member
      split at member
      next same =>
        rw [List.mem_append, List.mem_singleton] at member
        rcases member with old | rfl
        · exact Or.inl old
        · exact Or.inr ⟨rfl, connection, d, open_, same.symm⟩
      next => exact Or.inl member
  · have registry : (w.stepDeliver session data).registry =
        (w.registry.withoutStream session).buffer session data := same
    refine narrowed_of_connections rfl ?_ ?_ rfl ?_
    · rw [registry]
      exact Registry.made_withoutStream ..
    · intro other c found
      rw [registry] at found
      exact Registry.withoutStream_subset _ _ _ found
    · intro box
      rw [registry]
      change (w.registry.withoutStream session).outboxes.frames box ⊆ _
      rw [Registry.frames_withoutStream]
      exact List.Subset.refl _

theorem stepRegister_opened (w : World) (connection : Nat) (session : String) (resume : Option Int) :
    ∃ sent left, w.registry.Opened connection session resume sent left
      (w.registry.register connection session resume).1 (w.stepRegister connection session resume).registry :=
  w.registry.register_opened connection session resume

theorem stepFail_failed (w : World) {connection : Nat} {c : Connection} (failed : Option Frame) (outbox : Nat)
    (open_ : w.registry.connections.get? connection = some c) :
    w.registry.Failed connection c failed outbox (w.stepFail connection failed outbox).registry :=
  (w.registry.fail_failed failed outbox open_).2

theorem connections_stepFail (w : World) (connection : Nat) (failed : Option Frame) (outbox other : Nat) :
    (w.stepFail connection failed outbox).registry.connections.get? other =
      if other = connection then none else w.registry.connections.get? other :=
  Registry.connections_fail ..

theorem stepFail_absent (w : World) {connection : Nat} (failed : Option Frame) (outbox : Nat)
    (absent : w.registry.connections.get? connection = none) :
    (w.stepFail connection failed outbox).registry = w.registry := by
  simp only [stepFail, Registry.fail_absent _ failed outbox absent]

theorem stepFail_narrowed (connection : Nat) (failed : Option Frame) (outbox : Nat) :
    Narrowed w (w.stepFail connection failed outbox) := by
  cases open_ : w.registry.connections.get? connection with
  | none =>
    have same := w.stepFail_absent failed outbox open_
    refine narrowed_of_connections rfl ?_ ?_ rfl ?_
    · rw [same]
    · rw [same]
      exact fun _ _ found => found
    · rw [same]
      exact fun _ _ member => member
  | some c =>
    have gone := w.stepFail_failed failed outbox open_
    refine narrowed_of_connections rfl gone.made ?_ rfl ?_
    · intro other d found
      rw [gone.connections] at found
      exact Registry.remove_subset _ _ _ found
    · intro box
      rw [gone.frames]
      split
      · exact List.nil_subset _
      · exact List.Subset.refl _

/-- A frame goes from the front of an outbox to the end of what its writer has taken. -/
theorem stepReceive_moves (outbox box : Nat) :
    (w.stepReceive outbox).taken box ++ (w.stepReceive outbox).registry.outboxes.frames box =
      w.taken box ++ w.registry.outboxes.frames box := by
  change _ ++ (w.registry.outboxes.receive outbox).2.frames box = _
  rcases w.registry.outboxes.received outbox with ⟨frame, rest, waiting, found, _, frames⟩ | ⟨_, _, same⟩
  · have taken : (w.stepReceive outbox).taken box =
        if box = outbox then w.taken outbox ++ [frame] else w.taken box := by
      simp only [stepReceive, found]
    rw [taken, frames]
    split
    next here => rw [here, waiting, List.append_assoc, List.singleton_append]
    next => rfl
  · rw [same]
    simp only [stepReceive]

theorem stepReceive_narrowed (outbox : Nat) : Narrowed w (w.stepReceive outbox) := by
  have made : (w.registry.outboxes.receive outbox).2.made = w.registry.outboxes.made := Outboxes.made_receive ..
  refine ⟨rfl, made, fun connection c open_ => ⟨c, open_, rfl, rfl⟩, ?_, ?_⟩
  · intro box frame member
    have member : frame ∈ (w.registry.outboxes.receive outbox).2.frames box := member
    rcases w.registry.outboxes.received outbox with ⟨other, rest, waiting, _, _, frames⟩ | ⟨_, _, same⟩
    · rw [frames] at member
      split at member
      next here => exact Or.inl (by simp [here, waiting, member])
      next => exact Or.inl member
    · exact Or.inl (same ▸ member)
  · intro box frame member
    rw [← w.stepReceive_moves outbox box]
    exact List.mem_append_left _ member

/-- Nothing moves, except out of the way. -/
structure Reduced (before after : World) : Prop where
  openings : after.openings = before.openings
  delivered : after.delivered = before.delivered
  taken : after.taken = before.taken
  made : after.registry.outboxes.made = before.registry.outboxes.made
  connections : ∀ connection c, after.registry.connections.get? connection = some c →
    before.registry.connections.get? connection = some c
  frames : ∀ box, after.registry.outboxes.frames box = before.registry.outboxes.frames box ∨
    after.registry.outboxes.frames box = []
  pending : ∀ session, after.registry.pendingOf session = before.registry.pendingOf session ∨
    after.registry.pendingOf session = []

theorem Reduced.narrowed {after : World} (reduced : Reduced w after) : Narrowed w after := by
  refine narrowed_of_connections reduced.openings reduced.made reduced.connections reduced.taken ?_
  intro box
  rcases reduced.frames box with same | empty
  · rw [same]
    exact List.Subset.refl _
  · rw [empty]
    exact List.nil_subset _

/-- Actions that take something out of the registry, and put nothing in. -/
def Action.Reducing : Action → Prop
  | .unregister _ | .letGo _ | .closeSession _ | .discardPending _ | .closeAll => True
  | _ => False

private theorem pending_cut (r : Registry) (session other : String) :
    (r.setPending session []).pendingOf other = r.pendingOf other ∨ (r.setPending session []).pendingOf other = [] := by
  rw [Registry.pendingOf_setPending]
  split
  · exact Or.inr rfl
  · exact Or.inl rfl

theorem step_reduced {action : Action} (reducing : Action.Reducing action) : Reduced w (w.step action) := by
  cases action with
  | unregister connection =>
    refine ⟨rfl, rfl, rfl, Registry.made_remove .., fun _ _ found => Registry.remove_subset _ _ _ found, ?_, ?_⟩
    · exact fun box => Or.inl (Registry.frames_remove ..)
    · exact fun session => Or.inl (Registry.pendingOf_congr (Registry.pending_remove ..) session)
  | letGo outbox =>
    refine ⟨rfl, rfl, rfl, Outboxes.made_endRead .., fun _ _ found => found, ?_, fun _ => Or.inl rfl⟩
    intro box
    change (w.registry.outboxes.endRead outbox).frames box = _ ∨ (w.registry.outboxes.endRead outbox).frames box = []
    rw [Outboxes.frames_endRead]
    split
    · exact Or.inr rfl
    · exact Or.inl rfl
  | closeSession session =>
    have after : (w.step (.closeSession session)).registry =
        (w.registry.setPending session []).withoutStream session := w.registry.closeSession_after session
    refine ⟨rfl, rfl, rfl, ?_, ?_, ?_, ?_⟩ <;> rw [after]
    · exact Registry.made_withoutStream ..
    · exact fun other c found => Registry.withoutStream_subset (w.registry.setPending session []) _ _ found
    · exact fun box => Or.inl (Registry.frames_withoutStream ..)
    · intro other
      rw [Registry.pendingOf_congr (Registry.pending_withoutStream ..)]
      exact pending_cut ..
  | discardPending session =>
    exact ⟨rfl, rfl, rfl, rfl, fun _ _ found => found, fun _ => Or.inl rfl, pending_cut w.registry session⟩
  | closeAll =>
    refine ⟨rfl, rfl, rfl, Registry.made_closeAll _, ?_, ?_, fun _ => Or.inr rfl⟩
    · intro other c found
      change Entries.get? other [] = some c at found
      cases found
    · exact fun box => Or.inl (Registry.frames_closeAll ..)
  | _ => exact reducing.elim

theorem step_narrowed (action : Action)
    (other : ∀ connection session resume, action ≠ .register connection session resume) :
    Narrowed w (w.step action) := by
  cases action with
  | register connection session resume => exact absurd rfl (other connection session resume)
  | deliver session data => exact stepDeliver_narrowed session data
  | fail connection failed outbox => exact stepFail_narrowed connection failed outbox
  | receive outbox => exact stepReceive_narrowed outbox
  | _ => exact (step_reduced (by trivial)).narrowed

/-! ## Every action -/

theorem stepRegister_openings (connection : Nat) (session : String) (resume : Option Int) :
    (w.stepRegister connection session resume).openings =
      w.openings ++ [⟨connection, session, w.registry.outboxes.made + 1⟩] := by
  obtain ⟨_, _, opened⟩ := w.stepRegister_opened connection session resume
  simp only [stepRegister, opened.outbox]

theorem openingsOf_opened (connection : Nat) (session : String) (resume : Option Int) :
    (w.stepRegister connection session resume).openingsOf session =
      w.openingsOf session ++ [⟨connection, session, w.registry.outboxes.made + 1⟩] := by
  rw [openingsOf, stepRegister_openings, List.filter_append]
  simp [openingsOf]

theorem openingsOf_beside (connection : Nat) {session other : String} (resume : Option Int) (different : other ≠ session) :
    (w.stepRegister connection session resume).openingsOf other = w.openingsOf other := by
  rw [openingsOf, stepRegister_openings, List.filter_append]
  simp [openingsOf, Ne.symm different]

/-- Streams that were opened under different connections stay so while new connections are fresh. -/
theorem single_stepRegister (single : (w.openings.map (·.connection)).Nodup) {connection : Nat} (session : String)
    (resume : Option Int) (fresh : ∀ opening ∈ w.openings, opening.connection ≠ connection) :
    ((w.stepRegister connection session resume).openings.map (·.connection)).Nodup := by
  rw [stepRegister_openings, List.map_append, List.nodup_append]
  refine ⟨single, by simp, ?_⟩
  intro number member other here
  obtain ⟨opening, earlier, rfl⟩ := List.mem_map.mp member
  rw [List.map_singleton, List.mem_singleton] at here
  exact here ▸ fresh opening earlier

namespace Traced

theorem initial : Traced {} := by
  refine ⟨?_, ?_, ?_, ?_, ?_⟩ <;> simp [Outboxes.frames, Entries.get?]

theorem owner (traced : w.Traced) {first last : Opening} (member₁ : first ∈ w.openings)
    (member₂ : last ∈ w.openings) (same : first.outbox = last.outbox) : first = last :=
  List.inj_on_of_nodup_map traced.distinct member₁ member₂ same

theorem stepRegister_preserves (traced : w.Traced) (connection : Nat) (session : String)
    (resume : Option Int) : (w.stepRegister connection session resume).Traced := by
  obtain ⟨sent, left, opened⟩ := w.stepRegister_opened connection session resume
  have made := opened.made
  have added : (w.stepRegister connection session resume).openings = _ := stepRegister_openings ..
  refine ⟨?_, ?_, ?_, ?_, ?_⟩
  · intro opening member
    rw [added, List.mem_append, List.mem_singleton] at member
    rw [made]
    rcases member with old | rfl
    · exact Nat.le_succ_of_le (traced.boxes opening old)
    · exact Nat.le_refl _
  · rw [added, List.map_append, List.nodup_append]
    refine ⟨traced.distinct, by simp, ?_⟩
    intro box old other fresh
    obtain ⟨opening, member, rfl⟩ := List.mem_map.mp old
    rw [List.map_singleton, List.mem_singleton] at fresh
    have bound := traced.boxes opening member
    dsimp only at fresh ⊢
    omega
  · intro other c found
    rw [added, List.mem_append, List.mem_singleton]
    rw [opened.connections] at found
    split at found
    next same =>
      cases found
      exact Or.inr (same ▸ rfl)
    next =>
      split at found
      · cases found
      · exact Or.inl (traced.opened other c found)
  · intro box beyond
    have beyond : w.registry.outboxes.made + 1 < box := made ▸ beyond
    obtain ⟨empty, untaken⟩ := traced.unused box (by omega)
    refine ⟨?_, untaken⟩
    rw [opened.frames, if_neg (by omega), empty]
  · intro box frame member
    rw [opened.frames] at member
    split at member
    · rcases List.mem_append.mp member with old | fresh
      · exact traced.messages box frame (List.mem_append_left _ old)
      · exact numbered_messages _ _ frame fresh
    · exact traced.messages box frame member

theorem narrowed_preserves (traced : w.Traced) {after : World} (narrowed : Narrowed w after) :
    after.Traced := by
  refine ⟨?_, ?_, ?_, ?_, ?_⟩
  · rw [narrowed.openings, narrowed.made]
    exact traced.boxes
  · rw [narrowed.openings]
    exact traced.distinct
  · intro connection c found
    obtain ⟨d, old, session, outbox⟩ := narrowed.connections connection c found
    rw [narrowed.openings, session, outbox]
    exact traced.opened connection d old
  · intro box beyond
    rw [narrowed.made] at beyond
    obtain ⟨empty, untaken⟩ := traced.unused box beyond
    constructor <;> apply List.eq_nil_iff_forall_not_mem.mpr <;> intro frame member
    · rcases narrowed.frames box frame member with old | ⟨_, connection, d, open_, rfl⟩
      · simp [empty] at old
      · have inside := traced.boxes _ (traced.opened connection d open_)
        dsimp only at inside
        omega
    · have old := narrowed.taken box frame member
      simp [empty, untaken] at old
  · intro box frame member
    rcases List.mem_append.mp member with taken | waiting
    · exact traced.messages box frame (narrowed.taken box frame taken)
    · rcases narrowed.frames box frame waiting with old | ⟨message, _⟩
      · exact traced.messages box frame (List.mem_append_right _ old)
      · exact message

theorem step_preserves (traced : w.Traced) (action : Action) : (w.step action).Traced := by
  cases action with
  | register connection session resume => exact traced.stepRegister_preserves connection session resume
  | _ => exact traced.narrowed_preserves (step_narrowed _ (by simp))

theorem run_traced (actions : List Action) : (run {} actions).Traced :=
  List.foldlRecOn actions step initial fun _ traced action _ => traced.step_preserves action

end Traced

namespace Recorded

theorem initial : Recorded {} :=
  ⟨.initial, .initial, by simp [Entries.get?]⟩

theorem free_of_fresh (recorded : w.Recorded) {connection : Nat}
    (fresh : ∀ opening ∈ w.openings, opening.connection ≠ connection) (session : String) :
    w.registry.Free connection session :=
  fun _ open_ => absurd rfl (fresh _ (recorded.opened _ _ open_))

theorem perform_consistent (recorded : w.Recorded) (action : Action) (sound : w.Sound action) :
    (action.perform w.registry).Consistent := by
  have valid := recorded.consistent
  cases action with
  | register connection session resume => exact valid.register_preserves connection session resume sound
  | deliver session data => exact valid.deliver_preserves session data
  | unregister connection => exact valid.remove_preserves connection
  | fail connection failed outbox => exact valid.fail_preserves connection failed outbox
  | receive outbox => exact valid.congr rfl rfl rfl (Nat.le_of_eq (Outboxes.made_receive ..).symm)
  | letGo outbox => exact valid.congr rfl rfl rfl (Nat.le_of_eq (Outboxes.made_endRead ..).symm)
  | closeSession session => exact valid.closeSession_preserves session
  | discardPending session => exact valid.setPending_preserves session [] (by simp)
  | closeAll => exact .closeAll_preserves

private theorem stepRegister_newest (recorded : w.Recorded) (connection : Nat) (session : String)
    (resume : Option Int) : ∀ other c,
    (w.stepRegister connection session resume).registry.connections.get? other = some c →
      ∃ earlier, (w.stepRegister connection session resume).openingsOf c.session =
        earlier ++ [⟨other, c.session, c.outbox⟩] := by
  obtain ⟨_, _, opened⟩ := w.stepRegister_opened connection session resume
  intro other c open_
  rcases recorded.consistent.open_after opened open_ with ⟨rfl, rfl⟩ | ⟨_, old, different⟩
  · exact ⟨w.openingsOf session, openingsOf_opened ..⟩
  · obtain ⟨earlier, same⟩ := recorded.newest other c old
    exact ⟨earlier, (openingsOf_beside _ _ different).trans same⟩

private theorem narrowed_newest (recorded : w.Recorded) {after : World} (narrowed : Narrowed w after) :
    ∀ connection c, after.registry.connections.get? connection = some c →
      ∃ earlier, after.openingsOf c.session = earlier ++ [⟨connection, c.session, c.outbox⟩] := by
  intro connection c found
  obtain ⟨d, old, session, outbox⟩ := narrowed.connections connection c found
  rw [openingsOf, narrowed.openings, session, outbox]
  exact recorded.newest connection d old

theorem step_preserves (recorded : w.Recorded) (action : Action) (sound : w.Sound action) :
    (w.step action).Recorded := by
  have consistent := recorded.perform_consistent action sound
  rw [← registry_step] at consistent
  refine ⟨recorded.toTraced.step_preserves action, consistent, ?_⟩
  cases action with
  | register connection session resume => exact recorded.stepRegister_newest connection session resume
  | _ => exact recorded.narrowed_newest (step_narrowed _ (by simp))

end Recorded

/-! ## A delivery -/

/-- An open stream of the session takes the reply, and no earlier reply waits. -/
structure Carries (session data : String) (connection : Nat) (c : Connection) (w : World) : Prop where
  open_ : w.registry.connections.get? connection = some c
  belongs : c.session = session
  idle : w.registry.pendingOf session = []
  streamed : w.registry.Streamed connection c data (w.stepDeliver session data).registry

/-- The reply waits behind those that do already, and the session has no stream. -/
structure Shelves (session data : String) (w : World) : Prop where
  connections : ∀ connection c, (w.stepDeliver session data).registry.connections.get? connection = some c →
    w.registry.connections.get? connection = some c ∧ c.session ≠ session
  frames : ∀ box, (w.stepDeliver session data).registry.outboxes.frames box = w.registry.outboxes.frames box
  pending : ∀ other, (w.stepDeliver session data).registry.pendingOf other =
    if other = session then w.registry.pendingOf session ++ [data] else w.registry.pendingOf other

theorem Carries.pending {session data : String} {connection : Nat} {c : Connection}
    (carries : w.Carries session data connection c) (other : String) :
    (w.stepDeliver session data).registry.pendingOf other = w.registry.pendingOf other :=
  Registry.pendingOf_congr carries.streamed.pending other

/-- Only the outbox of the stream gets anything new. -/
theorem Carries.frames_beside {session data : String} {connection : Nat} {c : Connection}
    (carries : w.Carries session data connection c) {box : Nat} (beside : box ≠ c.outbox) :
    (w.stepDeliver session data).registry.outboxes.frames box = w.registry.outboxes.frames box := by
  rw [carries.streamed.frames, if_neg beside]

theorem Carries.frames_own {session data : String} {connection : Nat} {c : Connection}
    (carries : w.Carries session data connection c) :
    (w.stepDeliver session data).registry.outboxes.frames c.outbox =
      w.registry.outboxes.frames c.outbox ++ [.message (c.last + 1) data] := by
  rw [carries.streamed.frames, if_pos rfl]

theorem Recorded.carries_or_shelves (recorded : w.Recorded) (session data : String) :
    (∃ connection c, w.Carries session data connection c) ∨ w.Shelves session data := by
  have after : (w.stepDeliver session data).registry = (w.registry.deliver session data).2 := rfl
  rcases w.registry.deliver_cases session data with ⟨connection, c, accepts, _, streamed⟩ | ⟨_, _, same⟩
  · obtain ⟨seen, open_, below, _⟩ := accepts
    obtain ⟨d, again, belongs⟩ := recorded.consistent.found seen
    obtain rfl : c = d := Option.some.inj (open_.symm.trans again)
    refine Or.inl ⟨connection, c, open_, belongs, ?_, streamed⟩
    -- Ids are left, so nothing waits that the reply could overtake.
    by_contra waits
    have spent := recorded.consistent.spent connection c open_ (belongs ▸ waits)
    omega
  · refine Or.inr ⟨?_, ?_, ?_⟩ <;> rw [after, same]
    · exact fun other c found => ⟨Registry.withoutStream_subset _ _ _ found, recorded.consistent.streamless found⟩
    · exact fun box => Registry.frames_withoutStream ..
    · exact fun other => Registry.pendingOf_buffered ..

end World

end ToolBridge.Stream

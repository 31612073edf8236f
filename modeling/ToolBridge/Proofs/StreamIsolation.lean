import ToolBridge.Proofs.StreamHistory

/-! Sessions share a registry and nothing else, if a connection is not registered for one session while
it is open for another, and a writer that gives up hands its outbox back for the session it was
opened for. Where either is broken, a reply or a stream of one session ends up with another. -/

namespace ToolBridge.Stream.World
open EventStream (Frame)

/-- A writer that gives up has the outbox of a stream that was opened under its connection, and the frame
that it took last or none. -/
def Given (w : World) : Action → Prop
  | .fail connection failed outbox =>
    (∃ opening ∈ w.openings, opening.connection = connection ∧ opening.outbox = outbox) ∧
      (failed = none ∨ failed = (w.taken outbox).getLast?)
  | _ => True

/-- No connection is registered for a session while it is open for another one, and none is failed with
replies of another session than the one it is open for. -/
def Apart (w : World) : Action → Prop
  | .register connection session _ => w.registry.Free connection session
  | .fail connection failed outbox => ∀ opening ∈ w.openings, opening.connection = connection →
      opening.outbox = outbox → w.registry.Free connection opening.session ∨ w.undelivered failed outbox = []
  | _ => True

instance (w : World) : (action : Action) → Decidable (w.Given action)
  | .fail _ failed _ => inferInstanceAs (Decidable ((∃ opening ∈ w.openings, _ ∧ _) ∧ (failed = none ∨ failed = _)))
  | .register .. | .deliver .. | .unregister _ | .receive _ | .letGo _ | .closeSession _ | .discardPending _
  | .closeAll => instDecidableTrue

instance (w : World) : (action : Action) → Decidable (w.Apart action)
  | .register connection session _ => inferInstanceAs (Decidable (w.registry.Free connection session))
  | .fail .. => inferInstanceAs (Decidable (∀ opening ∈ w.openings, _ → _ → _ ∨ _))
  | .deliver .. | .unregister _ | .receive _ | .letGo _ | .closeSession _ | .discardPending _ | .closeAll =>
    instDecidableTrue

/-- The action puts replies only where they belong, and closes no other session's stream. -/
def Confined (w : World) : Action → Prop
  | .deliver session data =>
    (∀ box, (w.stepDeliver session data).registry.outboxes.frames box ≠ w.registry.outboxes.frames box →
      ∃ opening ∈ w.openings, opening.outbox = box ∧ opening.session = session) ∧
    ∀ other, other ≠ session → (w.stepDeliver session data).registry.pendingOf other = w.registry.pendingOf other
  | .fail connection failed outbox => ∀ opening ∈ w.openings, opening.connection = connection →
      opening.outbox = outbox → ∀ other, other ≠ opening.session →
        (w.stepFail connection failed outbox).registry.pendingOf other = w.registry.pendingOf other
  | .closeSession session => ∀ connection, (w.registry.closeSession session).1 = some connection →
      w.registry.OpenFor connection session
  | _ => True

structure Isolated (w : World) : Prop where
  recorded : w.Recorded
  streams : ∀ opening ∈ w.openings, ∀ frame ∈ w.taken opening.outbox ++ w.registry.outboxes.frames opening.outbox,
    frame.data ∈ w.delivered opening.session
  buffers : ∀ session, ∀ data ∈ w.registry.pendingOf session, data ∈ w.delivered session

namespace Isolated
variable {w : World}

theorem initial : Isolated {} := by
  refine ⟨.initial, ?_, ?_⟩ <;> simp [Registry.pendingOf, Entries.get?]

/-- Where nothing moves except out of the way, sessions stay apart. -/
private theorem shrunk (isolated : w.Isolated) {after : World} (recorded : after.Recorded)
    (openings : after.openings = w.openings) (delivered : after.delivered = w.delivered)
    (streams : ∀ box, ∀ frame ∈ after.taken box ++ after.registry.outboxes.frames box,
      frame ∈ w.taken box ++ w.registry.outboxes.frames box)
    (buffers : ∀ session, after.registry.pendingOf session ⊆ w.registry.pendingOf session) : after.Isolated := by
  refine ⟨recorded, ?_, ?_⟩
  · intro opening member frame inside
    rw [openings] at member
    rw [delivered]
    exact isolated.streams opening member frame (streams _ frame inside)
  · intro session data inside
    rw [delivered]
    exact isolated.buffers session data (buffers session inside)

private theorem reduced_preserves (isolated : w.Isolated) {after : World} (recorded : after.Recorded)
    (reduced : Reduced w after) : after.Isolated := by
  refine isolated.shrunk recorded reduced.openings reduced.delivered ?_ ?_
  · intro box frame inside
    rw [reduced.taken] at inside
    rcases reduced.frames box with same | empty
    · exact same ▸ inside
    · rw [empty, List.append_nil] at inside
      exact List.mem_append_left _ inside
  · intro session data inside
    rcases reduced.pending session with same | empty
    · exact same ▸ inside
    · simp [empty] at inside

private theorem stepRegister_preserves (isolated : w.Isolated) (connection : Nat) (session : String)
    (resume : Option Int) (recorded : (w.stepRegister connection session resume).Recorded) :
    (w.stepRegister connection session resume).Isolated := by
  obtain ⟨sent, left, opened⟩ := w.stepRegister_opened connection session resume
  have waited : ∀ data ∈ sent ++ left, data ∈ w.delivered session :=
    fun data inside => isolated.buffers session data (opened.divided ▸ inside)
  refine ⟨recorded, ?_, ?_⟩
  · intro opening member frame inside
    rw [stepRegister_openings, List.mem_append, List.mem_singleton] at member
    change frame ∈ w.taken opening.outbox ++ _ at inside
    rw [opened.frames] at inside
    rcases member with old | rfl
    · have bound := isolated.recorded.boxes opening old
      rw [if_neg (by omega)] at inside
      exact isolated.streams opening old frame inside
    · -- Nothing was taken out of the new outbox, and it holds what had waited.
      rw [if_pos rfl, (isolated.recorded.unused _ (Nat.lt_succ_self _)).2, List.nil_append] at inside
      have moved : frame.data ∈ (numbered (Registry.resumePoint resume) sent).map (·.data) :=
        List.mem_map_of_mem inside
      rw [numbered_data] at moved
      exact waited _ (List.mem_append_left _ moved)
  · intro other data inside
    rw [opened.pendingOf] at inside
    split at inside
    next same => exact same ▸ waited data (List.mem_append_right _ inside)
    next => exact isolated.buffers other data inside

/-- A reply goes behind what is in an outbox of its session, or behind what waits for it. -/
private theorem deliver_placed (recorded : w.Recorded) (session data : String) :
    (∀ box, (w.stepDeliver session data).registry.outboxes.frames box = w.registry.outboxes.frames box ∨
      ∃ opening ∈ w.openings, opening.outbox = box ∧ opening.session = session ∧ ∃ event,
        (w.stepDeliver session data).registry.outboxes.frames box =
          w.registry.outboxes.frames box ++ [.message event data]) ∧
    ∀ other, (w.stepDeliver session data).registry.pendingOf other = w.registry.pendingOf other ∨
      other = session ∧
        (w.stepDeliver session data).registry.pendingOf other = w.registry.pendingOf other ++ [data] := by
  rcases recorded.carries_or_shelves session data with ⟨connection, c, carries⟩ | shelves
  · refine ⟨?_, fun other => Or.inl (carries.pending other)⟩
    intro box
    by_cases here : box = c.outbox
    · subst here
      exact Or.inr ⟨_, recorded.opened connection c carries.open_, rfl, carries.belongs, c.last + 1, carries.frames_own⟩
    · exact Or.inl (carries.frames_beside here)
  · refine ⟨fun box => Or.inl (shelves.frames box), ?_⟩
    intro other
    rw [shelves.pending]
    split
    next here => exact Or.inr ⟨here, here ▸ rfl⟩
    next => exact Or.inl rfl

private theorem stepDeliver_preserves (isolated : w.Isolated) (session data : String)
    (recorded : (w.stepDeliver session data).Recorded) : (w.stepDeliver session data).Isolated := by
  have grown : ∀ other text, text ∈ w.delivered other → text ∈ (w.stepDeliver session data).delivered other := by
    intro other text old
    simp only [stepDeliver]
    split
    next same => exact List.mem_append_left _ (same ▸ old)
    next => exact old
  have arrived : data ∈ (w.stepDeliver session data).delivered session := by
    simp [stepDeliver]
  obtain ⟨frames, pending⟩ := deliver_placed isolated.recorded session data
  refine ⟨recorded, ?_, ?_⟩
  · intro opening member frame inside
    change frame ∈ w.taken opening.outbox ++ _ at inside
    rcases frames opening.outbox with same | ⟨other, known, shared, belongs, event, added⟩
    · rw [same] at inside
      exact grown _ _ (isolated.streams opening member frame inside)
    · rw [added, ← List.append_assoc, List.mem_append, List.mem_singleton] at inside
      rcases inside with old | rfl
      · exact grown _ _ (isolated.streams opening member frame old)
      · rw [← isolated.recorded.owner known member shared, belongs]
        exact arrived
  · intro other text inside
    rcases pending other with same | ⟨rfl, added⟩
    · rw [same] at inside
      exact grown _ _ (isolated.buffers other text inside)
    · rw [added, List.mem_append, List.mem_singleton] at inside
      rcases inside with old | rfl
      · exact grown _ _ (isolated.buffers other text old)
      · exact arrived

private theorem stepFail_preserves (isolated : w.Isolated) {connection outbox : Nat} {failed : Option Frame}
    (given : w.Given (.fail connection failed outbox)) (apart : w.Apart (.fail connection failed outbox))
    (recorded : (w.stepFail connection failed outbox).Recorded) :
    (w.stepFail connection failed outbox).Isolated := by
  obtain ⟨⟨opening, member, rfl, rfl⟩, last⟩ := given
  cases open_ : w.registry.connections.get? opening.connection with
  | none =>
    have same := w.stepFail_absent failed opening.outbox open_
    refine isolated.shrunk recorded rfl rfl ?_ ?_ <;> rw [same]
    · exact fun _ _ inside => inside
    · exact fun _ => List.Subset.refl _
  | some c =>
    have gone := w.stepFail_failed failed opening.outbox open_
    -- The frame handed back was taken from the outbox, like all that still waits in it.
    have from_ : ∀ data ∈ w.undelivered failed opening.outbox, data ∈ w.delivered opening.session := by
      intro data inside
      obtain ⟨frame, held, rfl⟩ := List.mem_map.mp inside
      refine isolated.streams opening member frame ?_
      rcases List.mem_append.mp (List.mem_of_mem_filter held) with handed | waiting
      · refine List.mem_append_left _ ?_
        rcases last with rfl | rfl
        · simp at handed
        · exact List.mem_of_getLast? (by simpa using handed)
      · exact List.mem_append_right _ waiting
    refine ⟨recorded, ?_, ?_⟩
    · intro other known frame inside
      refine isolated.streams other known frame ?_
      rw [gone.frames] at inside
      rcases List.mem_append.mp inside with taken | waiting
      · exact List.mem_append_left _ taken
      · split at waiting
        · simp at waiting
        · exact List.mem_append_right _ waiting
    · intro session data inside
      rw [gone.pendingOf] at inside
      split at inside
      next same =>
        rcases List.mem_append.mp inside with handed | old
        · rcases apart opening member rfl rfl with free | nothing
          · rw [same, free c open_]
            exact from_ data handed
          · rw [undelivered] at nothing
            simp [nothing] at handed
        · rw [same]
          exact isolated.buffers c.session data old
      next => exact isolated.buffers session data inside

theorem sound (action : Action) (apart : w.Apart action) : w.Sound action := by
  cases action with
  | register connection session resume => exact apart
  | _ => trivial

theorem step_preserves (isolated : w.Isolated) (action : Action) (given : w.Given action)
    (apart : w.Apart action) : (w.step action).Isolated := by
  have recorded := isolated.recorded.step_preserves action (sound action apart)
  cases action with
  | register connection session resume => exact isolated.stepRegister_preserves connection session resume recorded
  | deliver session data => exact isolated.stepDeliver_preserves session data recorded
  | fail connection failed outbox => exact isolated.stepFail_preserves given apart recorded
  | receive outbox =>
    refine isolated.shrunk recorded rfl rfl ?_ (fun _ => List.Subset.refl _)
    intro box frame inside
    change frame ∈ (w.stepReceive outbox).taken box ++ (w.stepReceive outbox).registry.outboxes.frames box at inside
    rwa [w.stepReceive_moves outbox box] at inside
  | _ => exact isolated.reduced_preserves recorded (step_reduced (by trivial))

end Isolated

variable {w : World}

theorem deliver_confined (recorded : w.Recorded) (session data : String) :
    w.Confined (.deliver session data) := by
  obtain ⟨frames, pending⟩ := Isolated.deliver_placed recorded session data
  constructor
  · intro box changed
    rcases frames box with same | ⟨opening, member, shared, belongs, _⟩
    · exact absurd same changed
    · exact ⟨opening, member, shared, belongs⟩
  · intro other different
    rcases pending other with same | ⟨same, _⟩
    · exact same
    · exact absurd same different

theorem closeSession_confined (recorded : w.Recorded) (session : String) :
    w.Confined (.closeSession session) := by
  intro connection closed
  obtain ⟨named, _⟩ := w.registry.closed_iff.mp closed
  obtain ⟨c, found, belongs⟩ := recorded.consistent.found named
  rw [Registry.OpenFor, found, Option.map_some, belongs]

/-- A failing writer hands its replies to the session of its connection. -/
private theorem fail_confined_iff {connection outbox : Nat} {failed : Option Frame} :
    w.Confined (.fail connection failed outbox) ↔ w.Apart (.fail connection failed outbox) := by
  simp only [Confined, Apart]
  cases open_ : w.registry.connections.get? connection with
  | none =>
    have free : ∀ session, w.registry.Free connection session := by simp [Registry.Free, open_]
    simp [w.stepFail_absent failed outbox open_, free]
  | some c =>
    have gone := w.stepFail_failed failed outbox open_
    have free : ∀ session, w.registry.Free connection session ↔ c.session = session := by
      simp [Registry.Free, open_]
    simp only [gone.pendingOf, free]
    constructor
    · intro confined opening member same shared
      by_cases own : c.session = opening.session
      · exact Or.inl own
      · have kept := confined opening member same shared c.session own
        rw [if_pos rfl] at kept
        exact Or.inr (List.append_left_eq_self.mp kept)
    · intro apart opening member same shared other different
      split
      next here =>
        subst here
        rcases apart opening member same shared with own | nothing
        · exact absurd own different
        · rw [undelivered] at nothing
          rw [nothing, List.nil_append]
      next => rfl

/-- Registering a connection that is open for another session leaves that session with a stream that is
not its own. -/
private theorem register_apart (recorded : w.Recorded) {connection : Nat} {session : String}
    {resume : Option Int}
    (confined : ∀ other, (w.step (.register connection session resume)).Confined (.closeSession other)) :
    w.registry.Free connection session := by
  obtain ⟨sent, left, opened⟩ := w.stepRegister_opened connection session resume
  intro c open_
  apply Classical.byContradiction
  intro different
  have found : (w.stepRegister connection session resume).registry.connections.get? connection = some _ :=
    (opened.connections connection).trans (if_pos rfl)
  have named : (w.stepRegister connection session resume).registry.current.get? c.session = some connection := by
    rw [recorded.consistent.opened_current opened, if_neg different]
    exact recorded.consistent.named open_
  have closed := (Registry.closed_iff _).mpr ⟨named, Option.isSome_iff_exists.mpr ⟨_, found⟩⟩
  have belongs := confined c.session connection closed
  change ((w.stepRegister connection session resume).registry.connections.get? connection).map _ = _ at belongs
  rw [found, Option.map_some] at belongs
  exact different (Option.some.inj belongs).symm

/-- While sessions are kept apart, streams and buffers hold only what was delivered for their session, and
closing a session closes only its own stream. Keeping apart is also necessary: any other action puts
replies where they do not belong, or lets a session be closed with the stream of another. -/
theorem sessions_isolated (actions : List Action)
    (lawful : Lawful (fun w action => w.Given action ∧ w.Apart action) {} actions) :
    (∀ opening ∈ (run {} actions).openings,
      ∀ frame ∈ (run {} actions).taken opening.outbox ++ (run {} actions).registry.outboxes.frames opening.outbox,
        frame.data ∈ (run {} actions).delivered opening.session) ∧
    (∀ session, ∀ data ∈ (run {} actions).registry.pendingOf session, data ∈ (run {} actions).delivered session) ∧
    (∀ session connection, ((run {} actions).registry.closeSession session).1 = some connection →
      (run {} actions).registry.OpenFor connection session) ∧
    ∀ action, (run {} actions).Given action → ((run {} actions).Apart action ↔
      (run {} actions).Confined action ∧
        ∀ session, ((run {} actions).step action).Confined (.closeSession session)) := by
  have isolated : (run {} actions).Isolated :=
    run_preserves (fun _ action held permitted => held.step_preserves action permitted.1 permitted.2) .initial lawful
  have recorded := isolated.recorded
  refine ⟨isolated.streams, isolated.buffers, closeSession_confined recorded, ?_⟩
  intro action given
  constructor
  · intro apart
    refine ⟨?_, closeSession_confined (recorded.step_preserves action (Isolated.sound action apart))⟩
    cases action with
    | deliver session data => exact deliver_confined recorded session data
    | closeSession session => exact closeSession_confined recorded session
    | fail connection failed outbox => exact fail_confined_iff.mpr apart
    | _ => trivial
  · rintro ⟨confined, later⟩
    cases action with
    | register connection session resume => exact register_apart recorded later
    | fail connection failed outbox => exact fail_confined_iff.mp confined
    | _ => trivial

/-- A connection is used for a second session once it has failed for the first. -/
private def reused : List Action :=
  [.register 1 "a" none, .deliver "a" "x", .receive 1, .fail 1 (some (.message 1 "x")) 1,
    .register 1 "b" none, .deliver "b" "y"]

theorem sessions_isolated_reused :
    Lawful (fun w action => w.Given action ∧ w.Apart action) {} reused ∧
      (∀ data ∈ (run {} reused).registry.pendingOf "a", data ∈ (run {} reused).delivered "a") ∧
      ¬ ((run {} reused).Confined (.register 1 "a" none) ∧
        ∀ session, ((run {} reused).step (.register 1 "a" none)).Confined (.closeSession session)) := by
  have lawful : Lawful (fun w action => w.Given action ∧ w.Apart action) {} reused := by decide
  obtain ⟨_, buffers, _, exact_⟩ := sessions_isolated reused lawful
  refine ⟨lawful, buffers "a", ?_⟩
  rw [← exact_ (.register 1 "a" none) trivial]
  decide

end ToolBridge.Stream.World

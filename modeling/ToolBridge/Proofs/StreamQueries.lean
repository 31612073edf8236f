import ToolBridge.Proofs.StreamHistory

/-! What can be asked of a registry: the stream of a session, how many streams there are, and which
sessions have replies waiting. The answers say what delivering to a session will do. -/

namespace ToolBridge.Stream
open EventStream (Frame)

namespace Registry

/-! ## Each key once -/

/-- No map holds a key twice, so that its entries can be counted. -/
structure Keyed (r : Registry) : Prop where
  connections : (Entries.keys r.connections).Nodup
  pending : (Entries.keys r.pending).Nodup

namespace Keyed
variable {r : Registry}

theorem initial : Keyed {} := ⟨List.nodup_nil, List.nodup_nil⟩

theorem remove_preserves (keyed : r.Keyed) (connection : Nat) : (r.remove connection).2.Keyed := by
  unfold remove
  split
  · exact keyed
  · exact ⟨keyed.connections.sublist (Entries.keys_erase_sublist _ _), keyed.pending⟩

theorem setPending_preserves (keyed : r.Keyed) (session : String) (waiting : List String) :
    (r.setPending session waiting).Keyed := by
  refine ⟨keyed.connections, ?_⟩
  simp only [setPending]
  split
  · exact keyed.pending.sublist (Entries.keys_erase_sublist _ _)
  · exact Entries.nodup_put keyed.pending

theorem withoutStream_preserves (keyed : r.Keyed) (session : String) : (r.withoutStream session).Keyed := by
  unfold withoutStream
  split
  · exact keyed.remove_preserves _
  · exact keyed

theorem register_preserves (keyed : r.Keyed) (connection : Nat) (session : String) (resume : Option Int) :
    (r.register connection session resume).2.Keyed := by
  have base : (r.cleared connection session).Keyed := by
    rcases r.cleared_cases connection session with ⟨old, _, _, same⟩ | ⟨_, same⟩ <;> rw [same]
    · exact keyed.remove_preserves old
    · exact keyed
  have connections : ∃ c, (r.register connection session resume).2.connections =
      (r.cleared connection session).connections.put connection c := ⟨_, rfl⟩
  have pending : ∃ left, (r.register connection session resume).2.pending =
      ((r.cleared connection session).setPending session left).pending := ⟨_, rfl⟩
  obtain ⟨c, connections⟩ := connections
  obtain ⟨left, pending⟩ := pending
  constructor
  · rw [connections]
    exact Entries.nodup_put base.connections
  · rw [pending]
    exact (base.setPending_preserves session left).pending

theorem deliver_preserves (keyed : r.Keyed) (session data : String) : (r.deliver session data).2.Keyed := by
  unfold deliver
  split
  · exact keyed.setPending_preserves _ _
  · split
    · exact ⟨Entries.nodup_put keyed.connections, keyed.pending⟩
    · exact (keyed.remove_preserves _).setPending_preserves _ _

theorem fail_preserves (keyed : r.Keyed) (connection : Nat) (failed : Option Frame) (box : Nat) :
    (r.fail connection failed box).2.Keyed := by
  cases open_ : r.connections.get? connection with
  | none => rw [fail_absent r failed box open_]; exact keyed
  | some c =>
    obtain ⟨_, after⟩ := fail_failed r failed box open_
    refine ⟨?_, ?_⟩
    · rw [after.connections]
      exact (keyed.remove_preserves connection).connections
    · rw [after.pending]
      exact (keyed.setPending_preserves _ _).pending

theorem perform_preserves (keyed : r.Keyed) (action : Action) : (action.perform r).Keyed := by
  cases action with
  | register connection session resume => exact keyed.register_preserves connection session resume
  | deliver session data => exact keyed.deliver_preserves session data
  | unregister connection => exact keyed.remove_preserves connection
  | fail connection failed outbox => exact keyed.fail_preserves connection failed outbox
  | receive _ | letGo _ => exact ⟨keyed.connections, keyed.pending⟩
  | closeSession session =>
    change (r.closeSession session).2.Keyed
    rw [closeSession_after]
    exact (keyed.setPending_preserves session []).withoutStream_preserves session
  | discardPending session => exact keyed.setPending_preserves session []
  | closeAll => exact ⟨List.nodup_nil, List.nodup_nil⟩

end Keyed

/-! ## Readers -/

/-- The connection is open, and somebody takes frames out of its outbox. -/
def Attended (connection : Nat) (r : Registry) : Prop :=
  ∃ c, r.connections.get? connection = some c ∧ r.outboxes.Readable c.outbox

variable {r : Registry}

theorem readable_perform {box : Nat} (readable : r.outboxes.Readable box) (action : Action)
    (held : ∀ outbox, action ≠ .letGo outbox) : (action.perform r).outboxes.Readable box := by
  cases action with
  | register connection session resume =>
    obtain ⟨_, _, opened⟩ := r.register_opened connection session resume
    exact (opened.readable box).mpr (Or.inr readable)
  | deliver session data =>
    rcases r.deliver_cases session data with ⟨_, _, _, _, streamed⟩ | ⟨_, _, same⟩
    · exact (streamed.readable box).mpr readable
    · change (r.deliver session data).2.outboxes.Readable box
      rw [same]
      exact (r.readable_withoutStream session box).mpr readable
  | unregister connection => exact (r.readable_remove connection box).mpr readable
  | fail connection failed outbox =>
    change (r.fail connection failed outbox).2.outboxes.Readable box
    cases open_ : r.connections.get? connection with
    | none => rwa [fail_absent r failed outbox open_]
    | some c => exact ((fail_failed r failed outbox open_).2.readable box).mpr readable
  | receive outbox => exact (Outboxes.readable_receive ..).mpr readable
  | letGo outbox => exact absurd rfl (held outbox)
  | closeSession session =>
    change (r.closeSession session).2.outboxes.Readable box
    rw [closeSession_after]
    exact (readable_withoutStream _ session box).mpr readable
  | discardPending session => exact readable
  | closeAll => exact (r.readable_closeAll box).mpr readable

/-! ## Answers -/

/-- The maps mirror each other, and replies wait beside a stream only for want of event ids. -/
structure Mirrored (r : Registry) : Prop where
  inverse : ∀ session connection, r.current.get? session = some connection ↔
    ∃ c, r.connections.get? connection = some c ∧ c.session = session
  single : ∀ first last c d, r.connections.get? first = some c → r.connections.get? last = some d →
    c.session = d.session → first = last
  active : ∀ connection c, r.connections.get? connection = some c → c.active = true
  filled : ∀ session waiting, r.pending.get? session = some waiting → waiting ≠ []
  spent : ∀ connection c waiting, r.connections.get? connection = some c →
    r.pending.get? c.session = some waiting → c.last = lastId

/-- What the registry says of a session is what delivering to it does. -/
structure Truthful (r : Registry) : Prop where
  /-- A reply goes to the stream that is found, under the id that is told, if somebody reads. -/
  streamed : ∀ session data connection event, (r.deliver session data).1 = .streamed connection event ↔
    r.find? session = some connection ∧ r.nextEvent? connection = some event ∧ r.Attended connection
  /-- No reply overtakes those that wait. -/
  held : ∀ session data, session ∈ r.pendingSessions → (r.deliver session data).1 = .buffered
  /-- A session is left with the reply waiting, or with its stream, and never with both. -/
  waits : ∀ session data, (r.deliver session data).1 = .buffered ↔
    session ∈ (r.deliver session data).2.pendingSessions
  ends : ∀ session data, (r.deliver session data).1 = .buffered ↔
    (r.deliver session data).2.find? session = none
  /-- The size counts the sessions for which a stream is found. -/
  counted : ∃ sessions : List String, sessions.Nodup ∧ sessions.length = r.size ∧
    ∀ session, session ∈ sessions ↔ ∃ connection, r.find? session = some connection
  listed : r.pendingSessions.Nodup ∧ ∀ session, session ∈ r.pendingSessions ↔ r.pendingOf session ≠ []

namespace Consistent

theorem mirrored (valid : r.Consistent) : r.Mirrored := by
  refine ⟨valid.current, fun _ _ _ _ => valid.only, valid.active, valid.waiting, ?_⟩
  intro connection c waiting open_ waits
  apply valid.spent connection c open_
  simpa only [pendingOf, waits, Option.getD_some] using valid.waiting c.session waiting waits

theorem found_current (valid : r.Consistent) (session : String) : r.find? session = r.current.get? session := by
  unfold find?
  cases seen : r.current.get? session with
  | none => rfl
  | some connection =>
    obtain ⟨c, open_, _⟩ := valid.found seen
    simp [open_, valid.active connection c open_]

theorem mem_pendingSessions (valid : r.Consistent) (keyed : r.Keyed) (session : String) :
    session ∈ r.pendingSessions ↔ r.pendingOf session ≠ [] := by
  rw [pendingSessions, Entries.mem_keys_iff keyed.pending]
  constructor
  · rintro ⟨waiting, stored⟩
    simpa only [pendingOf, stored, Option.getD_some] using valid.waiting session waiting stored
  · intro waits
    cases stored : r.pending.get? session with
    | none => simp [pendingOf, stored] at waits
    | some waiting => exact ⟨waiting, rfl⟩

/-- The stream that is found can take a reply just if it has an id left and a reader. -/
theorem accepts_iff (valid : r.Consistent) {session : String} {connection event : Nat} :
    (∃ c, r.Accepts session connection c ∧ event = c.last + 1) ↔
      r.find? session = some connection ∧ r.nextEvent? connection = some event ∧ r.Attended connection := by
  rw [valid.found_current]
  constructor
  · rintro ⟨c, ⟨seen, open_, below, reader, _⟩, rfl⟩
    exact ⟨seen, by simp [nextEvent?, open_, below], c, open_, reader⟩
  · rintro ⟨seen, next, c, open_, reader⟩
    simp only [nextEvent?, open_, Option.bind_some, Option.ite_none_right_eq_some, Option.some.injEq] at next
    obtain ⟨below, rfl⟩ := next
    exact ⟨c, ⟨seen, open_, below, reader, valid.active connection c open_⟩, rfl⟩

theorem streamed_iff (valid : r.Consistent) (session data : String) (connection event : Nat) :
    (r.deliver session data).1 = .streamed connection event ↔
      r.find? session = some connection ∧ r.nextEvent? connection = some event ∧ r.Attended connection := by
  rw [← valid.accepts_iff]
  rcases r.deliver_cases session data with ⟨number, c, accepts, result, _⟩ | ⟨blocked, result, _⟩
  · rw [result, Delivery.streamed.injEq]
    constructor
    · rintro ⟨rfl, rfl⟩
      exact ⟨c, accepts, rfl⟩
    · rintro ⟨d, again, rfl⟩
      obtain rfl : number = connection := Option.some.inj (accepts.1.symm.trans again.1)
      obtain rfl : c = d := Option.some.inj (accepts.2.1.symm.trans again.2.1)
      exact ⟨rfl, rfl⟩
  · rw [result]
    constructor
    · intro streamed
      cases streamed
    · rintro ⟨c, accepts, _⟩
      exact absurd accepts (blocked connection c)

/-- After a delivery the session has a stream just if the reply went into it, and a reply waiting just
if it did not. -/
theorem left_after (valid : r.Consistent) (session data : String) :
    ((r.deliver session data).1 = .buffered ∧ (r.deliver session data).2.pendingOf session ≠ [] ∧
      (r.deliver session data).2.find? session = none) ∨
    ((r.deliver session data).1 ≠ .buffered ∧ (r.deliver session data).2.pendingOf session = [] ∧
      (r.deliver session data).2.find? session ≠ none) := by
  have after := valid.deliver_preserves session data
  rw [after.found_current]
  rcases r.deliver_cases session data with ⟨connection, c, accepts, result, streamed⟩ | ⟨_, result, same⟩
  · obtain ⟨seen, open_, below, _⟩ := accepts
    refine Or.inr ⟨by simp [result], ?_, ?_⟩
    · obtain ⟨d, again, rfl⟩ := valid.found seen
      obtain rfl : c = d := Option.some.inj (open_.symm.trans again)
      rw [pendingOf_congr streamed.pending]
      apply Classical.byContradiction
      intro waits
      have spent := valid.spent connection c open_ waits
      omega
    · simp [streamed.current, seen]
  · refine Or.inl ⟨result, ?_, ?_⟩
    · rw [same, pendingOf_buffered]
      simp
    · rw [same] at after ⊢
      cases seen : ((r.withoutStream session).buffer session data).current.get? session with
      | none => rfl
      | some connection =>
        obtain ⟨c, open_, belongs⟩ := after.found seen
        exact absurd belongs (valid.streamless open_)

theorem counted (valid : r.Consistent) (keyed : r.Keyed) :
    ∃ sessions : List String, sessions.Nodup ∧ sessions.length = r.size ∧
      ∀ session, session ∈ sessions ↔ ∃ connection, r.find? session = some connection := by
  refine ⟨r.connections.map (·.2.session), ?_, List.length_map _, ?_⟩
  · refine List.Nodup.map_on ?_ (keyed.connections.of_map _)
    rintro ⟨first, c⟩ member₁ ⟨last, d⟩ member₂ same
    have open₁ := Entries.get?_of_mem keyed.connections member₁
    have open₂ := Entries.get?_of_mem keyed.connections member₂
    obtain rfl := valid.only open₁ open₂ same
    rw [open₁] at open₂
    cases open₂
    rfl
  · intro session
    simp only [valid.found_current, valid.current, List.mem_map]
    constructor
    · rintro ⟨⟨connection, c⟩, member, belongs⟩
      exact ⟨connection, c, Entries.get?_of_mem keyed.connections member, belongs⟩
    · rintro ⟨connection, c, open_, belongs⟩
      exact ⟨(connection, c), Entries.mem_of_get? open_, belongs⟩

theorem truthful (valid : r.Consistent) (keyed : r.Keyed) : r.Truthful := by
  have listed := valid.mem_pendingSessions keyed
  have after : ∀ session data, session ∈ (r.deliver session data).2.pendingSessions ↔
      (r.deliver session data).2.pendingOf session ≠ [] := fun session data =>
    (valid.deliver_preserves session data).mem_pendingSessions (keyed.deliver_preserves session data) session
  refine ⟨valid.streamed_iff, ?_, ?_, ?_, valid.counted keyed, keyed.pending, listed⟩
  · intro session data waits
    rw [listed] at waits
    rcases r.deliver_cases session data with ⟨connection, c, ⟨seen, open_, below, _⟩, _⟩ | ⟨_, result, _⟩
    · obtain ⟨d, again, rfl⟩ := valid.found seen
      obtain rfl : c = d := Option.some.inj (open_.symm.trans again)
      have spent := valid.spent connection c open_ waits
      omega
    · exact result
  · intro session data
    rw [after]
    rcases valid.left_after session data with ⟨buffered, waits, _⟩ | ⟨streamed, idle, _⟩
    · simp [buffered, waits]
    · simp [streamed, idle]
  · intro session data
    rcases valid.left_after session data with ⟨buffered, _, ended⟩ | ⟨streamed, _, open_⟩
    · simp [buffered, ended]
    · simp [streamed, open_]

end Consistent

end Registry

namespace World

variable {w : World}

/-- Every stream is registered under a connection of its own. -/
def Fresh (w : World) : Action → Prop
  | .register connection _ _ => ∀ opening ∈ w.openings, opening.connection ≠ connection
  | _ => True

instance (w : World) : (action : Action) → Decidable (w.Fresh action)
  | .register connection _ _ => inferInstanceAs (Decidable (∀ opening ∈ w.openings, opening.connection ≠ connection))
  | .deliver .. | .unregister _ | .fail .. | .receive _ | .letGo _ | .closeSession _ | .discardPending _
  | .closeAll => instDecidableTrue

theorem Recorded.fresh_sound (recorded : w.Recorded) {action : Action} (fresh : w.Fresh action) :
    w.Sound action := by
  cases action with
  | register connection session resume => exact recorded.free_of_fresh fresh session
  | _ => trivial

theorem run_keyed (actions : List Action) : (run {} actions).registry.Keyed := by
  refine List.foldlRecOn actions step (motive := fun w => w.registry.Keyed) ?_ ?_
  · exact Registry.Keyed.initial
  intro w keyed action _
  rw [registry_step]
  exact keyed.perform_preserves action

private theorem step_attended
    (attended : ∀ connection c, w.registry.connections.get? connection = some c → w.registry.Attended connection)
    (action : Action) (held : ∀ box, action ≠ .letGo box) :
    ∀ connection c, (w.step action).registry.connections.get? connection = some c →
      (w.step action).registry.Attended connection := by
  have kept : ∀ {number c}, w.registry.connections.get? number = some c →
      (w.step action).registry.outboxes.Readable c.outbox := by
    intro number c old
    obtain ⟨d, again, reader⟩ := attended number c old
    obtain rfl : c = d := Option.some.inj (old.symm.trans again)
    rw [registry_step]
    exact Registry.readable_perform reader action held
  intro number c found
  refine ⟨c, found, ?_⟩
  cases action with
  | register connection session resume =>
    obtain ⟨_, _, opened⟩ := w.stepRegister_opened connection session resume
    change (w.stepRegister connection session resume).registry.connections.get? number = some c at found
    rw [opened.connections] at found
    split at found
    · cases found
      exact (opened.readable _).mpr (Or.inl rfl)
    · split at found
      · cases found
      · exact kept found
  | _ =>
    obtain ⟨d, old, _, same⟩ := (step_narrowed _ (by simp)).connections number c found
    rw [same]
    exact kept old

theorem run_attended {actions : List Action} (held : ∀ box, .letGo box ∉ actions) :
    ∀ connection c, (run {} actions).registry.connections.get? connection = some c →
      (run {} actions).registry.Attended connection := by
  refine List.foldlRecOn actions step (motive := fun w => ∀ connection c,
    w.registry.connections.get? connection = some c → w.registry.Attended connection) ?_ ?_
  · intro connection c found
    cases found
  · intro w attended action member
    apply step_attended attended
    rintro box rfl
    exact held box member

/-- After every run under fresh connections the maps of the registry mirror each other, and what it says
of streams and waiting replies is what a delivery will do; while no writer lets go of its outbox, every
open stream has a reader. -/
theorem answers_foretell_delivery (actions : List Action) (lawful : Lawful Fresh {} actions) :
    (run {} actions).registry.Mirrored ∧ (run {} actions).registry.Truthful ∧
      ((∀ box, .letGo box ∉ actions) → ∀ connection c,
        (run {} actions).registry.connections.get? connection = some c →
          (run {} actions).registry.Attended connection) := by
  have recorded : (run {} actions).Recorded :=
    run_preserves (fun _ action held fresh => held.step_preserves action (held.fresh_sound fresh)) .initial lawful
  exact ⟨recorded.consistent.mirrored, recorded.consistent.truthful (run_keyed actions), run_attended⟩

/-- A flush that runs out of ids leaves a stream with replies waiting beside it. -/
private def stranded : List Action :=
  [.deliver "s" "a", .deliver "s" "b", .register 1 "s" (some 2147483646), .register 2 "t" none]

theorem answers_foretell_delivery_stranded :
    Lawful Fresh {} stranded ∧ (run {} stranded).registry.find? "s" = some 1 ∧
      "s" ∈ (run {} stranded).registry.pendingSessions ∧
      ((run {} stranded).registry.deliver "s" "c").1 = .buffered ∧
      ((run {} stranded).registry.deliver "t" "d").1 = .streamed 2 1 := by
  have lawful : Lawful Fresh {} stranded := by decide
  obtain ⟨_, truthful, attended⟩ := answers_foretell_delivery stranded lawful
  have waits : "s" ∈ (run {} stranded).registry.pendingSessions := by decide
  have open_ : (run {} stranded).registry.connections.get? 2 = some { session := "t", last := 0, outbox := 2 } := by
    decide
  refine ⟨lawful, by decide, waits, truthful.held "s" "c" waits, ?_⟩
  rw [truthful.streamed]
  exact ⟨by decide, by decide, attended (by simp [stranded]) 2 _ open_⟩

end World

end ToolBridge.Stream

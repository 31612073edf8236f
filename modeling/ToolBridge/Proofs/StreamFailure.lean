import ToolBridge.Proofs.StreamHistory

/-! What a writer that gives up leaves behind. Its replies wait again just if its connection is still
open for the session; a stream that a newer one has superseded, or that could not take a reply, is no
longer open, and what its outbox still held is lost. -/

namespace ToolBridge.Stream
open EventStream (Frame)

namespace Registry

def streaming (session : String) (r : Registry) : List String :=
  match r.stream? session with
  | some c => replies (r.outboxes.frames c.outbox)
  | none => []

/-- Replies on their way to the session: in its buffer, and in the outbox of its stream. -/
def waiting (session : String) (r : Registry) : List String := r.pendingOf session ++ r.streaming session

/-- Those of them that do not depend on one connection. -/
def waitingBeside (connection : Nat) (session : String) (r : Registry) : List String :=
  r.pendingOf session ++ if r.current.get? session = some connection then [] else r.streaming session

end Registry

namespace World

variable {w : World}

private theorem streaming_stepFail (traced : w.Traced) {connection outbox : Nat} {session : String}
    (member : ⟨connection, session, outbox⟩ ∈ w.openings) (failed : Option Frame) :
    (w.stepFail connection failed outbox).registry.streaming session =
      if w.registry.current.get? session = some connection then [] else w.registry.streaming session := by
  cases open_ : w.registry.connections.get? connection with
  | none =>
    have same := w.stepFail_absent failed outbox open_
    rw [same]
    split
    next named => simp [Registry.streaming, Registry.stream?, named, open_]
    next => rfl
  | some c =>
    have after := w.stepFail_failed failed outbox open_
    have stream : (w.stepFail connection failed outbox).registry.stream? session =
        if w.registry.current.get? session = some connection then none else w.registry.stream? session := by
      rw [← Registry.stream?_remove]
      simp only [Registry.stream?, after.current, after.connections]
    by_cases own : w.registry.current.get? session = some connection
    · simp only [Registry.streaming, stream, if_pos own]
    · simp only [Registry.streaming, stream, if_neg own]
      cases seen : w.registry.stream? session with
      | none => rfl
      | some d =>
        obtain ⟨number, named, found⟩ := Option.bind_eq_some_iff.mp seen
        have apart : d.outbox ≠ outbox := by
          intro same
          have owner := traced.owner (traced.opened number d found) member same
          obtain rfl : number = connection := congrArg Opening.connection owner
          exact own named
        simp only [after.frames, if_neg apart]

/-- Where its connection is not open for the session, what a writer leaves behind goes nowhere that
the session's replies are taken from. -/
theorem waiting_stepFail (traced : w.Traced) {connection outbox : Nat} {session : String}
    (member : ⟨connection, session, outbox⟩ ∈ w.openings) (failed : Option Frame) :
    (w.stepFail connection failed outbox).registry.waiting session =
      (if w.registry.OpenFor connection session then w.undelivered failed outbox else []) ++
        w.registry.waitingBeside connection session := by
  rw [Registry.waiting, Registry.waitingBeside, streaming_stepFail traced member, ← List.append_assoc]
  congr 1
  cases open_ : w.registry.connections.get? connection with
  | none => simp [w.stepFail_absent failed outbox open_, Registry.OpenFor, open_]
  | some c =>
    rw [(w.stepFail_failed failed outbox open_).pendingOf]
    by_cases same : session = c.session
    · simp [Registry.OpenFor, open_, same, undelivered]
    · simp [Registry.OpenFor, open_, same, Ne.symm same]

/-- Actions that close no session, under fresh connections and with writers that fail on their own
streams. -/
def Unclosed (w : World) : Action → Prop
  | .register connection _ _ => ∀ opening ∈ w.openings, opening.connection ≠ connection
  | .deliver _ _ | .receive _ => True
  | .fail connection _ outbox => ∃ opening ∈ w.openings, opening.connection = connection ∧ opening.outbox = outbox
  | _ => False

instance (w : World) : (action : Action) → Decidable (w.Unclosed action)
  | .register connection _ _ => inferInstanceAs (Decidable (∀ opening ∈ w.openings, opening.connection ≠ connection))
  | .deliver .. | .receive _ => instDecidableTrue
  | .fail .. => inferInstanceAs (Decidable (∃ opening ∈ w.openings, _ ∧ _))
  | .unregister _ | .letGo _ | .closeSession _ | .discardPending _ | .closeAll => instDecidableFalse

/-- The newest stream of a session stays open until it refuses a reply or its writer gives up, and
no other stream is open. -/
structure Lasting (w : World) : Prop where
  recorded : w.Recorded
  fresh : (w.openings.map (·.connection)).Nodup
  kept : ∀ opening earlier, w.openingsOf opening.session = earlier ++ [opening] →
    opening.outbox ∉ w.refused → opening.outbox ∉ w.abandoned →
      w.registry.OpenFor opening.connection opening.session
  live : ∀ connection c, w.registry.connections.get? connection = some c →
    c.outbox ∉ w.refused ∧ c.outbox ∉ w.abandoned
  known : ∀ box ∈ w.refused ++ w.abandoned, box ≤ w.registry.outboxes.made

namespace Lasting

theorem initial : Lasting {} := by
  refine ⟨.initial, ?_, ?_, ?_, ?_⟩ <;> simp [Entries.get?, openingsOf]

theorem same_stream (lasting : w.Lasting) {first last : Opening} (member₁ : first ∈ w.openings)
    (member₂ : last ∈ w.openings) (same : first.connection = last.connection) : first = last :=
  List.inj_on_of_nodup_map lasting.fresh member₁ member₂ same

/-- An open connection of a known stream feeds the outbox of that stream. -/
theorem open_outbox (lasting : w.Lasting) {opening : Opening} (member : opening ∈ w.openings) {c : Connection}
    (open_ : w.registry.connections.get? opening.connection = some c) :
    c.session = opening.session ∧ c.outbox = opening.outbox := by
  have same := lasting.same_stream (lasting.recorded.opened _ c open_) member rfl
  exact ⟨congrArg Opening.session same, congrArg Opening.outbox same⟩

theorem openFor_iff (lasting : w.Lasting) {connection outbox : Nat} {session : String}
    (member : ⟨connection, session, outbox⟩ ∈ w.openings) (writing : outbox ∉ w.abandoned) :
    w.registry.OpenFor connection session ↔
      (w.openingsOf session).getLast? = some ⟨connection, session, outbox⟩ ∧ outbox ∉ w.refused := by
  rw [List.getLast?_eq_some_iff]
  constructor
  · intro open_
    obtain ⟨c, found, rfl⟩ := Option.map_eq_some_iff.mp open_
    obtain ⟨-, rfl⟩ := lasting.open_outbox member found
    exact ⟨lasting.recorded.newest connection c found, (lasting.live connection c found).1⟩
  · rintro ⟨⟨earlier, newest⟩, unrefused⟩
    exact lasting.kept ⟨connection, session, outbox⟩ earlier newest unrefused writing

private theorem stepRegister_preserves (lasting : w.Lasting) {connection : Nat} (session : String)
    (resume : Option Int) (fresh : ∀ opening ∈ w.openings, opening.connection ≠ connection) :
    (w.stepRegister connection session resume).Lasting := by
  obtain ⟨sent, left, opened⟩ := w.stepRegister_opened connection session resume
  have free := lasting.recorded.free_of_fresh fresh session
  have bound : ∀ box ∈ w.refused ++ w.abandoned, box < w.registry.outboxes.made + 1 :=
    fun box member => Nat.lt_succ_of_le (lasting.known box member)
  refine ⟨lasting.recorded.step_preserves (.register connection session resume) free,
    single_stepRegister lasting.fresh session resume fresh, ?_, ?_, ?_⟩
  · intro opening earlier newest unrefused writing
    rw [Registry.OpenFor]
    by_cases same : opening.session = session
    · rw [same, openingsOf_opened] at newest
      obtain ⟨-, added⟩ := List.append_inj' newest rfl
      obtain rfl := List.singleton_inj.mp added
      rw [opened.connections, if_pos rfl]
      rfl
    · rw [openingsOf_beside _ _ same] at newest
      obtain ⟨c, found, belongs⟩ := Option.map_eq_some_iff.mp (lasting.kept opening earlier newest unrefused writing)
      rw [lasting.recorded.consistent.open_beside free opened found (belongs ▸ same), Option.map_some, belongs]
  · intro other c found
    rcases lasting.recorded.consistent.open_after opened found with ⟨_, rfl⟩ | ⟨_, old, _⟩
    · constructor <;> intro member
      · exact Nat.lt_irrefl _ (bound _ (List.mem_append_left _ member))
      · exact Nat.lt_irrefl _ (bound _ (List.mem_append_right _ member))
    · exact lasting.live other c old
  · intro box member
    rw [opened.made]
    exact Nat.le_of_lt (bound box member)

/-- A step that opens nothing closes only streams that refuse a reply or that are given up. -/
private theorem narrowed_preserves (lasting : w.Lasting) {after : World} (recorded : after.Recorded)
    (narrowed : Narrowed w after) (refused : w.refused ⊆ after.refused) (abandoned : w.abandoned ⊆ after.abandoned)
    (closed : ∀ opening ∈ w.openings, w.registry.OpenFor opening.connection opening.session →
      after.registry.OpenFor opening.connection opening.session ∨ opening.outbox ∈ after.refused ∨
        opening.outbox ∈ after.abandoned)
    (live : ∀ connection c, after.registry.connections.get? connection = some c →
      c.outbox ∉ after.refused ∧ c.outbox ∉ after.abandoned)
    (known : ∀ box ∈ after.refused ++ after.abandoned, box ≤ w.registry.outboxes.made) : after.Lasting := by
  refine ⟨recorded, narrowed.openings ▸ lasting.fresh, ?_, live, narrowed.made ▸ known⟩
  intro opening earlier newest unrefused writing
  rw [openingsOf, narrowed.openings] at newest
  have before := lasting.kept opening earlier newest (fun old => unrefused (refused old))
    (fun old => writing (abandoned old))
  rcases closed opening (newest_mem newest).1 before with open_ | gone | gone
  · exact open_
  · exact absurd gone unrefused
  · exact absurd gone writing

private theorem streamed_preserves (lasting : w.Lasting) {session data : String} {connection event : Nat}
    {d : Connection} (open_ : w.registry.connections.get? connection = some d)
    (result : (w.registry.deliver session data).1 = .streamed connection event)
    (streamed : w.registry.Streamed connection d data (w.stepDeliver session data).registry) :
    (w.stepDeliver session data).Lasting := by
  have recorded := lasting.recorded.step_preserves (.deliver session data) trivial
  have refused : (w.stepDeliver session data).refused = w.refused := by
    simp only [stepDeliver, result]
  have sessions : ∀ number, ((w.stepDeliver session data).registry.connections.get? number).map
      (·.session) = (w.registry.connections.get? number).map (·.session) := by
    intro number
    rw [streamed.connections]
    split
    next here => rw [here, open_]; rfl
    next => rfl
  refine lasting.narrowed_preserves recorded (stepDeliver_narrowed session data) ?_ (List.Subset.refl _) ?_ ?_ ?_
  · rw [refused]
    exact List.Subset.refl _
  · intro opening _ before
    exact Or.inl ((sessions opening.connection).trans before)
  · intro number c found
    rw [refused]
    obtain ⟨e, old, _, outbox⟩ := (stepDeliver_narrowed session data).connections number c found
    rw [outbox]
    exact lasting.live number e old
  · rw [refused]
    exact lasting.known

/-- A reply that has to wait makes its session's stream the one that refused it. -/
private theorem mem_refused {session data : String} (result : (w.registry.deliver session data).1 = .buffered)
    (box : Nat) : box ∈ (w.stepDeliver session data).refused ↔
      box ∈ w.refused ∨ ∃ c, w.registry.stream? session = some c ∧ c.outbox = box := by
  simp only [stepDeliver, result, Registry.stream?]
  cases (w.registry.current.get? session).bind w.registry.connections.get? <;> simp [eq_comm]

/-- A stream that a delivery takes out is the one that refused the reply. -/
private theorem buffered_preserves (lasting : w.Lasting) {session data : String}
    (result : (w.registry.deliver session data).1 = .buffered)
    (same : (w.stepDeliver session data).registry = (w.registry.withoutStream session).buffer session data) :
    (w.stepDeliver session data).Lasting := by
  have recorded := lasting.recorded.step_preserves (.deliver session data) trivial
  have refused := mem_refused (w := w) result
  have connections : ∀ number, (w.stepDeliver session data).registry.connections.get? number =
      if w.registry.current.get? session = some number then none else w.registry.connections.get? number := by
    intro number
    rw [same]
    exact Registry.connections_withoutStream ..
  refine lasting.narrowed_preserves recorded (stepDeliver_narrowed session data)
    (fun box old => (refused box).mpr (Or.inl old)) (List.Subset.refl _) ?_ ?_ ?_
  · intro opening member open_
    obtain ⟨c, found, _⟩ := Option.map_eq_some_iff.mp open_
    by_cases named : w.registry.current.get? session = some opening.connection
    · refine Or.inr (Or.inl ((refused _).mpr (Or.inr ⟨c, ?_, (lasting.open_outbox member found).2⟩)))
      simp only [Registry.stream?, named, Option.bind_some, found]
    · refine Or.inl ?_
      rw [Registry.OpenFor, connections, if_neg named]
      exact open_
  · intro number c found
    rw [connections] at found
    split at found
    · cases found
    next unnamed =>
      obtain ⟨unrefused, writing⟩ := lasting.live number c found
      refine ⟨?_, writing⟩
      rw [refused]
      rintro (old | ⟨d, taken, shared⟩)
      · exact unrefused old
      · obtain ⟨other, named, held⟩ := Option.bind_eq_some_iff.mp taken
        have owner := lasting.recorded.owner (lasting.recorded.opened other d held)
          (lasting.recorded.opened number c found) shared
        obtain rfl : other = number := congrArg Opening.connection owner
        exact unnamed named
  · intro box member
    rcases List.mem_append.mp member with gone | old
    · rcases (refused box).mp gone with old | ⟨d, taken, rfl⟩
      · exact lasting.known box (List.mem_append_left _ old)
      · obtain ⟨other, _, held⟩ := Option.bind_eq_some_iff.mp taken
        exact lasting.recorded.consistent.boxes other d held
    · exact lasting.known box (List.mem_append_right _ old)

private theorem stepDeliver_preserves (lasting : w.Lasting) (session data : String) :
    (w.stepDeliver session data).Lasting := by
  rcases w.registry.deliver_cases session data with ⟨_, _, accepts, result, streamed⟩ | ⟨_, result, same⟩
  · exact lasting.streamed_preserves accepts.2.1 result streamed
  · exact lasting.buffered_preserves result same

private theorem stepFail_preserves (lasting : w.Lasting) {connection outbox : Nat} (failed : Option Frame)
    (own : ∃ opening ∈ w.openings, opening.connection = connection ∧ opening.outbox = outbox) :
    (w.stepFail connection failed outbox).Lasting := by
  have recorded := lasting.recorded.step_preserves (.fail connection failed outbox) trivial
  obtain ⟨writer, member, rfl, rfl⟩ := own
  have abandoned : ∀ box, box ∈ (w.stepFail writer.connection failed writer.outbox).abandoned ↔
      box ∈ w.abandoned ∨ box = writer.outbox := by
    simp [stepFail]
  refine lasting.narrowed_preserves recorded (stepFail_narrowed ..) (List.Subset.refl _)
    (fun box old => (abandoned box).mpr (Or.inl old)) ?_ ?_ ?_
  · intro opening known open_
    by_cases same : opening.connection = writer.connection
    · refine Or.inr (Or.inr ((abandoned _).mpr (Or.inr ?_)))
      rw [lasting.same_stream known member same]
    · refine Or.inl ?_
      rw [Registry.OpenFor, connections_stepFail, if_neg same]
      exact open_
  · intro number c found
    rw [connections_stepFail] at found
    split at found
    · cases found
    next different =>
      obtain ⟨unrefused, writing⟩ := lasting.live number c found
      refine ⟨unrefused, ?_⟩
      rw [abandoned]
      rintro (old | shared)
      · exact writing old
      · exact different (congrArg Opening.connection
          (lasting.recorded.owner (lasting.recorded.opened number c found) member shared))
  · intro box gone
    rcases List.mem_append.mp gone with old | given
    · exact lasting.known box (List.mem_append_left _ old)
    · rcases (abandoned box).mp given with old | rfl
      · exact lasting.known box (List.mem_append_right _ old)
      · exact lasting.recorded.boxes writer member

theorem step_preserves (lasting : w.Lasting) (action : Action) (permitted : w.Unclosed action) :
    (w.step action).Lasting := by
  cases action with
  | register connection session resume => exact lasting.stepRegister_preserves session resume permitted
  | deliver session data => exact lasting.stepDeliver_preserves session data
  | fail connection failed outbox => exact lasting.stepFail_preserves failed permitted
  | receive outbox =>
    exact lasting.narrowed_preserves (lasting.recorded.step_preserves (.receive outbox) trivial)
      (stepReceive_narrowed outbox) (List.Subset.refl _) (List.Subset.refl _)
      (fun _ _ open_ => Or.inl open_) lasting.live lasting.known
  | unregister _ | letGo _ | closeSession _ | discardPending _ | closeAll => exact permitted.elim

end Lasting

/-- What a failing writer leaves behind is afterwards on its way to the session, beside all that was
there, just if its connection is still open for the session. While no session is closed, that is so
just if no newer stream of the session has been opened and none of its replies has been refused. -/
theorem requeued_iff_open (actions : List Action) (connection outbox : Nat) (session : String)
    (failed : Option Frame) (opened : ⟨connection, session, outbox⟩ ∈ (run {} actions).openings) :
    ((((run {} actions).stepFail connection failed outbox).registry.waiting session).Perm
        ((run {} actions).undelivered failed outbox ++ (run {} actions).registry.waitingBeside connection session) ↔
      (run {} actions).registry.OpenFor connection session ∨ (run {} actions).undelivered failed outbox = []) ∧
    (Lawful Unclosed {} actions → outbox ∉ (run {} actions).abandoned →
      ((run {} actions).registry.OpenFor connection session ↔
        ((run {} actions).openingsOf session).getLast? = some ⟨connection, session, outbox⟩ ∧
          outbox ∉ (run {} actions).refused)) := by
  constructor
  · rw [waiting_stepFail (Traced.run_traced actions) opened]
    by_cases open_ : (run {} actions).registry.OpenFor connection session
    · simp [open_]
    · simp only [open_, if_false, false_or]
      constructor
      · intro same
        have length := same.length_eq
        simp only [List.length_append, List.length_nil] at length
        exact List.eq_nil_of_length_eq_zero (by omega)
      · intro none_
        rw [none_]
  · intro lawful writing
    have lasting : (run {} actions).Lasting :=
      run_preserves (fun _ action held permitted => held.step_preserves action permitted) Lasting.initial lawful
    exact lasting.openFor_iff opened writing

/-- A stream opened again takes the place of one whose writer has not read all, and then fails. -/
private def replaced : List Action :=
  [.register 1 "s" none, .deliver "s" "a", .deliver "s" "b", .receive 1, .register 2 "s" none]

theorem requeued_iff_open_replaced :
    ⟨1, "s", 1⟩ ∈ (run {} replaced).openings ∧
      (run {} replaced).undelivered (some (.message 1 "a")) 1 = ["a", "b"] ∧
      ¬ (((run {} replaced).stepFail 1 (some (.message 1 "a")) 1).registry.waiting "s").Perm
        ((run {} replaced).undelivered (some (.message 1 "a")) 1 ++
          (run {} replaced).registry.waitingBeside 1 "s") := by
  have opened : ⟨1, "s", 1⟩ ∈ (run {} replaced).openings := by decide
  obtain ⟨requeued, superseded⟩ := requeued_iff_open replaced 1 1 "s" (some (.message 1 "a")) opened
  refine ⟨opened, by decide, ?_⟩
  rw [requeued, superseded (by decide) (by decide)]
  decide

end World

end ToolBridge.Stream

import ToolBridge.Proofs.ParkedConnections
import ToolBridge.Proofs.ServerTurns
import ToolBridge.Proofs.SingleConnection
import ToolBridge.Proofs.StreamConsistency

/-! A stop waits for the connections to end. By then the queue is closed and the streams are dropped, but a connection
may still be in the midst of a request, and can even open a stream. Nothing is put into an outbox any more, so such a
stream goes with its connection, and leaves nothing behind to wait for another. -/

namespace ToolBridge

theorem Entries.eq_nil {κ α : Type} [DecidableEq κ] {entries : Entries κ α}
    (absent : ∀ key value, entries.get? key ≠ some value) : entries = [] := by
  cases entries with
  | nil => rfl
  | cons entry rest => exact absurd (by simp [get?]) (absent entry.1 entry.2)

namespace Stream.Registry
variable {before middle after r : Registry} {connection : Nat} {session : String}

/-- Nothing waits for a stream, and the outboxes of open streams have been read. -/
structure Bare (r : Registry) : Prop where
  consistent : r.Consistent
  pending : r.pending = []
  read : ∀ connection c, r.connections.get? connection = some c → r.outboxes.frames c.outbox = []

theorem bare_closeAll (r : Registry) : r.closeAll.2.Bare :=
  ⟨.closeAll_preserves, rfl, fun _ _ found => by cases found⟩

theorem Bare.pendingOf (bare : r.Bare) (session : String) : r.pendingOf session = [] := by
  rw [Registry.pendingOf, bare.pending]
  rfl

theorem Bare.current (bare : r.Bare) (none_ : r.connections = []) : r.current = [] := by
  refine Entries.eq_nil fun session connection named => ?_
  obtain ⟨c, found, _⟩ := bare.consistent.found named
  rw [none_] at found
  cases found

/-- A bare registry stays bare, and no stream comes to it. -/
structure Thins (before after : Registry) : Prop where
  bare : before.Bare → after.Bare
  fewer : ∀ connection c, after.connections.get? connection = some c → before.connections.get? connection = some c

theorem Thins.refl (r : Registry) : r.Thins r := ⟨id, fun _ _ => id⟩

theorem Thins.trans (first : before.Thins middle) (second : middle.Thins after) : before.Thins after :=
  ⟨fun bare => second.bare (first.bare bare), fun connection c found => first.fewer connection c (second.fewer connection c found)⟩

theorem thins_remove (r : Registry) (connection : Nat) : r.Thins (r.remove connection).2 where
  bare bare :=
    { consistent := bare.consistent.remove_preserves connection
      pending := (r.pending_remove connection).trans bare.pending
      read := fun other c found => (r.frames_remove connection c.outbox).trans
        (bare.read other c (r.remove_subset connection other found)) }
  fewer other _ := r.remove_subset connection other

theorem thins_setPending (r : Registry) (session : String) : r.Thins (r.setPending session []) where
  bare bare :=
    { consistent := bare.consistent.setPending_preserves session [] (absurd rfl)
      pending := by simp [setPending, bare.pending, Entries.erase]
      read := bare.read }
  fewer _ _ := id

theorem thins_closeSession (r : Registry) (session : String) : r.Thins (r.closeSession session).2 := by
  rw [closeSession_after]
  refine (r.thins_setPending session).trans ?_
  unfold withoutStream
  split
  · exact thins_remove ..
  · exact .refl _

theorem thins_discardPending (r : Registry) (session : String) : r.Thins (r.discardPending session).2 :=
  r.thins_setPending session

theorem thins_receive (r : Registry) (outbox : Nat) : r.Thins { r with outboxes := (r.outboxes.receive outbox).2 } := by
  refine ⟨fun bare => ⟨?_, bare.pending, fun connection c found => ?_⟩, fun _ _ => id⟩
  · exact bare.consistent.congr rfl rfl rfl (Nat.le_of_eq (r.outboxes.made_receive outbox).symm)
  · have read := bare.read connection c found
    rcases r.outboxes.received outbox with ⟨frame, rest, waits, _, _, frames⟩ | ⟨_, _, same⟩
    · simp only [frames]
      split
      next here =>
        rw [← here, read] at waits
        cases waits
      next => exact read
    · simp only [same, read]

/-- A writer that gives up, with its own outbox, hands nothing back. -/
theorem thins_fail {outbox : Nat} (own : ∀ c, r.connections.get? connection = some c → c.outbox = outbox) :
    r.Thins (r.fail connection none outbox).2 := by
  cases found : r.connections.get? connection with
  | none =>
    rw [fail_absent r none outbox found]
    exact .refl r
  | some c =>
    obtain ⟨_, failed⟩ := r.fail_failed none outbox found
    have fewer : ∀ other d, (r.fail connection none outbox).2.connections.get? other = some d →
        r.connections.get? other = some d := by
      intro other d there
      rw [failed.connections] at there
      exact r.remove_subset connection other there
    refine ⟨fun bare => ⟨bare.consistent.fail_preserves connection none outbox, ?_, fun other d there => ?_⟩, fewer⟩
    · have nothing : replies ((none : Option EventStream.Frame).toList ++ r.outboxes.frames outbox) = [] := by
        rw [← own c found, bare.read connection c found]
        rfl
      rw [failed.pending, nothing, bare.pendingOf]
      simp [setPending, bare.pending, Entries.erase]
    · rw [failed.frames]
      split
      · rfl
      · exact bare.read other d (fewer other d there)

/-- What opening a stream leaves of a bare registry. -/
structure Adds (connection outbox : Nat) (before after : Registry) : Prop where
  bare : after.Bare
  others : ∀ other c, other ≠ connection → after.connections.get? other = some c → before.connections.get? other = some c
  own : ∀ c, after.connections.get? connection = some c → c.outbox = outbox

theorem Bare.register (bare : r.Bare) (unopened : r.connections.get? connection = none) (session : String)
    (resume : Option Int) : Adds connection (r.register connection session resume).1.outbox r
      (r.register connection session resume).2 := by
  obtain ⟨sent, left, opened⟩ := r.register_opened connection session resume
  have divided := opened.divided
  rw [bare.pendingOf] at divided
  obtain ⟨rfl, rfl⟩ := List.append_eq_nil_iff.mp divided.symm
  have free : r.Free connection session := fun c found => by rw [unopened] at found; cases found
  have others : ∀ other c, other ≠ connection → (r.register connection session resume).2.connections.get? other = some c →
      r.connections.get? other = some c := by
    intro other c different found
    rw [opened.connections, if_neg different] at found
    split at found
    · cases found
    · exact found
  refine ⟨⟨bare.consistent.opened_preserves free opened, ?_, fun other c found => ?_⟩, others, fun c found => ?_⟩
  · rw [opened.pending]
    simp [setPending, bare.pending, Entries.erase]
  · rw [opened.frames]
    split
    · rfl
    next different =>
      refine bare.read other c (others other c ?_ found)
      rintro rfl
      rw [opened.connections, if_pos rfl] at found
      cases found
      exact different rfl
  · rw [opened.connections, if_pos rfl] at found
    cases found
    exact opened.outbox.symm

end Stream.Registry

namespace Server

/-! ## Single connections -/

namespace Connection
variable {now : Int} {id : Nat} {c : Connection} {h : Hub} {step : Step}

/-- The stream that is registered for the connection, if there is one, is that which the connection writes. -/
def Holds (id : Nat) (c : Connection) (r : Stream.Registry) : Prop :=
  ∀ e, r.connections.get? id = some e → ∃ session, c.phase = .streaming session e.outbox

/-- What an action leaves of the streams: at most one more, that of the connection. -/
structure Winds (id : Nat) (h : Hub) (step : Step) : Prop where
  bare : step.hub.streams.Bare
  others : ∀ other e, other ≠ id → step.hub.streams.connections.get? other = some e →
    h.streams.connections.get? other = some e
  own : step.connection.Holds id step.hub.streams

theorem Holds.unopened (holds : c.Holds id h.streams) (apart : ∀ session outbox, c.phase ≠ .streaming session outbox) :
    h.streams.connections.get? id = none := by
  cases found : h.streams.connections.get? id with
  | none => rfl
  | some e =>
    obtain ⟨session, phase⟩ := holds e found
    exact absurd phase (apart session e.outbox)

theorem Holds.outbox (holds : c.Holds id h.streams) {session : String} {outbox : Nat}
    (phase : c.phase = .streaming session outbox) (e : Stream.Connection)
    (found : h.streams.connections.get? id = some e) : e.outbox = outbox := by
  obtain ⟨_, same⟩ := holds e found
  rw [phase] at same
  exact (Phase.streaming.inj same).2.symm

theorem holds_unopened {r : Stream.Registry} (unopened : r.connections.get? id = none) : c.Holds id r := by
  intro e found
  rw [unopened] at found
  cases found

theorem Winds.of_thins (bare : h.streams.Bare) (thins : h.streams.Thins step.hub.streams)
    (own : step.connection.Holds id step.hub.streams) : Winds id h step :=
  ⟨thins.bare bare, fun other e _ found => thins.fewer other e found, own⟩

theorem Winds.unopened (bare : h.streams.Bare) (thins : h.streams.Thins step.hub.streams)
    (none_ : step.hub.streams.connections.get? id = none) : Winds id h step :=
  .of_thins bare thins (holds_unopened none_)

/-- A stream that has been taken out has no connection left. -/
theorem unopened_fail (failed : Option EventStream.Frame) (session : String) (outbox : Nat) :
    (h.failStream id session failed outbox).streams.connections.get? id = none := by
  rw [Hub.failStream_eq]
  exact (h.streams.connections_fail id failed outbox id).trans (if_pos rfl)

theorem unopened_end (session : String) : (h.endStream id session).streams.connections.get? id = none := by
  rw [Hub.endStream_eq]
  exact (h.streams.connections_remove id id).trans (if_pos rfl)

theorem thins_end (session : String) : h.streams.Thins (h.endStream id session).streams := by
  rw [Hub.endStream_eq]
  exact h.streams.thins_remove id

theorem thins_failStream {outbox : Nat} (session : String)
    (own : ∀ e, h.streams.connections.get? id = some e → e.outbox = outbox) :
    h.streams.Thins (h.failStream id session none outbox).streams := by
  rw [Hub.failStream_eq]
  exact Stream.Registry.thins_fail own

theorem winds_serve (bare : h.streams.Bare) (unopened : h.streams.connections.get? id = none) (config : Config)
    (r : Http.Request) (c : Connection) : Winds id h (c.serve now id config r h) := by
  have result := Route.route_result now config r id h
  unfold serve
  generalize Route.route now config r id h = routed at result ⊢
  obtain ⟨routed, after⟩ := routed
  cases result with
  | told | queued | turnedAway =>
    refine .unopened bare ?_ ?_ <;> rw [hub_respond]
    · exact .refl _
    · exact unopened
  | parked => exact .unopened bare (.refl _) unopened
  | @closed session =>
    have thins := h.streams.thins_closeSession session
    refine .unopened bare ?_ ?_ <;> rw [hub_respond]
    · exact thins
    · exact Option.eq_none_iff_forall_ne_some.mpr fun e found => by rw [thins.fewer id e found] at unopened; cases unopened
  | @opened session preamble found method finds =>
    have streams : found.streams = h.streams := by cases finds <;> rfl
    have added := bare.register unopened session (Route.resumeAfter r)
    rw [← streams] at added
    simp only
    split
    · exact ⟨added.bare, streams ▸ added.others, fun e there => ⟨session, by rw [added.own e there]⟩⟩
    · let registered : Hub := { found with
        streams := (found.streams.register id session (Route.resumeAfter r)).2
        events := found.events ++ Route.openingNotices session id
          (found.streams.register id session (Route.resumeAfter r)).1.superseded }
      have thins : registered.streams.Thins (registered.failStream id session none _).streams :=
        thins_failStream session added.own
      refine ⟨thins.bare added.bare, fun other e different there => ?_, holds_unopened (unopened_fail ..)⟩
      exact streams ▸ added.others other e different (thins.fewer other e there)

theorem winds_streaming {session : String} {outbox : Nat} (bare : h.streams.Bare) (holds : c.Holds id h.streams)
    (phase : c.phase = .streaming session outbox) (taken : c.stepStreaming now id session outbox h = some step) :
    Winds id h step := by
  have own := holds.outbox phase
  have thins := h.streams.thins_receive outbox
  -- Where there is a frame to write, the stream is not registered any more.
  have unopened : ∀ {frame outboxes}, h.streams.outboxes.receive outbox = (.frame frame, outboxes) →
      h.streams.connections.get? id = none := by
    intro frame outboxes read
    have received := h.streams.outboxes.received outbox
    refine Option.eq_none_iff_forall_ne_some.mpr fun e found => ?_
    have empty := own e found ▸ bare.read id e found
    rw [empty, read] at received
    simp at received
  cases stepStreaming_cases taken with
  | writes read =>
    rw [read] at thins
    exact .unopened bare thins (unopened read)
  | @fails frame outboxes read =>
    rw [read] at thins
    have absent := Stream.Registry.fail_absent { h.streams with outboxes } (some frame) outbox (unopened read)
    refine .unopened bare ?_ (unopened_fail ..)
    rw [Hub.failStream_eq]
    simp only [absent]
    exact thins
  | ends => exact .unopened bare (thins_end session) (unopened_end session)
  | gives => exact .unopened bare (thins_failStream session own) (unopened_fail ..)
  | drops =>
    refine .of_thins bare (.refl _) fun e found => ⟨session, ?_⟩
    rw [own e found]
    exact phase

theorem winds_step (bare : h.streams.Bare) (holds : c.Holds id h.streams) (taken : c.step? now id h = some step) :
    Winds id h step := by
  rcases step?_cases taken with ⟨config, phase, taken⟩ | ⟨ticket, keepAlive, headers, phase, taken⟩ |
    ⟨session, outbox, phase, taken⟩
  · have unopened := holds.unopened (by simp [phase])
    rcases stepReading_cases taken with ⟨r, rest, _, rfl⟩ | ⟨_, _, same⟩
    · exact winds_serve bare unopened ..
    · exact .unopened bare (same ▸ .refl _) (same ▸ unopened)
  · have unopened := holds.unopened (by simp [phase])
    obtain ⟨slot, slots, _, _, rfl⟩ := stepParked_cases taken
    refine .unopened bare ?_ ?_ <;> rw [hub_answered]
    · exact .refl _
    · exact unopened
  · exact winds_streaming bare holds phase taken

theorem winds_lapse {timer : Timer} (bare : h.streams.Bare) (holds : c.Holds id h.streams)
    (lapsed : c.lapse? timer now id h = some step) : Winds id h step := by
  cases lapse?_cases lapsed with
  | leaves phase => exact .unopened bare (.refl _) (holds.unopened (by simp [phase]))
  | excuses phase =>
    refine .unopened bare ?_ ?_ <;> rw [hub_respond]
    · exact .refl _
    · exact holds.unopened (by simp [phase])
  | comments phase =>
    refine .of_thins bare (.refl _) fun e found => ?_
    obtain ⟨session, same⟩ := holds e found
    exact ⟨session, (phase_write ..).trans same⟩
  | fails phase => exact .unopened bare (thins_failStream _ (holds.outbox phase)) (unopened_fail ..)

theorem winds_moves (bare : h.streams.Bare) (holds : c.Holds id h.streams) (moves : c.Moves now id h step) :
    Winds id h step := by
  cases moves with
  | acts taken => exact winds_step bare holds taken
  | lapses lapsed => exact winds_lapse bare holds lapsed

theorem winds_finish (bare : h.streams.Bare) (holds : c.Holds id h.streams) : Winds id h (c.finish id h) := by
  unfold finish
  cases phase : c.phase with
  | reading | closed => exact .unopened bare (.refl _) (holds.unopened (by simp [phase]))
  | parked =>
    refine .unopened bare ?_ ?_ <;> simp only [hub_answered]
    · exact .refl _
    · exact holds.unopened (by simp [phase])
  | streaming session outbox => exact .unopened bare (thins_end session) (unopened_end session)

end Connection

/-! ## The server -/

/-- What can happen while a stop waits for the connections. -/
inductive Ending where
  | move (move : Move) (aside : ¬ move.Turns)
  /-- A connection takes its last action. -/
  | finish (connection : Nat)

def wind (s : Server) : Ending → Server
  | .move move _ => s.perform move
  | .finish id => match s.connections.get? id with
    | some c => s.apply id (c.finish id s.hub)
    | none => s

def windDown (s : Server) (endings : List Ending) : Server := endings.foldl wind s

/-- The queue is closed and empty, and the streams are those of connections that are still there. -/
structure Winding (s : Server) : Prop where
  numbered : s.Numbered
  closed : s.hub.queue.closed = true
  empty : s.hub.queue.items = []
  bare : s.hub.streams.Bare
  held : ∀ id e, s.hub.streams.connections.get? id = some e → ∃ c, s.connections.get? id = some c ∧
    ∃ session, c.phase = .streaming session e.outbox

namespace Winding
variable {s : Server}

theorem begin (numbered : s.Numbered) : Winding { s with hub := s.hub.shutDown } := by
  obtain ⟨slots, shut⟩ := s.hub.shutDown_eq
  refine ⟨⟨numbered.distinct, numbered.below⟩, ?_, ?_, ?_, fun id e found => ?_⟩
  all_goals simp only [shut] at *
  · rfl
  · rfl
  · exact Stream.Registry.bare_closeAll _
  · cases found

theorem holds (winding : s.Winding) {id : Nat} {c : Connection} (found : s.connections.get? id = some c) :
    c.Holds id s.hub.streams := by
  intro e open_
  obtain ⟨d, there, streams⟩ := winding.held id e open_
  rw [found] at there
  cases there
  exact streams

theorem apply (winding : s.Winding) {id : Nat} {c : Connection} {step : Step} (found : s.connections.get? id = some c)
    (abides : s.hub.Abides step.hub) (winds : Connection.Winds id s.hub step) : (s.apply id step).Winding where
  numbered := winding.numbered.apply found step
  closed := abides.closed.trans winding.closed
  empty := abides.empty winding.closed winding.empty
  bare := winds.bare
  held := by
    intro other e open_
    rw [get?_apply]
    split
    next here =>
      subst here
      obtain ⟨session, phase⟩ := winds.own e open_
      refine ⟨step.connection, ?_, session, phase⟩
      rw [Step.current, if_pos (by simp [Connection.isOpen, phase])]
    next different => exact winding.held other e (winds.others other e (Ne.symm different) open_)

/-- Streams go, and the connections stay as they are, but for what arrives. -/
private theorem aside (winding : s.Winding) {after : Server} (numbered : after.Numbered) (abides : s.hub.Abides after.hub)
    (thins : s.hub.streams.Thins after.hub.streams)
    (kept : ∀ id c, s.connections.get? id = some c → ∃ d, after.connections.get? id = some d ∧ d.phase = c.phase) :
    after.Winding where
  numbered := numbered
  closed := abides.closed.trans winding.closed
  empty := abides.empty winding.closed winding.empty
  bare := thins.bare winding.bare
  held := by
    intro id e open_
    obtain ⟨c, found, session, phase⟩ := winding.held id e (thins.fewer id e open_)
    obtain ⟨d, there, same⟩ := kept id c found
    exact ⟨d, there, session, same.trans phase⟩

theorem perform (winding : s.Winding) {move : Move} (aside_ : ¬ move.Turns) : (s.perform move).Winding := by
  have numbered := winding.numbered.perform move
  have abides := s.abides_perform aside_
  have kept : ∀ id c, s.connections.get? id = some c →
      (s.perform move).connections.get? id = s.entryAfter id move := fun id c found =>
    get?_perform (winding.numbered.below id (Entries.mem_keys found)) move
  have owned := s.owned_cases move
  cases move with
  | act | lapse =>
    rcases owned trivial with same | ⟨_, _, _, _, found, moves, same⟩ <;> rw [same]
    · exact winding
    · exact winding.apply found (Hub.abides_law.moves moves fun _ _ _ _ => trivial)
        (Connection.winds_moves winding.bare (winding.holds found) moves)
  | arrive id data =>
    refine winding.aside numbered abides (by rw [Server.perform, hub_modify]; exact .refl _) fun other c found => ?_
    rw [kept other c found, entryAfter, found]
    split
    · refine ⟨_, rfl, ?_⟩
      dsimp only [hear?]
      split <;> rfl
    · exact ⟨c, rfl, rfl⟩
  | leave id peer =>
    refine winding.aside numbered abides (by rw [Server.perform, hub_modify]; exact .refl _) fun other c found => ?_
    rw [kept other c found, entryAfter, found]
    split
    · exact ⟨_, rfl, rfl⟩
    · exact ⟨c, rfl, rfl⟩
  | sweep now =>
    refine winding.aside numbered abides ?_ fun other c found => ⟨c, (kept other c found).trans found, rfl⟩
    exact Hub.streams_sweep now (.refl _) (fun r session thinned => thinned.trans (r.thins_closeSession session))
      fun r session thinned => thinned.trans (r.thins_discardPending session)
  | tick now =>
    refine winding.aside numbered abides ?_ fun other c found => ⟨c, (kept other c found).trans found, rfl⟩
    simp only [Server.perform]
    split
    · rw [Tick.tick_empty _ _ winding.empty]
      exact .refl _
    · exact .refl _
  | connect =>
    refine winding.aside numbered abides ?_ fun other c found => ⟨c, (kept other c found).trans found, rfl⟩
    simp only [Server.perform, connect]
    split <;> exact .refl _
  | attach tools =>
    refine winding.aside numbered abides ?_ fun other c found => ⟨c, (kept other c found).trans found, rfl⟩
    simp only [Server.perform, attach]
    split <;> exact .refl _
  | detach | setApiKey | setAllowedOrigins =>
    exact winding.aside numbered abides (.refl _) fun other c found => ⟨c, (kept other c found).trans found, rfl⟩
  | start | stop => exact absurd trivial aside_

theorem wind (winding : s.Winding) (ending : Ending) : (s.wind ending).Winding := by
  cases ending with
  | move move aside => exact winding.perform aside
  | finish id =>
    simp only [Server.wind]
    split
    next c found =>
      exact winding.apply found (Hub.abides_law.finish id c s.hub) (Connection.winds_finish winding.bare (winding.holds found))
    next => exact winding

theorem windDown (winding : s.Winding) (endings : List Ending) : (s.windDown endings).Winding :=
  List.foldlRecOn endings Server.wind winding fun _ kept ending _ => kept.wind ending

theorem ended (winding : s.Winding) (none_ : s.connections = []) :
    s.hub.streams.connections = [] ∧ s.hub.streams.current = [] ∧ s.hub.streams.pending = [] := by
  have streams : s.hub.streams.connections = [] := by
    refine Entries.eq_nil fun id e open_ => ?_
    obtain ⟨c, found, _⟩ := winding.held id e open_
    rw [none_] at found
    cases found
  exact ⟨streams, winding.bare.current streams, winding.bare.pending⟩

end Winding

theorem isOpen_finish (id : Nat) (c : Connection) (h : Hub) : (c.finish id h).connection.isOpen = false := by
  unfold Connection.finish
  split <;> rfl

/-- A stop winds down: each connection takes its last action, one after another. -/
theorem finishAll_winds {s : Server} (numbered : s.Numbered) :
    s.windDown (s.connections.keys.map .finish) = { s with hub := (finishAll s.connections s.hub).2, connections := [] } := by
  obtain ⟨hub, listener, executor, connections, nextConnection⟩ := s
  induction connections generalizing hub with
  | nil => rfl
  | cons entry rest ih =>
    obtain ⟨id, c⟩ := entry
    obtain ⟨fresh, distinct⟩ := List.nodup_cons.mp numbered.distinct
    have others : Entries.erase id ((id, c) :: rest) = rest := by
      have kept : ∀ entry ∈ rest, decide (entry.1 ≠ id) = true := by
        rintro ⟨other, d⟩ member
        refine decide_eq_true fun same => fresh ?_
        exact same ▸ List.mem_map.mpr ⟨_, member, rfl⟩
      rw [Entries.erase, List.filter_cons_of_neg (by simp)]
      exact List.filter_eq_self.mpr kept
    have first : Server.wind ⟨hub, listener, executor, (id, c) :: rest, nextConnection⟩ (.finish id) =
        ⟨(c.finish id hub).hub, listener, executor, rest, nextConnection⟩ := by
      simp only [Server.wind, Entries.get?, if_true, Server.apply, isOpen_finish, Bool.false_eq_true, if_false, others]
    have later := ih (c.finish id hub).hub
      ⟨distinct, fun other member => numbered.below other (List.mem_cons_of_mem _ member)⟩
    rw [Entries.keys, List.map_cons, List.map_cons, Server.windDown, List.foldl_cons, first]
    exact later

end Server

end ToolBridge

import ToolBridge.Proofs.ParkedConnections
import ToolBridge.Proofs.ReadFields
import ToolBridge.Proofs.SingleConnection
import ToolBridge.Proofs.Utterances

/-! Invariants of whole servers: one property of the hub and one of every connection. What has to be shown of them is
that the parts of a server's moves keep them; then every run does. -/

namespace ToolBridge.Server

/-! ## What connections keep for their answers -/

namespace Connection
variable {c : Connection} {h : Hub} {config : Config} {now : Int} {id : Nat}

/-- The fields that wait to be sent with an answer are good ones. -/
def Parks (good : List (String × String) → Prop) (c : Connection) : Prop :=
  ∀ ticket keepAlive headers, c.phase = .parked ticket keepAlive headers → good headers

section
variable {good : List (String × String) → Prop}

theorem parks_of_ticket? (idle : c.ticket? = none) : c.Parks good := by
  intro ticket keepAlive headers phase
  rw [ticket?, phase] at idle
  cases idle

theorem Parks.phase (parks : c.Parks good) {d : Connection} (same : d.phase = c.phase) : d.Parks good :=
  fun ticket keepAlive headers parked => parks ticket keepAlive headers (same ▸ parked)

theorem parks_serve {r : Http.Request} (fresh : good (Access.originHeaders config r)) :
    (c.serve now id config r h).connection.Parks good := by
  have worded := Route.route_worded now config r id h
  unfold serve
  split
  next => exact parks_of_ticket? (ticket?_respond ..)
  next same =>
    rw [same] at worded
    cases worded
    intro _ _ _ phase
    cases phase
    exact fresh
  next =>
    simp only
    split <;> exact parks_of_ticket? rfl

/-- What waits with a connection are the fields that a page of another origin is told. -/
theorem parks_step {step : Step} (parks : c.Parks good) (taken : c.step? now id h = some step)
    (fresh : ∀ limit r rest, c.nextRequest? limit = some (r, rest) → ∀ config, good (Access.originHeaders config r)) :
    step.connection.Parks good := by
  rcases step?_cases taken with ⟨config, _, taken⟩ | ⟨_, _, _, _, taken⟩ | ⟨session, outbox, phase, taken⟩
  · rcases stepReading_cases taken with ⟨r, rest, next, rfl⟩ | ⟨_, closed, _⟩
    · exact parks_serve (fresh _ r rest next config)
    · exact parks_of_ticket? (by rw [ticket?, closed])
  · obtain ⟨slot, slots, _, _, rfl⟩ := stepParked_cases taken
    exact parks_of_ticket? (ticket?_answered ..)
  · have idle : c.ticket? = none := by rw [ticket?, phase]
    cases stepStreaming_cases taken with
    | writes => exact parks_of_ticket? ((ticket?_write _).trans idle)
    | fails | ends | gives => exact parks_of_ticket? rfl
    | drops => exact parks

/-- Whoever has waited for too long waits for no answer any more. -/
theorem parks_lapse {timer : Timer} {step : Step} (lapsed : c.lapse? timer now id h = some step) :
    step.connection.Parks good := by
  cases lapse?_cases lapsed with
  | leaves | fails => exact parks_of_ticket? rfl
  | excuses => exact parks_of_ticket? (ticket?_respond ..)
  | comments phase => exact parks_of_ticket? ((ticket?_write _).trans (by rw [ticket?, phase]))

theorem parks_moves {step : Step} (parks : c.Parks good) (moves : c.Moves now id h step)
    (fresh : ∀ limit r rest, c.nextRequest? limit = some (r, rest) → ∀ config, good (Access.originHeaders config r)) :
    step.connection.Parks good := by
  cases moves with
  | acts taken => exact parks_step parks taken fresh
  | lapses lapsed => exact parks_lapse lapsed

end

end Connection

/-! ## Invariants -/

structure Holds (hubs : Hub → Prop) (conns : Connection → Prop) (s : Server) : Prop where
  hub : hubs s.hub
  connections : ∀ entry ∈ s.connections, conns entry.2

/-- Two properties that every part of a server's moves keeps. That of connections is one of their phases alone. -/
structure Invariant (hubs : Hub → Prop) (conns : Connection → Prop) : Prop where
  begun : ∀ config, conns { phase := .reading config }
  phase : ∀ c d : Connection, d.phase = c.phase → conns c → conns d
  moves : ∀ {now id c h step}, hubs h → conns c → c.Moves now id h step → hubs step.hub ∧ conns step.connection
  finish : ∀ id (c : Connection) h, hubs h → hubs (c.finish id h).hub
  tick : ∀ registry now h, hubs h → hubs (Tick.tick registry now h).2
  sweep : ∀ now h, hubs h → hubs (h.sweep now)
  shutDown : ∀ h, hubs h → hubs h.shutDown
  reopen : ∀ h : Hub, hubs h → hubs { h with queue := h.queue.reopen }
  emit : ∀ event h, hubs h → hubs (h.emit event)
  configure : ∀ (h : Hub) config, hubs h → hubs { h with config }

section
variable {hubs : Hub → Prop} {conns : Connection → Prop} {s : Server}

theorem Holds.put (holds : s.Holds hubs conns) {hub : Hub} (kept : hubs hub) (id : Nat) {c : Connection} (also : conns c)
    (nextConnection : Nat) :
    Holds hubs conns { s with hub, connections := s.connections.put id c, nextConnection } := by
  refine ⟨kept, fun entry member => ?_⟩
  rcases Entries.mem_put member with rfl | old
  · exact also
  · exact holds.connections entry old

theorem Holds.hosts (holds : s.Holds hubs conns) {move : Move} (hosts : move.Hosts) (kept : hubs (s.perform move).hub) :
    (s.perform move).Holds hubs conns :=
  ⟨kept, (s.hosts_kept hosts).1 ▸ holds.connections⟩

/-- All that connections of a stopping server are sent is what they have to say in the end. -/
theorem finishAll_data (finish : ∀ id (c : Connection) h, hubs h → hubs (c.finish id h).hub)
    {connections : List (Nat × Connection)} {h : Hub} (kept : hubs h) {id : Nat} {data : Bytes}
    (sent : .data id data ∈ (finishAll connections h).1) :
    ∃ c after, (id, c) ∈ connections ∧ hubs after ∧ c.parting after ≠ .silence ∧ data = (c.parting after).bytes := by
  induction connections generalizing h with
  | nil => cases sent
  | cons entry rest ih =>
    obtain ⟨number, c⟩ := entry
    simp only [finishAll, List.mem_append, signalsOf] at sent
    rcases sent with (written | closing) | later
    · split at written
      · cases written
      next spoken =>
        cases List.mem_singleton.mp written
        rw [Connection.sent_finish] at spoken ⊢
        split at spoken
        next heard =>
          rw [if_pos heard]
          refine ⟨c, h, List.mem_cons_self, kept, fun silent => spoken ?_, rfl⟩
          rw [silent]
          rfl
        next => exact absurd rfl spoken
    · split at closing
      · cases closing
      · cases List.mem_singleton.mp closing
    · obtain ⟨d, after, member, held, told⟩ := ih (finish number c h kept) later
      exact ⟨d, after, List.mem_cons_of_mem _ member, held, told⟩

namespace Invariant
variable (invariant : Invariant hubs conns)
include invariant

theorem modify (holds : s.Holds hubs conns) (id : Nat) {change : Connection → Option Connection}
    (kept : ∀ c d, change c = some d → d.phase = c.phase) : (s.modify id change).Holds hubs conns := by
  unfold Server.modify
  split
  next d changed =>
    obtain ⟨c, found, becomes⟩ := Option.bind_eq_some_iff.mp changed
    have before := holds.connections _ (Entries.mem_of_get? found)
    exact holds.put holds.hub id (invariant.phase c d (kept c d becomes) before) s.nextConnection
  next => exact holds

theorem apply (holds : s.Holds hubs conns) {now : Int} {id : Nat} {c : Connection} {step : Step}
    (found : s.connections.get? id = some c) (moves : c.Moves now id s.hub step) : (s.apply id step).Holds hubs conns := by
  obtain ⟨hub, connection⟩ := invariant.moves holds.hub (holds.connections _ (Entries.mem_of_get? found)) moves
  unfold Server.apply
  split
  · exact holds.put hub id connection s.nextConnection
  · exact ⟨hub, fun entry member => holds.connections entry (List.mem_filter.mp member).1⟩

theorem start (kept : hubs s.hub) (bind : Binder) (now : Int) : hubs (s.start bind now).2.hub := by
  rcases s.start_cases bind now with same | ⟨_, endpoint, hub, swept, started⟩
  · rw [same]
    exact kept
  · rw [started, swept]
    exact invariant.sweep now _ (invariant.emit _ _ (invariant.reopen _ kept))

theorem finishAll (connections : List (Nat × Connection)) {h : Hub} (kept : hubs h) : hubs (finishAll connections h).2 := by
  induction connections generalizing h with
  | nil => exact kept
  | cons entry rest ih =>
    obtain ⟨id, c⟩ := entry
    exact ih (invariant.finish id c h kept)

theorem perform (holds : s.Holds hubs conns) (move : Move) : (s.perform move).Holds hubs conns := by
  have owned := s.owned_cases move
  cases move with
  | connect =>
    simp only [Server.perform, connect]
    split
    · exact holds.put holds.hub s.nextConnection (invariant.begun _) (s.nextConnection + 1)
    · exact holds
  | arrive id data =>
    exact invariant.modify holds id fun _ _ => Connection.phase_hear
  | leave id peer =>
    refine invariant.modify holds id fun c d left => ?_
    cases left
    rfl
  | act | lapse =>
    rcases owned trivial with same | ⟨_, _, _, _, found, moves, same⟩ <;> rw [same]
    · exact holds
    · exact invariant.apply holds found moves
  | stop =>
    simp only [Server.perform, stop]
    split
    · exact ⟨invariant.emit _ _ (invariant.finishAll _ (invariant.shutDown _ holds.hub)), List.forall_mem_nil _⟩
    · exact holds
  | tick now =>
    refine holds.hosts trivial ?_
    simp only [Server.perform]
    split
    · exact invariant.tick _ now _ holds.hub
    · exact holds.hub
  | sweep now => exact holds.hosts trivial (invariant.sweep now _ holds.hub)
  | attach tools =>
    refine holds.hosts trivial ?_
    simp only [Server.perform, attach]
    split <;> exact holds.hub
  | start bind now => exact holds.hosts trivial (invariant.start holds.hub bind now)
  | detach => exact holds.hosts trivial holds.hub
  | setApiKey | setAllowedOrigins => exact holds.hosts trivial (invariant.configure _ _ holds.hub)

theorem run (holds : s.Holds hubs conns) (moves : List Move) : (s.run moves).Holds hubs conns :=
  List.foldlRecOn moves Server.perform holds fun _ kept move _ => invariant.perform kept move

end Invariant

end

end ToolBridge.Server

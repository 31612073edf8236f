import ToolBridge.Proofs.WindingDown

/-! The life of a server, whatever its host orders. A start tells observers once it has opened the queue, and a stop once
it has closed the queue and the connections have ended, so starts and stops alternate. A start that fails has not got
so far as to open the queue, and leaves everything as it was. -/

namespace ToolBridge.Server

/-- What a host can order. Everything else that happens to a server may come between two orders. -/
inductive Order where
  | move (move : Move)
  | restart (bind : Binder) (now : Int)
  | setEnabled (bind : Binder) (now : Int) (enabled : Bool)
  | setPort (bind : Binder) (now : Int) (port : Nat)

def obey (s : Server) : Order → Server
  | .move move => s.perform move
  | .restart bind now => (s.restart bind now).2.2
  | .setEnabled bind now enabled => (s.setEnabled bind now enabled).2.2
  | .setPort bind now port => (s.setPort bind now port).2.2

def obeyAll (s : Server) (orders : List Order) : Server := orders.foldl obey s

/-! ## Starting -/

/-- A start comes so far as to listen. -/
structure Opens (bind : Binder) (s : Server) : Prop where
  stopped : s.isRunning = false
  enabled : s.hub.config.enabled = true
  sound : s.hub.config.check = .ok ()
  bound : ∃ endpoint, bind s.hub.config.endpoint = .ok endpoint

/-- Nobody is served: the queue is empty and takes nothing, there are no connections and no streams, and nothing waits for
a stream. -/
structure Down (s : Server) : Prop where
  refuses : ∀ p, s.hub.queue.push? p = none
  empty : s.hub.queue.items = []
  connections : s.connections = []
  streams : s.hub.streams.connections = []
  pending : s.hub.streams.pending = []

/-- The server ran, and runs no more. -/
structure Stopped (before after : Server) : Prop extends Down after where
  running : after.isRunning = false
  turns : after.hub.turns = before.hub.turns ++ [false]

/-- The server runs from now on, and observers are told so. -/
structure Started (before after : Server) : Prop where
  running : after.isRunning = true
  turns : after.hub.turns = before.hub.turns ++ [true]
  takes : ∀ p, (after.hub.queue.push? p).isSome

section
variable {bind : Binder} {now : Int} {s : Server} {error : Error}

theorem start_opens (now : Int) (opens : s.Opens bind) : (s.start bind now).1 = .ok () ∧ (s.start bind now).2.isRunning = true := by
  obtain ⟨stopped, enabled, sound, endpoint, bound⟩ := opens
  unfold start
  rw [if_neg (by simp [stopped]), if_neg (by simp [enabled])]
  simp only [sound, bound]
  exact ⟨trivial, rfl⟩

end

/-! ## Stopping -/

/-- The server as it is when a stop has waited for all connections. -/
def wound (s : Server) : Server := { s with hub := s.hub.shutDown }.windDown (s.connections.keys.map .finish)

theorem stop_wound {s : Server} (numbered : s.Numbered) (running : s.isRunning = true) :
    s.stop.2 = { s.wound with hub := s.wound.hub.emit .stopped, listener := none } := by
  have ends := finishAll_winds (s := { s with hub := s.hub.shutDown }) ⟨numbered.distinct, numbered.below⟩
  unfold stop wound
  rw [if_pos running, ends]

theorem stop_stopped {s : Server} (stopped : s.isRunning = false) : s.stop = ([], s) := by
  unfold stop
  rw [if_neg (by simp [stopped])]

theorem Winding.wound {s : Server} (numbered : s.Numbered) : s.wound.Winding := (Winding.begin numbered).windDown _

theorem connections_wound {s : Server} (numbered : s.Numbered) : s.wound.connections = [] := by
  have ends := finishAll_winds (s := { s with hub := s.hub.shutDown }) ⟨numbered.distinct, numbered.below⟩
  rw [wound, ends]

theorem turns_wound {s : Server} (numbered : s.Numbered) : s.wound.hub.turns = s.hub.turns := by
  have ends := finishAll_winds (s := { s with hub := s.hub.shutDown }) ⟨numbered.distinct, numbered.below⟩
  obtain ⟨slots, shut⟩ := s.hub.shutDown_eq
  have before : s.hub.shutDown.turns = s.hub.turns := by rw [shut]; rfl
  rw [wound, ends]
  exact (Hub.abides_law.finishAll s.connections s.hub.shutDown).turns.trans before

/-! ## Turns -/

theorem turns_started {s : Server} {now : Int} {endpoint : Net.Endpoint} {hub : Hub}
    (swept : hub = ({ s.hub with queue := s.hub.queue.reopen }.emit (.started endpoint)).sweep now) :
    hub.turns = s.hub.turns ++ [true] := by
  rw [swept, (Hub.abides_sweep now _).turns]
  exact List.filterMap_append

/-- So many times a start and a stop, and one more start while the server runs. -/
def alternating (pairs : Nat) (running : Bool) : List Bool :=
  (List.replicate pairs [true, false]).flatten ++ if running then [true] else []

theorem alternating_start (pairs : Nat) : alternating pairs false ++ [true] = alternating pairs true := by
  simp [alternating]

theorem alternating_stop (pairs : Nat) : alternating pairs true ++ [false] = alternating (pairs + 1) false := by
  simp [alternating, List.replicate_succ']

/-- Nobody is connected, nothing waits, and there are no streams. -/
structure Idle (s : Server) : Prop where
  connections : s.connections = []
  empty : s.hub.queue.items = []
  bare : s.hub.streams.Bare
  unstreamed : s.hub.streams.connections = []

/-- Starts and stops alternate, the queue is open while the server runs, and closed from a stop to the next start. -/
structure Tended (s : Server) : Prop where
  numbered : s.Numbered
  turns : ∃ pairs, s.hub.turns = alternating pairs s.isRunning
  takes : s.isRunning = true → s.hub.queue.closed = false
  refuses : s.isRunning = false → s.hub.turns ≠ [] → s.hub.queue.closed = true
  idle : s.isRunning = false → s.Idle

theorem Idle.perform {s : Server} (idle : s.Idle) (stopped : s.isRunning = false) {move : Move} (aside : ¬ move.Turns) :
    (s.perform move).Idle := by
  have absent : ∀ id, s.connections.get? id = none := fun id => by rw [idle.connections]; rfl
  cases move with
  | connect => simpa [Server.perform, connect, stopped] using idle
  | arrive id data => simpa [Server.perform, modify, absent] using idle
  | leave id peer => simpa [Server.perform, modify, absent] using idle
  | act id now => simpa [Server.perform, stepOf?, absent] using idle
  | lapse timer id now => simpa [Server.perform, lapseOf?, absent] using idle
  | tick now =>
    simp only [Server.perform]
    split
    · rw [Tick.tick_empty _ _ idle.empty]
      exact ⟨idle.connections, idle.empty, idle.bare, idle.unstreamed⟩
    · exact idle
  | sweep now =>
    have thins : s.hub.streams.Thins (s.hub.sweep now).streams :=
      Hub.streams_sweep now (.refl _) (fun r session thinned => thinned.trans (r.thins_closeSession session))
        fun r session thinned => thinned.trans (r.thins_discardPending session)
    have queue := (s.hub.sweep_swept now).queue
    simp only [Server.perform]
    generalize s.hub.sweep now = hub at thins queue ⊢
    refine ⟨idle.connections, (congrArg Queue.items queue).trans idle.empty, thins.bare idle.bare, ?_⟩
    refine Entries.eq_nil fun id c found => ?_
    have before := thins.fewer id c found
    rw [idle.unstreamed] at before
    cases before
  | attach tools =>
    simp only [Server.perform, attach]
    split
    · exact idle
    · exact ⟨idle.connections, idle.empty, idle.bare, idle.unstreamed⟩
  | detach | setApiKey | setAllowedOrigins => exact ⟨idle.connections, idle.empty, idle.bare, idle.unstreamed⟩
  | start | stop => exact absurd trivial aside

namespace Tended
variable {s : Server}

theorem initial (config : Config) (info : ServerInfo) : (ofConfig config info).Tended where
  numbered := .empty rfl
  turns := ⟨0, rfl⟩
  takes := fun running => by cases running
  refuses := fun _ told => absurd rfl told
  idle := fun _ => ⟨rfl, rfl, ⟨.initial, rfl, fun _ _ found => by cases found⟩, rfl⟩

theorem aside (tended : s.Tended) {move : Move} (other : ¬ move.Turns) : (s.perform move).Tended := by
  have abides := s.abides_perform other
  have running : (s.perform move).isRunning = s.isRunning := congrArg Option.isSome (s.listener_perform other)
  constructor
  · exact tended.numbered.perform move
  · rw [abides.turns, running]
    exact tended.turns
  · rw [abides.closed, running]
    exact tended.takes
  · rw [abides.closed, abides.turns, running]
    exact tended.refuses
  · rw [running]
    exact fun stopped => (tended.idle stopped).perform stopped other

theorem start (tended : s.Tended) (bind : Binder) (now : Int) : (s.start bind now).2.Tended := by
  have numbered := tended.numbered.perform (.start bind now)
  simp only [Server.perform] at numbered
  rcases s.start_cases bind now with same | ⟨stopped, endpoint, hub, swept, started⟩
  · rwa [same]
  · rw [started] at numbered ⊢
    have abides := Hub.abides_sweep now ({ s.hub with queue := s.hub.queue.reopen }.emit (.started endpoint))
    rw [← swept] at abides
    obtain ⟨pairs, turns⟩ := tended.turns
    refine ⟨numbered, ⟨pairs, ?_⟩, fun _ => abides.closed, (fun down => ?_), (fun down => ?_)⟩
    · rw [stopped] at turns
      rw [turns_started swept, turns, alternating_start]
      rfl
    · cases down
    · cases down

theorem turns_stop (tended : s.Tended) (running : s.isRunning = true) : s.stop.2.hub.turns = s.hub.turns ++ [false] := by
  have told : (s.wound.hub.emit .stopped).turns = s.wound.hub.turns ++ [false] := List.filterMap_append
  rw [stop_wound tended.numbered running, told, turns_wound tended.numbered]

theorem stop (tended : s.Tended) : s.stop.2.Tended := by
  cases running : s.isRunning with
  | true =>
    obtain ⟨pairs, turns⟩ := tended.turns
    have told := tended.turns_stop running
    have winding := Winding.wound tended.numbered
    have none_ := connections_wound tended.numbered
    rw [stop_wound tended.numbered running] at told ⊢
    refine ⟨.empty none_, ⟨pairs + 1, ?_⟩, nofun, fun _ _ => winding.closed, fun _ => ?_⟩
    · rw [told, turns, running, alternating_stop]
      rfl
    · exact ⟨none_, winding.empty, winding.bare, (winding.ended none_).1⟩
  | false =>
    rw [stop_stopped running]
    exact tended

theorem perform (tended : s.Tended) (move : Move) : (s.perform move).Tended := by
  by_cases turns : move.Turns
  · cases move <;> first | exact turns.elim | exact tended.start .. | exact tended.stop
  · exact tended.aside turns

theorem configured (tended : s.Tended) (config : Config) : Tended { s with hub := { s.hub with config } } where
  numbered := ⟨tended.numbered.distinct, tended.numbered.below⟩
  turns := tended.turns
  takes := tended.takes
  refuses := tended.refuses
  idle := fun stopped =>
    have idle := tended.idle stopped
    ⟨idle.connections, idle.empty, idle.bare, idle.unstreamed⟩

theorem obey (tended : s.Tended) (order : Order) : (s.obey order).Tended := by
  cases order with
  | move move => exact tended.perform move
  | restart bind now => exact tended.stop.start bind now
  | setEnabled bind now enabled =>
    have configured := tended.configured { s.hub.config with enabled }
    simp only [Server.obey, setEnabled]
    split
    · exact configured.stop
    · exact configured.start bind now
    · exact configured
  | setPort bind now port =>
    have configured := tended.configured { s.hub.config with port }
    simp only [Server.obey, setPort]
    split
    · exact configured.stop.start bind now
    · exact configured

theorem obeyAll (tended : s.Tended) (orders : List Order) : (s.obeyAll orders).Tended :=
  List.foldlRecOn orders Server.obey tended fun _ kept order _ => kept.obey order

end Tended

theorem Winding.refuses {s : Server} (winding : s.Winding) (p : Queue.Pending) : s.hub.queue.push? p = none := by
  rw [Queue.push?, if_pos winding.closed]

namespace Tended
variable {s : Server}

theorem accepts (tended : s.Tended) (running : s.isRunning = true) (p : Queue.Pending) :
    (s.hub.queue.push? p).isSome := by
  rw [Queue.push?, tended.takes running]
  rfl

theorem down (tended : s.Tended) (stopped : s.isRunning = false) (told : s.hub.turns ≠ []) : s.Down where
  refuses p := by rw [Queue.push?, if_pos (tended.refuses stopped told)]
  empty := (tended.idle stopped).empty
  connections := (tended.idle stopped).connections
  streams := (tended.idle stopped).unstreamed
  pending := (tended.idle stopped).bare.pending

theorem stopped (tended : s.Tended) (running : s.isRunning = true) : Stopped s s.stop.2 := by
  have told := tended.turns_stop running
  have ended : s.stop.2.isRunning = false := by rw [stop_wound tended.numbered running]; rfl
  exact ⟨tended.stop.down ended (by rw [told]; simp), ended, told⟩

theorem started (tended : s.Tended) {bind : Binder} (now : Int) (opens : s.Opens bind) :
    Started s (s.start bind now).2 := by
  have running := (start_opens now opens).2
  refine ⟨running, ?_, (tended.start bind now).accepts running⟩
  rcases s.start_cases bind now with same | ⟨_, endpoint, hub, swept, started⟩
  · rw [same, opens.stopped] at running
    cases running
  · rw [started]
    exact turns_started swept

end Tended

private def listens : Binder := .ok

private def occupied : Binder := fun _ => .error "address in use"

/-- A restart that fails half way. -/
private def halfway : List Order := [.move (.start listens 0), .restart occupied 1]

private def left : Server := (ofConfig {} {}).obeyAll halfway

end ToolBridge.Server

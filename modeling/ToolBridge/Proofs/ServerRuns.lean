import ToolBridge.Proofs.HubLaws

/-! Runs of a server at the grain of single actions: connections act one at a time, in any order, and
anything the host or the network does may fall between two of them. What a server does until all its
connections wait is one such run. -/

namespace ToolBridge.Server

inductive Move where
  | connect
  | arrive (connection : Nat) (data : Bytes)
  | leave (connection : Nat) (peer : Peer)
  | act (connection : Nat) (now : Int)
  | lapse (timer : Timer) (connection : Nat) (now : Int)
  | tick (now : Int)
  | sweep (now : Int)
  | attach (tools : Tool.Table)
  | detach
  | setApiKey (key : Option String)
  | setAllowedOrigins (origins : List String)
  | start (bind : Binder) (now : Int)
  | stop

/-- Changes what requests are judged by. -/
def Move.Sets : Move → Prop
  | .setApiKey _ | .setAllowedOrigins _ => True
  | _ => False

/-- Turns a server on or off. -/
def Move.Turns : Move → Prop
  | .start _ _ | .stop => True
  | _ => False

def stepOf? (now : Int) (id : Nat) (s : Server) : Option Step :=
  (s.connections.get? id).bind fun c => c.step? now id s.hub

def lapseOf? (timer : Timer) (now : Int) (id : Nat) (s : Server) : Option Step :=
  (s.connections.get? id).bind fun c => c.lapse? timer now id s.hub

def modify (id : Nat) (change : Connection → Option Connection) (s : Server) : Server :=
  match (s.connections.get? id).bind change with
  | some c => { s with connections := s.connections.put id c }
  | none => s

/-- Octets arrive, unless the other side has said that it sends no more. -/
def hear? (data : Bytes) (c : Connection) : Option Connection :=
  if c.peer = .present then some { c with inbox := c.inbox ++ data } else none

def perform (s : Server) : Move → Server
  | .connect => (s.connect.map (·.2)).getD s
  | .arrive id data => s.modify id (hear? data)
  | .leave id peer => s.modify id fun c => some { c with peer }
  | .act id now => match s.stepOf? now id with
    | some step => s.apply id step
    | none => s
  | .lapse timer id now => match s.lapseOf? timer now id with
    | some step => s.apply id step
    | none => s
  | .tick now => match s.executor with
    | some tools => { s with hub := (Tick.tick (tools.registry (.ofNanos now)) now s.hub).2 }
    | none => s
  | .sweep now => { s with hub := s.hub.sweep now }
  | .attach tools => (s.attach tools).toOption.getD s
  | .detach => s.detach
  | .setApiKey key => s.setApiKey key
  | .setAllowedOrigins origins => s.setAllowedOrigins origins
  | .start bind now => (s.start bind now).2
  | .stop => s.stop.2

def run (s : Server) (moves : List Move) : Server := moves.foldl perform s

theorem run_append (s : Server) (first last : List Move) : s.run (first ++ last) = (s.run first).run last :=
  List.foldl_append

/-! ## The connections -/

/-- The connection, unless it has ended. -/
def Step.current (step : Step) : Option Connection := if step.connection.isOpen then some step.connection else none

theorem Connection.phase_hear {data : Bytes} {c d : Connection} (heard : hear? data c = some d) : d.phase = c.phase := by
  unfold hear? at heard
  split at heard <;> cases heard
  rfl

theorem get?_modify {s : Server} {id : Nat} (other : Nat) (change : Connection → Option Connection) :
    (s.modify other change).connections.get? id =
      if other = id then (s.connections.get? id).map fun c => (change c).getD c else s.connections.get? id := by
  unfold modify
  split
  next d changed =>
    obtain ⟨c, found, becomes⟩ := Option.bind_eq_some_iff.mp changed
    rw [Entries.get?_put]
    split
    next here =>
      subst here
      rw [found, Option.map_some, becomes, Option.getD_some]
    next => rfl
  next unchanged =>
    split
    next here =>
      subst here
      cases found : s.connections.get? other with
      | none => rfl
      | some c =>
        rw [found, Option.bind_some] at unchanged
        rw [Option.map_some, unchanged, Option.getD_none]
    next => rfl

theorem get?_apply {s : Server} {id : Nat} (other : Nat) (step : Step) :
    (s.apply other step).connections.get? id = if other = id then step.current else s.connections.get? id := by
  unfold apply Step.current
  split
  · exact Entries.get?_put ..
  · exact Entries.get?_erase ..

/-- Moves that are a connection's own. -/
def Move.Owned : Move → Prop
  | .act _ _ | .lapse _ _ _ => True
  | _ => False

/-- A connection does something, or there is nothing to do for it. -/
theorem owned_cases (s : Server) (move : Move) (owned : move.Owned) : s.perform move = s ∨
    ∃ now id c step, s.connections.get? id = some c ∧ c.Moves now id s.hub step ∧ s.perform move = s.apply id step := by
  cases move with
  | act id now =>
    simp only [perform]
    split
    next step taken =>
      obtain ⟨c, found, taken⟩ := Option.bind_eq_some_iff.mp taken
      exact Or.inr ⟨now, id, c, step, found, .acts taken, rfl⟩
    next => exact Or.inl rfl
  | lapse timer id now =>
    simp only [perform]
    split
    next step lapsed =>
      obtain ⟨c, found, lapsed⟩ := Option.bind_eq_some_iff.mp lapsed
      exact Or.inr ⟨now, id, c, step, found, .lapses lapsed, rfl⟩
    next => exact Or.inl rfl
  | _ => exact owned.elim

/-! ## The hub -/

theorem hub_modify (id : Nat) (change : Connection → Option Connection) (s : Server) :
    (s.modify id change).hub = s.hub := by
  unfold modify
  split <;> rfl

theorem Hub.leads_law : Hub.Law (fun _ => True) Hub.Leads where
  refl := .refl
  trans := .trans
  route now config r id h _ := Route.leads_route now config r id h
  fail connection session failed outbox h := h.leads_failStream connection session failed outbox
  ending connection session h := h.leads_endStream connection session
  touch _ _ _ := .apart rfl rfl rfl
  receive _ _ := .apart rfl rfl rfl
  collect h ticket := ⟨rfl, .collect h ticket⟩

theorem start_cases (bind : Binder) (now : Int) (s : Server) : (s.start bind now).2 = s ∨
    s.isRunning = false ∧ ∃ endpoint hub, hub = ({ s.hub with queue := s.hub.queue.reopen }.emit (.started endpoint)).sweep now ∧
      s.start bind now = (.ok (), { s with hub, listener := some endpoint }) := by
  unfold start
  split
  · exact Or.inl rfl
  next stopped =>
    split
    · exact Or.inl rfl
    split
    · exact Or.inl rfl
    split
    · exact Or.inl rfl
    next endpoint _ => exact Or.inr ⟨Bool.eq_false_iff.mpr stopped, endpoint, _, rfl, rfl⟩

theorem leads_start (bind : Binder) (now : Int) (s : Server) : s.hub.Leads (s.start bind now).2.hub := by
  rcases s.start_cases bind now with same | ⟨_, endpoint, hub, swept, started⟩
  · rw [same]
    exact .refl s.hub
  · have told : s.hub.Leads (Hub.emit (.started endpoint) { s.hub with queue := s.hub.queue.reopen }) :=
      ⟨rfl, (Hub.Reaches.reopen s.hub).trans (.apart rfl rfl)⟩
    rw [started, swept]
    exact told.trans (Hub.leads_sweep _ now)

theorem leads_stop (s : Server) : s.hub.Leads s.stop.2.hub := by
  unfold stop
  split
  · exact ((Hub.leads_shutDown s.hub).trans (Hub.leads_law.finishAll s.connections _)).trans (.apart rfl rfl rfl)
  · exact .refl s.hub

/-- A relation that connections' actions respect, and ticks and sweeps as well, holds across all moves but those that
turn a server on or off or change what requests are judged by. -/
theorem Hub.Law.perform {holds : Hub → Hub → Prop} (law : Hub.Law (fun _ => True) holds)
    (tick : ∀ registry now h, holds h (Tick.tick registry now h).2) (sweep : ∀ now h, holds h (h.sweep now))
    (s : Server) {move : Move} (aside : ¬ move.Turns) (unset : ¬ move.Sets) : holds s.hub (s.perform move).hub := by
  have owned := s.owned_cases move
  cases move with
  | connect =>
    simp only [Server.perform, connect]
    split <;> exact law.refl s.hub
  | arrive id data => exact (hub_modify id _ s) ▸ law.refl s.hub
  | leave id peer => exact (hub_modify id _ s) ▸ law.refl s.hub
  | act | lapse =>
    rcases owned trivial with same | ⟨_, _, _, _, _, moves, same⟩ <;> rw [same]
    · exact law.refl s.hub
    · exact law.moves moves fun _ _ _ _ => trivial
  | tick now =>
    simp only [Server.perform]
    split
    · exact tick ..
    · exact law.refl s.hub
  | sweep now => exact sweep ..
  | attach tools =>
    simp only [Server.perform, attach]
    split <;> exact law.refl s.hub
  | detach => exact law.refl s.hub
  | setApiKey | setAllowedOrigins => exact absurd trivial unset
  | start | stop => exact absurd trivial aside

/-- Only a setter changes what requests are judged by. -/
theorem leads_perform (s : Server) {move : Move} (unset : ¬ move.Sets) : s.hub.Leads (s.perform move).hub := by
  by_cases turns : move.Turns
  · cases move <;> first | exact turns.elim | exact leads_start .. | exact leads_stop s
  · exact Hub.leads_law.perform (fun registry now h => h.leads_tick registry now) (fun now h => h.leads_sweep now) s
      turns unset

theorem config_run (s : Server) {moves : List Move} (others : ∀ move ∈ moves, ¬ move.Sets) :
    (s.run moves).hub.config = s.hub.config := by
  induction moves generalizing s with
  | nil => rfl
  | cons move rest ih =>
    exact (ih (s.perform move) fun later inside => others later (List.mem_cons_of_mem _ inside)).trans
      (s.leads_perform (others move List.mem_cons_self)).config

/-- Whatever a server does, its queue and its reply slots go through moves of an intake. -/
theorem reaches_run (s : Server) (moves : List Move) : s.hub.Reaches (s.run moves).hub := by
  induction moves generalizing s with
  | nil => exact .apart rfl rfl
  | cons move rest ih =>
    refine Hub.Reaches.trans ?_ (ih (s.perform move))
    by_cases sets : move.Sets
    · cases move <;> first | exact sets.elim | exact .apart rfl rfl
    · exact (s.leads_perform sets).queue

/-! ## Acting until all wait -/

theorem start_kept (bind : Binder) (now : Int) (s : Server) : ∃ hub listener,
    (s.start bind now).2 = { s with hub, listener } := by
  rcases s.start_cases bind now with same | ⟨_, endpoint, hub, _, started⟩
  · exact ⟨s.hub, s.listener, same⟩
  · exact ⟨hub, some endpoint, congrArg Prod.snd started⟩

/-- Connections have numbers of their own, and the next one will have another. -/
structure Numbered (s : Server) : Prop where
  distinct : s.connections.keys.Nodup
  below : ∀ id ∈ s.connections.keys, id < s.nextConnection

namespace Numbered
variable {s : Server}

theorem empty (none_ : s.connections = []) : s.Numbered := by
  constructor <;> simp [none_, Entries.keys]

private theorem other (numbered : s.Numbered) (hub : Hub) (listener : Option Net.Endpoint)
    (executor : Option Tool.Table) : Numbered { s with hub, listener, executor } :=
  ⟨numbered.distinct, numbered.below⟩

private theorem put (numbered : s.Numbered) {id : Nat} {c d : Connection}
    (known : s.connections.get? id = some d) (hub : Hub) :
    Numbered { s with hub, connections := s.connections.put id c } := by
  refine ⟨Entries.nodup_put numbered.distinct, ?_⟩
  intro other member
  rcases Entries.mem_keys_put.mp member with rfl | old
  · exact numbered.below other (Entries.mem_keys known)
  · exact numbered.below other old

theorem apply (numbered : s.Numbered) {id : Nat} {d : Connection} (known : s.connections.get? id = some d)
    (step : Step) : (s.apply id step).Numbered := by
  unfold Server.apply
  split
  · exact numbered.put known step.hub
  · have fewer := Entries.keys_erase_sublist id s.connections
    exact ⟨numbered.distinct.sublist fewer, fun other member => numbered.below other (fewer.subset member)⟩

private theorem modify (numbered : s.Numbered) (id : Nat) (change : Connection → Option Connection) :
    (s.modify id change).Numbered := by
  unfold Server.modify
  split
  next c changed =>
    obtain ⟨d, known, _⟩ := Option.bind_eq_some_iff.mp changed
    exact numbered.put known s.hub
  next => exact numbered

theorem perform (numbered : s.Numbered) (move : Move) : (s.perform move).Numbered := by
  have owned := s.owned_cases move
  cases move with
  | connect =>
    simp only [Server.perform, connect]
    split
    · refine ⟨Entries.nodup_put numbered.distinct, ?_⟩
      intro id member
      rcases Entries.mem_keys_put.mp member with rfl | old
      · exact Nat.lt_succ_self _
      · exact Nat.lt_succ_of_lt (numbered.below id old)
    · exact numbered
  | arrive id data => exact numbered.modify id _
  | leave id peer => exact numbered.modify id _
  | act | lapse =>
    rcases owned trivial with same | ⟨_, _, _, step, known, _, same⟩ <;> rw [same]
    · exact numbered
    · exact numbered.apply known step
  | tick now =>
    simp only [Server.perform]
    split
    · exact numbered.other _ s.listener s.executor
    · exact numbered
  | attach tools =>
    simp only [Server.perform, attach]
    split
    · exact numbered
    · exact numbered.other s.hub s.listener _
  | start bind now =>
    obtain ⟨hub, listener, same⟩ := s.start_kept bind now
    simp only [Server.perform, same]
    exact numbered.other hub listener s.executor
  | stop =>
    simp only [Server.perform, stop]
    split
    · exact empty rfl
    · exact numbered
  | sweep _ | setApiKey _ | setAllowedOrigins _ => exact numbered.other _ s.listener s.executor
  | detach => exact numbered.other s.hub s.listener none

theorem run (numbered : s.Numbered) (moves : List Move) : (s.run moves).Numbered :=
  List.foldlRecOn moves Server.perform numbered fun _ kept move _ => kept.perform move

end Numbered

/-- Acting until all connections wait is a run of single actions. -/
theorem settle_run {s : Server} (numbered : s.Numbered) (now : Int) :
    ∃ ids : List Nat, (s.settle now).2 = s.run (ids.map fun id => .act id now) := by
  unfold settle
  generalize s.stepBound = bound
  induction bound generalizing s with
  | zero => exact ⟨[], rfl⟩
  | succ bound ih =>
    unfold settleWithin
    cases next : s.nextStep? now with
    | none => exact ⟨[], rfl⟩
    | some taken =>
      obtain ⟨id, step⟩ := taken
      obtain ⟨⟨number, c⟩, member, acts⟩ := List.exists_of_findSome?_eq_some next
      obtain ⟨_, taken, same⟩ := Option.map_eq_some_iff.mp acts
      cases same
      have known := Entries.get?_of_mem numbered.distinct member
      have acted : s.perform (.act id now) = s.apply id step := by
        simp only [perform, stepOf?, known, Option.bind_some, taken]
      obtain ⟨ids, settled⟩ := ih (numbered.apply known step)
      refine ⟨id :: ids, ?_⟩
      rw [List.map_cons, run, List.foldl_cons, acted]
      exact settled

section Composite
variable {s : Server}

private theorem settle_after (numbered : s.Numbered) (move : Move) (now : Int) :
    ∃ ids : List Nat, ((s.perform move).settle now).2 = s.run (move :: ids.map fun id => .act id now) :=
  settle_run (numbered.perform move) now

theorem receive_run (numbered : s.Numbered) (now : Int) (id : Nat) (data : Bytes) :
    ∃ ids : List Nat, (s.receive now id data).2 = s.run (.arrive id data :: ids.map fun id => .act id now) := by
  have settled := settle_after numbered (.arrive id data) now
  simp only [perform, modify] at settled
  unfold receive
  cases known : s.connections.get? id with
  | none => exact ⟨[], by simp [run, perform, modify, known]⟩
  | some c =>
    simp only [known, Option.bind_some, hear?] at settled
    dsimp only
    split
    next present => simpa only [if_pos present] using settled
    next absent => exact ⟨[], by simp [run, perform, modify, known, hear?, absent]⟩

theorem leave_run (numbered : s.Numbered) (now : Int) (id : Nat) (peer : Peer) :
    ∃ ids : List Nat, (s.leave now id peer).2 = s.run (.leave id peer :: ids.map fun id => .act id now) := by
  have settled := settle_after numbered (.leave id peer) now
  simp only [perform, modify] at settled
  unfold leave
  cases known : s.connections.get? id with
  | none => exact ⟨[], by simp [run, perform, modify, known]⟩
  | some c => simpa only [known, Option.bind_some] using settled

theorem lapse_run (numbered : s.Numbered) (timer : Timer) (now : Int) (id : Nat) :
    ∃ ids : List Nat, (s.lapse timer now id).2 = s.run (.lapse timer id now :: ids.map fun id => .act id now) := by
  have settled := settle_after numbered (.lapse timer id now) now
  simp only [perform, lapseOf?] at settled
  unfold lapse
  split
  next idle => exact ⟨[], by simp [run, perform, lapseOf?, idle]⟩
  next step lapsed => simpa only [lapsed] using settled

theorem sweep_run (numbered : s.Numbered) (now : Int) :
    ∃ ids : List Nat, (s.sweep now).2 = s.run (.sweep now :: ids.map fun id => .act id now) :=
  settle_after numbered (.sweep now) now

theorem tick_run (numbered : s.Numbered) (now : Int) {count : Nat} {signals : List Signal} {after : Server}
    (ticked : s.tick? now = some (count, signals, after)) :
    ∃ ids : List Nat, after = s.run (.tick now :: ids.map fun id => .act id now) := by
  obtain ⟨tools, attached, same⟩ := Option.map_eq_some_iff.mp ticked
  have moved : s.perform (.tick now) =
      { s with hub := (Tick.tick (tools.registry (.ofNanos now)) now s.hub).2 } := by
    simp only [perform]
    split
    next other found => rw [Option.some.inj (attached.symm.trans found)]
    next absent => simp [attached] at absent
  have settled := settle_after numbered (.tick now) now
  rw [moved] at settled
  generalize Tick.tick (tools.registry (.ofNanos now)) now s.hub = batch at settled same
  obtain ⟨_, hub⟩ := batch
  dsimp only at settled same
  generalize Server.settle now { s with hub } = final at settled same
  cases same
  exact settled

end Composite

end ToolBridge.Server

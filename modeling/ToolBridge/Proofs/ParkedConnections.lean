import ToolBridge.Proofs.HubHistory
import ToolBridge.Proofs.LateRequests
import ToolBridge.Proofs.LiveAccess
import ToolBridge.Proofs.QueueOrder

/-! What a running server keeps for its connections. While one waits for the executor, its reply slot is its own, and
an answer can still come or is there; the queue takes requests for as long as there are connections. So no connection
of a running server is ever told that nobody will run its request. -/

namespace ToolBridge

namespace Queue.Slots
variable {before middle after : Slots} {ticket : Nat}

/-- An answer can come or is there. -/
def Live (ticket : Nat) (s : Slots) : Prop :=
  s.slots.get? ticket = some .waiting ∨ ∃ a, s.slots.get? ticket = some (.answered a)

/-- No slot has a number that is yet to be given. -/
def Bounded (s : Slots) : Prop := ∀ ticket, s.slots.get? ticket ≠ none → ticket ≤ s.made

theorem Live.found {s : Slots} (live : s.Live ticket) : s.slots.get? ticket ≠ none := by
  intro absent
  rw [Live, absent] at live
  simp at live

/-- Callers find in their slots what they found, or an answer that has come since. -/
structure Holds (before after : Slots) : Prop where
  made : before.made ≤ after.made
  live : ∀ ticket, before.Live ticket → after.Live ticket
  bounded : before.Bounded → after.Bounded

theorem Holds.refl (s : Slots) : s.Holds s := ⟨Nat.le_refl _, fun _ => id, id⟩

theorem Holds.trans (first : before.Holds middle) (second : middle.Holds after) : before.Holds after :=
  ⟨Nat.le_trans first.made second.made, fun ticket live => second.live ticket (first.live ticket live),
    fun bounded => second.bounded (first.bounded bounded)⟩

theorem bounded_of_subset (bounded : before.Bounded) (made : before.made ≤ after.made)
    (inside : ∀ other, after.slots.get? other ≠ none → before.slots.get? other ≠ none) : after.Bounded :=
  fun other found => Nat.le_trans (bounded other (inside other found)) made

theorem holds_answer (ticket : Nat) (a : Dispatch.Answer) (s : Slots) : s.Holds (s.answer ticket a).2 := by
  obtain ⟨made, others, here⟩ := s.answer_cases ticket a
  have kept : s.made ≤ (s.answer ticket a).2.made := Nat.le_of_eq made.symm
  refine ⟨kept, fun other live => ?_, fun bounded => bounded_of_subset bounded kept fun other found => ?_⟩
  · by_cases same : other = ticket
    · subst same
      rcases here with ⟨_, now⟩ | ⟨_, kept⟩
      · exact Or.inr ⟨a, now⟩
      · exact (congrArg (fun slot => slot = some Slot.waiting ∨ ∃ a, slot = some (.answered a)) kept).mpr live
    · rwa [Live, others other same]
  · by_cases same : other = ticket
    · subst same
      rcases here with ⟨waiting, _⟩ | ⟨_, kept⟩
      · rw [waiting]
        exact Option.some_ne_none _
      · exact kept ▸ found
    · exact others other same ▸ found

theorem get?_make (s : Slots) (other : Nat) :
    s.make.2.slots.get? other = if s.made + 1 = other then some .waiting else s.slots.get? other :=
  Entries.get?_put ..

theorem live_make (s : Slots) : s.make.2.Live s.make.1 := Or.inl ((s.get?_make _).trans (if_pos rfl))

theorem holds_make (s : Slots) : s.Holds s.make.2 := by
  refine ⟨Nat.le_succ _, fun other live => ?_, fun bounded other found => ?_⟩
  · rw [Live, get?_make]
    split
    · exact Or.inl rfl
    · exact live
  · rw [get?_make] at found
    split at found
    next same => exact Nat.le_of_eq same.symm
    next => exact Nat.le_succ_of_le (bounded other found)

theorem get?_collect (ticket other : Nat) (s : Slots) :
    (s.collect ticket).slots.get? other = if ticket = other then none else s.slots.get? other := by
  rw [collect, hangUp, Entries.get?_erase]
  split
  · rfl
  next different =>
    unfold poll
    split
    · exact (Entries.get?_put ..).trans (if_neg different)
    · rfl
    · rfl

theorem made_collect (ticket : Nat) (s : Slots) : (s.collect ticket).made = s.made := (s.poll_cases ticket).1

theorem bounded_collect {s : Slots} (bounded : s.Bounded) (ticket : Nat) : (s.collect ticket).Bounded := by
  refine bounded_of_subset bounded (Nat.le_of_eq (s.made_collect ticket).symm) fun other found => ?_
  rw [get?_collect] at found
  split at found
  · exact absurd rfl found
  · exact found

theorem poll_live {s : Slots} (live : s.Live ticket) :
    (s.poll ticket).1 = .waiting ∨ ∃ a, (s.poll ticket).1 = .answered a := by
  unfold poll
  rcases live with waits | ⟨a, answered⟩
  · rw [waits]
    exact Or.inl rfl
  · rw [answered]
    exact Or.inr ⟨a, rfl⟩

end Queue.Slots

namespace Server

/-- The queue is as open as it was, and callers find what they found or an answer that has come since. -/
structure Hub.Serves (before after : Hub) : Prop where
  queue : after.queue.closed = before.queue.closed
  slots : before.slots.Holds after.slots

namespace Hub
variable {before middle after : Hub}

theorem Serves.same (queue : after.queue.closed = before.queue.closed) (slots : after.slots = before.slots) :
    before.Serves after :=
  ⟨queue, slots ▸ .refl _⟩

theorem Serves.refl (h : Hub) : h.Serves h := .same rfl rfl

theorem Serves.trans (first : before.Serves middle) (second : middle.Serves after) : before.Serves after :=
  ⟨second.queue.trans first.queue, first.slots.trans second.slots⟩

theorem serves_failStream (connection : Nat) (session : String) (failed : Option EventStream.Frame) (outbox : Nat)
    (h : Hub) : h.Serves (h.failStream connection session failed outbox) := by
  rw [failStream_eq]
  exact .same rfl rfl

theorem serves_endStream (connection : Nat) (session : String) (h : Hub) : h.Serves (h.endStream connection session) := by
  rw [endStream_eq]
  exact .same rfl rfl

theorem Serves.foldl {α : Type} (change : Hub → α → Hub) (items : List α)
    (serves : ∀ (h : Hub) (item : α), h.Serves (change h item)) (h : Hub) : h.Serves (items.foldl change h) :=
  List.foldlRecOn items change (motive := h.Serves) (.refl h) fun after served item _ => served.trans (serves after item)

theorem serves_sweep (now : Int) (h : Hub) : h.Serves (h.sweep now) := by
  unfold sweep
  have swept : h.Serves { h with sessions := (h.sessions.sweep now h.config.sessionIdle).2 } := .same rfl rfl
  refine (swept.trans (.foldl _ _ (fun h session => ?_) _)).trans (.foldl _ _ (fun h session => ?_) _)
  · rw [expire_eq]
    exact .same rfl rfl
  · unfold discardDead
    split
    · exact .refl h
    · exact .same rfl rfl

end Hub

namespace Tick
variable (registry : Tool.Registry) (now : Int)

theorem serves_announce (a : Dispatch.Answer) (h : Hub) : h.Serves (announce a h) := by
  obtain ⟨news, announced, _⟩ := announce_eq a h
  rw [announced]
  exact .same rfl rfl

theorem serves_hand (p : Queue.Pending) (a : Dispatch.Answer) (h : Hub) : h.Serves (hand p a h) := by
  unfold hand
  split
  next ticket _ => exact ⟨rfl, Queue.Slots.holds_answer ..⟩
  next =>
    split
    · exact .same rfl rfl
    · exact .refl h

theorem serves_process (p : Queue.Pending) (h : Hub) : h.Serves (process registry now p h) := by
  have performed : h.Serves (perform registry now p h).2 := hub_perform registry now p h ▸ .same rfl rfl
  rw [process_eq]
  exact (performed.trans (serves_announce _ _)).trans (serves_hand p _ _)

theorem serves_tick (h : Hub) : h.Serves (tick registry now h).2 := by
  have taken : h.Serves { h with queue := (h.queue.take (max 1 h.config.maxRequestsPerTick)).2 } := .same rfl rfl
  exact taken.trans (.foldl _ _ (fun h p => serves_process registry now p h) _)

end Tick

theorem Queue.closed_push? {p : Queue.Pending} {before after : Queue} (taken : before.push? p = some after) :
    after.closed = before.closed ∧ before.closed = false := by
  unfold Queue.push? at taken
  split at taken
  · cases taken
  next open_ =>
    cases taken
    exact ⟨rfl, Bool.eq_false_iff.mpr open_⟩

namespace Route

theorem serves_route (now : Int) (c : Config) (r : Http.Request) (connection : Nat) (h : Hub) :
    h.Serves (route now c r connection h).2 := by
  have result := route_result now c r connection h
  generalize route now c r connection h = routed at result ⊢
  obtain ⟨routed, after⟩ := routed
  cases result with
  | told _ _ => exact .refl _
  | queued _ _ _ taken => exact .same (Queue.closed_push? taken).1 rfl
  | turnedAway _ => exact .same rfl rfl
  | parked taken => exact ⟨(Queue.closed_push? taken).1, h.slots.holds_make⟩
  | opened _ finds => cases finds <;> exact .same rfl rfl
  | closed _ _ _ _ => exact .same rfl rfl

theorem park_made {now : Int} {c : Config} {r : Http.Request} {connection ticket : Nat} {h : Hub}
    {headers : List (String × String)} (parked : (route now c r connection h).1 = .park ticket headers) :
    h.slots.made < ticket ∧ ((route now c r connection h).2).slots.Live ticket := by
  have result := route_result now c r connection h
  generalize route now c r connection h = routed at result parked ⊢
  obtain ⟨routed, after⟩ := routed
  cases parked
  cases result with
  | parked taken => exact ⟨Nat.lt_succ_self _, h.slots.live_make⟩

end Route

namespace Connection

/-- Where the connection waits for the executor. -/
def ticket? (c : Connection) : Option Nat :=
  match c.phase with
  | .parked ticket _ _ => some ticket
  | _ => none

section
variable {now : Int} {id : Nat} {config : Config} {c : Connection} {h : Hub} {step : Step}

/-- What an action leaves to the callers, given whose slot it has collected. -/
structure Passes (spent : Option Nat) (h : Hub) (step : Step) : Prop where
  queue : step.hub.queue.closed = h.queue.closed
  made : h.slots.made ≤ step.hub.slots.made
  live : ∀ ticket, spent ≠ some ticket → h.slots.Live ticket → step.hub.slots.Live ticket
  bounded : h.slots.Bounded → step.hub.slots.Bounded
  /-- Whoever waits from now on has a new slot. -/
  fresh : ∀ ticket, step.connection.ticket? = some ticket → h.slots.made < ticket ∧ step.hub.slots.Live ticket

theorem Passes.of_serves (served : h.Serves step.hub)
    (fresh : ∀ ticket, step.connection.ticket? = some ticket → h.slots.made < ticket ∧ step.hub.slots.Live ticket) :
    Passes none h step :=
  ⟨served.queue, served.slots.made, fun ticket _ => served.slots.live ticket, served.slots.bounded, fresh⟩

theorem ticket?_respond (response : Http.Response) (close : Bool) :
    (c.respond response close h).connection.ticket? = none := by
  rw [ticket?]
  rcases phase_respond response close c h with same | same <;> rw [same]

theorem ticket?_answered (slot : Queue.Slot) (keepAlive : Bool) (headers : List (String × String)) (h : Hub) :
    (c.answered slot keepAlive headers h).connection.ticket? = none :=
  ticket?_respond ..

theorem ticket?_write (data : Bytes) : (c.write data).2.2.ticket? = c.ticket? := by
  unfold write
  split <;> rfl

theorem passes_serve (r : Http.Request) : Passes none h (c.serve now id config r h) := by
  have served := Route.serves_route now config r id h
  have parked : ∀ ticket headers, (Route.route now config r id h).1 = .park ticket headers → _ :=
    fun ticket headers => Route.park_made
  unfold serve
  split
  next response close after routed =>
    rw [routed] at served
    refine .of_serves (hub_respond .. ▸ served) fun ticket waits => ?_
    rw [ticket?_respond] at waits
    cases waits
  next ticket headers after routed =>
    rw [routed] at served parked
    refine .of_serves served fun other waits => ?_
    cases waits
    exact parked ticket headers rfl
  next session outbox preamble after routed =>
    rw [routed] at served
    simp only
    split
    · exact .of_serves served fun _ waits => by cases waits
    · exact .of_serves (served.trans (Hub.serves_failStream ..)) fun _ waits => by cases waits

private theorem passes_collect {ticket : Nat} {slot : Queue.Slot} {slots : Queue.Slots}
    (polled : h.slots.poll ticket = (slot, slots)) (hub : step.hub = { h with slots := slots.hangUp ticket })
    (idle : step.connection.ticket? = none) : Passes (some ticket) h step := by
  have collected : slots.hangUp ticket = h.slots.collect ticket := by rw [Queue.Slots.collect, polled]
  rw [collected] at hub
  refine ⟨by rw [hub], ?_, fun other different live => ?_, fun bounded => ?_, fun other again => ?_⟩
  · rw [hub]
    exact Nat.le_of_eq (h.slots.made_collect ticket).symm
  · rw [hub, Queue.Slots.Live, Queue.Slots.get?_collect, if_neg]
    · exact live
    · rintro rfl
      exact different rfl
  · rw [hub]
    exact Queue.Slots.bounded_collect bounded ticket
  · rw [idle] at again
    cases again

theorem passes_step (taken : c.step? now id h = some step) : Passes c.ticket? h step := by
  rcases step?_cases taken with ⟨config, phase, taken⟩ | ⟨ticket, keepAlive, headers, phase, taken⟩ |
    ⟨session, outbox, phase, taken⟩
  · have idle : c.ticket? = none := by rw [ticket?, phase]
    rw [idle]
    rcases stepReading_cases taken with ⟨r, rest, _, rfl⟩ | ⟨_, closed, same⟩
    · exact passes_serve r
    · refine .of_serves (same ▸ .refl h) fun ticket waits => ?_
      rw [ticket?, closed] at waits
      cases waits
  · have waits : c.ticket? = some ticket := by rw [ticket?, phase]
    rw [waits]
    obtain ⟨slot, slots, _, polled, rfl⟩ := stepParked_cases taken
    exact passes_collect polled (hub_answered ..) (ticket?_answered ..)
  · have idle : c.ticket? = none := by rw [ticket?, phase]
    rw [idle]
    cases stepStreaming_cases taken with
    | writes =>
      refine .of_serves (.same rfl rfl) fun ticket waits => ?_
      rw [ticket?_write, idle] at waits
      cases waits
    | @fails frame outboxes =>
      have received : h.Serves { h with streams := { h.streams with outboxes } } := .same rfl rfl
      exact .of_serves (received.trans (Hub.serves_failStream ..)) fun _ waits => by cases waits
    | ends => exact .of_serves (Hub.serves_endStream ..) fun _ waits => by cases waits
    | gives => exact .of_serves (Hub.serves_failStream ..) fun _ waits => by cases waits
    | drops => exact .of_serves (.refl h) fun _ waits => by simp [ticket?, phase] at waits

theorem passes_lapse {timer : Timer} (lapsed : c.lapse? timer now id h = some step) : Passes c.ticket? h step := by
  cases lapse?_cases lapsed with
  | leaves phase =>
    rw [ticket?, phase]
    exact .of_serves (.refl h) fun _ waits => by cases waits
  | excuses phase polled =>
    rw [ticket?, phase]
    exact passes_collect polled (hub_respond ..) (ticket?_respond ..)
  | comments phase =>
    have idle : c.ticket? = none := by rw [ticket?, phase]
    rw [idle]
    refine .of_serves (.same rfl rfl) fun ticket waits => ?_
    rw [ticket?_write, idle] at waits
    cases waits
  | fails phase =>
    rw [ticket?, phase]
    exact .of_serves (Hub.serves_failStream ..) fun _ waits => by cases waits

theorem passes_moves (moves : c.Moves now id h step) : Passes c.ticket? h step := by
  cases moves with
  | acts taken => exact passes_step taken
  | lapses lapsed => exact passes_lapse lapsed

end

theorem bounded_finish (bounded : h.slots.Bounded) (id : Nat) (c : Connection) : (c.finish id h).hub.slots.Bounded := by
  unfold finish
  split
  · exact bounded
  · exact bounded
  next ticket _ _ _ =>
    simp only [hub_answered]
    exact Queue.Slots.bounded_collect bounded ticket
  · rw [Hub.endStream_eq]
    exact bounded

end Connection

theorem Hub.bounded_shutDown {h : Hub} (bounded : h.slots.Bounded) : h.shutDown.slots.Bounded := by
  refine List.foldlRecOn h.queue.items _ (motive := fun h : Hub => h.slots.Bounded) bounded fun after kept p _ => ?_
  unfold refuseQueued
  split
  · exact kept
  · exact (Queue.Slots.holds_answer ..).bounded kept

theorem bounded_finishAll {h : Hub} (bounded : h.slots.Bounded) (connections : List (Nat × Connection)) :
    (finishAll connections h).2.slots.Bounded := by
  induction connections generalizing h with
  | nil => exact bounded
  | cons entry rest ih =>
    obtain ⟨id, c⟩ := entry
    exact ih (Connection.bounded_finish bounded id c)

/-- Those who wait for the executor do so where an answer can come, each at a slot of its own, and while there are
connections the queue is open and requests are as long as the configuration allows. -/
structure Attended (s : Server) : Prop where
  numbered : s.Numbered
  bounded : s.hub.slots.Bounded
  running : s.connections ≠ [] → s.isRunning
  takes : s.isRunning → s.hub.queue.closed = false
  live : ∀ id c, s.connections.get? id = some c → ∀ ticket, c.ticket? = some ticket → s.hub.slots.Live ticket
  own : ∀ id other c d, s.connections.get? id = some c → s.connections.get? other = some d →
    ∀ ticket, c.ticket? = some ticket → d.ticket? = some ticket → id = other
  limit : ∀ id c config, s.connections.get? id = some c → c.phase = .reading config →
    config.maxBodyBytes = s.hub.config.maxBodyBytes

namespace Attended
variable {s : Server}

theorem unconnected (none_ : s.connections = []) (bounded : s.hub.slots.Bounded)
    (takes : s.isRunning → s.hub.queue.closed = false) : s.Attended := by
  have absent : ∀ id c, s.connections.get? id ≠ some c := by
    intro id c found
    rw [none_] at found
    cases found
  exact {
    numbered := .empty none_
    bounded
    running := absurd none_
    takes
    live := fun id c found => absurd found (absent id c)
    own := fun id _ c _ found => absurd found (absent id c)
    limit := fun id c _ found => absurd found (absent id c) }

theorem initial (config : Config) (info : ServerInfo) : (ofConfig config info).Attended :=
  .unconnected rfl (fun _ found => absurd rfl found) fun _ => rfl

theorem mem_running (attended : s.Attended) {id : Nat} {c : Connection} (found : s.connections.get? id = some c) :
    s.isRunning :=
  attended.running fun empty => by rw [empty] at found; cases found

theorem hub_preserves (attended : s.Attended) (hub : Hub) (served : s.hub.Serves hub)
    (limit : hub.config.maxBodyBytes = s.hub.config.maxBodyBytes) (executor : Option Tool.Table) :
    Attended { s with hub, executor } where
  numbered := ⟨attended.numbered.distinct, attended.numbered.below⟩
  bounded := served.slots.bounded attended.bounded
  running := attended.running
  takes := fun running => served.queue.trans (attended.takes running)
  live := fun id c found ticket waits => served.slots.live ticket (attended.live id c found ticket waits)
  own := attended.own
  limit := fun id c config found waits => (attended.limit id c config found waits).trans limit.symm

theorem ticket_made (attended : s.Attended) {id ticket : Nat} {c : Connection}
    (found : s.connections.get? id = some c) (waits : c.ticket? = some ticket) : ticket ≤ s.hub.slots.made :=
  attended.bounded ticket (attended.live id c found ticket waits).found

private theorem other_preserves (attended : s.Attended) {after : Server} (id : Nat) (numbered : after.Numbered)
    (running : after.connections ≠ [] → after.isRunning)
    (takes : after.isRunning → after.hub.queue.closed = false) (bounded : after.hub.slots.Bounded)
    (others : ∀ other, other ≠ id → after.connections.get? other = s.connections.get? other)
    (live : ∀ other c ticket, other ≠ id → s.connections.get? other = some c → c.ticket? = some ticket →
      after.hub.slots.Live ticket)
    (new : ∀ d ticket, after.connections.get? id = some d → d.ticket? = some ticket → after.hub.slots.Live ticket ∧
      ∀ other c, other ≠ id → s.connections.get? other = some c → c.ticket? ≠ some ticket)
    (limit : ∀ d config, after.connections.get? id = some d → d.phase = .reading config →
      config.maxBodyBytes = after.hub.config.maxBodyBytes)
    (same : after.hub.config.maxBodyBytes = s.hub.config.maxBodyBytes) : after.Attended := by
  refine ⟨numbered, bounded, running, takes, ?_, ?_, ?_⟩
  · intro other c found ticket waits
    by_cases here : other = id
    · subst here
      exact (new c ticket found waits).1
    · exact live other c ticket here (others other here ▸ found) waits
  · intro first second c d found found' ticket waits waits'
    by_cases here : first = id <;> by_cases there : second = id
    · exact here.trans there.symm
    · subst here
      exact absurd waits' ((new c ticket found waits).2 second d there (others second there ▸ found'))
    · subst there
      exact absurd waits ((new d ticket found' waits').2 first c here (others first here ▸ found))
    · exact attended.own first second c d (others first here ▸ found) (others second there ▸ found') ticket waits waits'
  · intro other c config found waits
    by_cases here : other = id
    · subst here
      exact limit c config found waits
    · exact (attended.limit other c config (others other here ▸ found) waits).trans same.symm

theorem modify_preserves (attended : s.Attended) {id : Nat} {change : Connection → Option Connection}
    (numbered : (s.modify id change).Numbered) (kept : ∀ c d, change c = some d → d.phase = c.phase) :
    (s.modify id change).Attended := by
  revert numbered
  unfold modify
  split
  next d changed =>
    intro numbered
    obtain ⟨c, found, becomes⟩ := Option.bind_eq_some_iff.mp changed
    have phase := kept c d becomes
    have ticket : d.ticket? = c.ticket? := by rw [Connection.ticket?, phase, Connection.ticket?]
    refine attended.other_preserves id numbered (fun _ => attended.mem_running found) attended.takes
      attended.bounded (fun other different => ?_) (fun other c ticket _ known => attended.live other c known ticket) ?_ ?_ rfl
    · rw [Entries.get?_put, if_neg different.symm]
    · intro d' number there waits
      rw [Entries.get?_put, if_pos rfl] at there
      cases there
      rw [ticket] at waits
      refine ⟨attended.live id c found number waits, fun other e different known waits' => different ?_⟩
      exact attended.own other id e c known found number waits' waits
    · intro d' config there waits
      rw [Entries.get?_put, if_pos rfl] at there
      cases there
      exact attended.limit id c config found (phase ▸ waits)
  next => exact fun _ => attended

theorem apply_preserves (attended : s.Attended) {now : Int} {id : Nat} {c : Connection} {step : Step}
    (found : s.connections.get? id = some c) (moves : c.Moves now id s.hub step) : (s.apply id step).Attended := by
  have passes := Connection.passes_moves moves
  have config := (Hub.leads_law.moves moves fun _ _ _ _ => trivial).config
  refine attended.other_preserves id (attended.numbered.apply found step) (fun _ => attended.mem_running found)
    (fun running => passes.queue.trans (attended.takes running)) (passes.bounded attended.bounded)
    (fun other different => ?_) (fun other d ticket different known waits => ?_) ?_ ?_ (by rw [apply, config])
  · rw [get?_apply, if_neg different.symm]
  · refine passes.live ticket (fun mine => ?_) (attended.live other d known ticket waits)
    exact different (attended.own other id d c known found ticket waits mine)
  · intro d ticket there waits
    rw [get?_apply, if_pos rfl] at there
    obtain ⟨_, here⟩ := Option.ite_none_right_eq_some.mp there
    cases here
    obtain ⟨new, live⟩ := passes.fresh ticket waits
    refine ⟨live, fun other e _ known waits' => ?_⟩
    exact absurd (attended.ticket_made known waits') (Nat.not_le_of_lt new)
  · intro d config' there waits
    rw [get?_apply, if_pos rfl] at there
    obtain ⟨_, here⟩ := Option.ite_none_right_eq_some.mp there
    cases here
    rw [Connection.reading_moves moves waits]
    rfl

theorem connect_preserves (attended : s.Attended) : (s.perform .connect).Attended := by
  have numbered := attended.numbered.perform .connect
  revert numbered
  simp only [perform, connect]
  split
  next running =>
    intro numbered
    refine attended.other_preserves s.nextConnection numbered (fun _ => running) attended.takes attended.bounded
      (fun other different => ?_) (fun other c ticket _ known => attended.live other c known ticket) ?_ ?_ rfl
    · exact (Entries.get?_put ..).trans (if_neg different.symm)
    · intro d ticket there waits
      cases ((Entries.get?_put ..).trans (if_pos rfl)).symm.trans there
      cases waits
    · intro d config there waits
      cases ((Entries.get?_put ..).trans (if_pos rfl)).symm.trans there
      cases waits
      rfl
  next => exact fun _ => attended

theorem start_preserves (attended : s.Attended) (bind : Binder) (now : Int) : (s.start bind now).2.Attended := by
  rcases s.start_cases bind now with same | ⟨stopped, endpoint, hub, swept, started⟩
  · rw [same]
    exact attended
  · have empty : s.connections = [] := by
      by_contra some_
      exact Bool.eq_false_iff.mp stopped (attended.running some_)
    have opened : s.hub.slots.Holds (Hub.emit (.started endpoint) { s.hub with queue := s.hub.queue.reopen }).slots :=
      .refl _
    have served := Hub.serves_sweep now (Hub.emit (.started endpoint) { s.hub with queue := s.hub.queue.reopen })
    rw [← swept] at served
    rw [started]
    exact .unconnected empty ((opened.trans served.slots).bounded attended.bounded) fun _ => served.queue

theorem stop_preserves (attended : s.Attended) : s.stop.2.Attended := by
  unfold stop
  split
  · have refused : s.hub.shutDown.slots.Bounded := Hub.bounded_shutDown attended.bounded
    exact .unconnected rfl (bounded_finishAll refused s.connections) fun running => by cases running
  · exact attended

theorem perform_preserves (attended : s.Attended) (move : Move) : (s.perform move).Attended := by
  have owned := s.owned_cases move
  cases move with
  | connect => exact attended.connect_preserves
  | arrive id data =>
    exact attended.modify_preserves (attended.numbered.perform (.arrive id data)) fun _ _ => Connection.phase_hear
  | leave id peer =>
    refine attended.modify_preserves (attended.numbered.perform (.leave id peer)) fun c d left => ?_
    cases left
    rfl
  | act | lapse =>
    rcases owned trivial with same | ⟨_, _, _, _, found, moves, same⟩ <;> rw [same]
    · exact attended
    · exact attended.apply_preserves found moves
  | tick now =>
    simp only [perform]
    split
    next tools _ =>
      have config := (Hub.leads_tick s.hub (tools.registry (.ofNanos now)) now).config
      exact attended.hub_preserves _ (Tick.serves_tick ..) (congrArg _ config) s.executor
    next => exact attended
  | sweep now =>
    exact attended.hub_preserves _ (Hub.serves_sweep now s.hub) (congrArg _ (Hub.leads_sweep s.hub now).config) s.executor
  | attach tools =>
    simp only [perform, attach]
    split
    · exact attended
    · exact attended.hub_preserves s.hub (.refl _) rfl _
  | detach => exact attended.hub_preserves s.hub (.refl _) rfl none
  | setApiKey key =>
    exact attended.hub_preserves { s.hub with config := { s.hub.config with apiKey := key } } (.same rfl rfl)
      rfl s.executor
  | setAllowedOrigins origins =>
    exact attended.hub_preserves { s.hub with config := { s.hub.config with allowedOrigins := origins } }
      (.same rfl rfl) rfl s.executor
  | start bind now => exact attended.start_preserves bind now
  | stop => exact attended.stop_preserves

theorem run_preserves (attended : s.Attended) (moves : List Move) : (s.run moves).Attended :=
  List.foldlRecOn moves Server.perform attended fun _ kept move _ => kept.perform_preserves move

end Attended

end Server

end ToolBridge

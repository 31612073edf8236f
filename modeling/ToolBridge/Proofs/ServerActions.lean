import ToolBridge.Proofs.QueueHistory
import ToolBridge.Proofs.RoutedRequests
import ToolBridge.Server.Basic

/-! What single actions do to the hub. No action of a connection, of a writer or of the host changes the
configuration, and each works on the queue and the reply slots through the moves of an intake, if at all. A
waiting connection serves the request that it reads next, or ends. -/

namespace ToolBridge

/-- The caller takes what is in the slot and lets go of it. -/
def Queue.Slots.collect (ticket : Nat) (s : Slots) : Slots := (s.poll ticket).2.hangUp ticket

namespace Server

namespace Hub

/-- Moves at the queue lead from one hub to the other, and leave no tick and no stop under way. -/
def Reaches (before after : Hub) : Prop :=
  ∀ w : Intake, w.hub = before → w.Idle → ∃ moves, (w.run moves).hub = after ∧ (w.run moves).Idle

namespace Reaches
variable {before middle after : Hub}

theorem trans (first : before.Reaches middle) (second : middle.Reaches after) : before.Reaches after := by
  intro w here idle
  obtain ⟨moves, there, idle⟩ := first w here idle
  obtain ⟨more, ended, idle⟩ := second _ there idle
  exact ⟨moves ++ more, by rw [Intake.run_append, ended], by rwa [Intake.run_append]⟩

theorem apart (queue : after.queue = before.queue) (slots : after.slots = before.slots) : before.Reaches after := by
  rintro w rfl idle
  refine ⟨[.elsewhere after], ?_, idle⟩
  change { after with queue := w.hub.queue, slots := w.hub.slots } = after
  rw [← queue, ← slots]

theorem push {p : Queue.Pending} {queue : Queue} (taken : before.queue.push? (before.prepare p).1 = some queue) :
    before.Reaches { before with queue, slots := (before.prepare p).2 } := by
  rintro w rfl idle
  have pushed : w.step (.push p) = { w with
      hub := { w.hub with queue, slots := (w.hub.prepare p).2 }
      accepted := w.accepted ++ [(w.hub.prepare p).1] } := by
    simp only [Intake.step, Intake.stepPush, taken]
  refine ⟨[.push p], ?_⟩
  rw [Intake.run_cons, pushed]
  exact ⟨rfl, idle⟩

theorem reopen (h : Hub) : h.Reaches { h with queue := h.queue.reopen } := by
  rintro w rfl idle
  exact ⟨[.reopen], rfl, idle⟩

theorem collect (h : Hub) (ticket : Nat) : h.Reaches { h with slots := h.slots.collect ticket } := by
  rintro w rfl idle
  exact ⟨[.poll ticket, .hangUp ticket], rfl, idle⟩

private theorem idle_append {w after : Intake} {b : Batch} (idle : w.Idle) (done : b.left = [])
    (batches : after.batches = w.batches ++ [b]) : after.Idle := by
  intro other member
  rw [batches] at member
  rcases List.mem_append.mp member with earlier | last
  · exact idle other earlier
  · exact List.mem_singleton.mp last ▸ done

theorem tick (registry : Tool.Registry) (now : Int) (h : Hub) : h.Reaches (Tick.tick registry now h).2 := by
  rintro w rfl idle
  obtain ⟨done, ended, batches, _⟩ := w.tick_run registry now
  exact ⟨_, ended, idle_append idle rfl batches⟩

theorem shutDown (h : Hub) : h.Reaches h.shutDown := by
  rintro w rfl idle
  obtain ⟨done, ended, batches, _⟩ := w.shutDown_run
  exact ⟨_, ended, idle_append idle rfl batches⟩

end Reaches

structure Leads (before after : Hub) : Prop where
  config : after.config = before.config
  queue : before.Reaches after

namespace Leads
variable {before middle after : Hub}

theorem trans (first : before.Leads middle) (second : middle.Leads after) : before.Leads after :=
  ⟨second.config.trans first.config, first.queue.trans second.queue⟩

theorem apart (config : after.config = before.config) (queue : after.queue = before.queue)
    (slots : after.slots = before.slots) : before.Leads after :=
  ⟨config, .apart queue slots⟩

theorem refl (h : Hub) : h.Leads h := .apart rfl rfl rfl

theorem foldl {α : Type} (change : Hub → α → Hub) (items : List α)
    (leads : ∀ (h : Hub) (item : α), h.Leads (change h item)) (h : Hub) : h.Leads (items.foldl change h) :=
  List.foldlRecOn items change (motive := h.Leads) (.refl h) fun after led item _ => led.trans (leads after item)

end Leads

variable (h : Hub)

theorem leads_expire (session : String) : h.Leads (h.expire session) := by
  simp only [expire]
  cases (h.streams.closeSession session).1 <;> exact .apart rfl rfl rfl

theorem leads_discardDead (session : String) : h.Leads (h.discardDead session) := by
  unfold discardDead
  split
  · exact .refl h
  · exact .apart rfl rfl rfl

theorem leads_sweep (now : Int) : h.Leads (h.sweep now) := by
  unfold sweep
  have swept : h.Leads { h with sessions := (h.sessions.sweep now h.config.sessionIdle).2 } := .apart rfl rfl rfl
  exact (swept.trans (.foldl _ _ (fun h session => h.leads_expire session) _)).trans
    (.foldl _ _ (fun h session => h.leads_discardDead session) _)

theorem leads_failStream (connection : Nat) (session : String) (failed : Option EventStream.Frame) (outbox : Nat) :
    h.Leads (h.failStream connection session failed outbox) := by
  simp only [failStream]
  split <;> exact .apart rfl rfl rfl

theorem leads_endStream (connection : Nat) (session : String) : h.Leads (h.endStream connection session) := by
  simp only [endStream]
  split <;> exact .apart rfl rfl rfl

theorem leads_shutDown : h.Leads h.shutDown :=
  ⟨Job.refuse.config_foldl { h with queue := h.queue.close.2 } h.queue.items, .shutDown h⟩

theorem leads_tick (registry : Tool.Registry) (now : Int) : h.Leads (Tick.tick registry now h).2 :=
  let batch := h.queue.take (max 1 h.config.maxRequestsPerTick)
  ⟨(Job.run registry now).config_foldl { h with queue := batch.2 } batch.1, .tick registry now h⟩

end Hub

namespace Route

theorem leads_route (now : Int) (c : Config) (r : Http.Request) (connection : Nat) (h : Hub) :
    h.Leads (route now c r connection h).2 := by
  have result := route_result now c r connection h
  generalize route now c r connection h = routed at result ⊢
  obtain ⟨routed, after⟩ := routed
  cases result with
  | told => exact .refl _
  | @queued session queue _ _ _ _ _ taken =>
    have touched : h.Leads { h with sessions := seen now (some session) h.sessions } := .apart rfl rfl rfl
    exact touched.trans ⟨rfl, Hub.Reaches.push (p := pending r connection (some session) .stream) taken⟩
  | turnedAway => exact .apart rfl rfl rfl
  | parked taken =>
    have named : h.Leads { h with sessions := seen now (r.header? Access.sessionHeader) h.sessions } :=
      .apart rfl rfl rfl
    refine named.trans ⟨rfl, ?_⟩
    exact Hub.Reaches.push (p := pending r connection (r.header? Access.sessionHeader) (.direct 0)) taken
  | @opened session _ found _ finds =>
    have housed : h.Leads found := by cases finds <;> exact .apart rfl rfl rfl
    exact housed.trans (.apart rfl rfl rfl)
  | closed => exact .apart rfl rfl rfl

end Route

namespace Connection

theorem hub_respond (response : Http.Response) (close : Bool) (c : Connection) (h : Hub) :
    (c.respond response close h).hub = h := by
  unfold respond
  generalize (if close then response.withHeader "Connection" "close" else response) = response
  simp only
  split <;> rfl

theorem phase_respond (response : Http.Response) (close : Bool) (c : Connection) (h : Hub) :
    (c.respond response close h).connection.phase = .closed ∨
      (c.respond response close h).connection.phase = .reading h.config := by
  unfold respond
  generalize (if close then response.withHeader "Connection" "close" else response) = response
  simp only
  split
  · exact Or.inl rfl
  · exact Or.inr rfl

/-- Routing a request is all that happens to the hub, unless a stream cannot be written to from the start. -/
theorem hub_serve (now : Int) (id : Nat) (config : Config) (r : Http.Request) (c : Connection) (h : Hub) :
    (c.serve now id config r h).hub = (Route.route now config r id h).2 ∨ ∃ session outbox,
      (c.serve now id config r h).hub = (Route.route now config r id h).2.failStream id session none outbox := by
  unfold serve
  split
  next same => exact Or.inl (by rw [hub_respond, same])
  next same => exact Or.inl (by rw [same])
  next session outbox preamble after same =>
    rw [same]
    simp only
    split
    · exact Or.inl rfl
    · exact Or.inr ⟨session, outbox, rfl⟩

theorem phase_refuse (fault : Http.Fault) (c : Connection) (h : Hub) :
    (c.refuse fault h).connection.phase = .closed := by
  unfold refuse
  split <;> rfl

theorem hub_refuse (fault : Http.Fault) (c : Connection) (h : Hub) : (c.refuse fault h).hub = h := by
  unfold refuse
  split <;> rfl

/-- The request that a waiting connection reads next, and what is left then. -/
def nextRequest? (limit : Nat) (c : Connection) : Option (Http.Request × Bytes) :=
  if c.peer = .lost then none
  else match Http.readRequest limit c.inbox with
    | .done (some r) rest => some (r, rest)
    | .more (.ok (some r)) => if c.peer = .present then none else some (r, [])
    | _ => none

/-- A waiting connection serves a request, or ends. -/
theorem stepReading_cases {now : Int} {id : Nat} {config : Config} {c : Connection} {h : Hub} {step : Step}
    (taken : c.stepReading now id config h = some step) :
    (∃ r rest, c.nextRequest? config.maxBodyBytes = some (r, rest) ∧
      step = ({ c with inbox := rest } : Connection).serve now id config r h) ∨
    c.nextRequest? config.maxBodyBytes = none ∧ step.connection.phase = .closed ∧ step.hub = h := by
  unfold stepReading at taken
  unfold nextRequest?
  split at taken
  next lost =>
    cases taken
    exact Or.inr ⟨if_pos lost, rfl, rfl⟩
  next heard =>
    rw [if_neg heard]
    split at taken
    next result rest read =>
      cases taken
      rw [read]
      cases result with
      | some r => exact Or.inl ⟨r, rest, rfl, rfl⟩
      | none => exact Or.inr ⟨rfl, rfl, rfl⟩
    next fault read =>
      cases taken
      rw [read]
      exact Or.inr ⟨rfl, phase_refuse .., hub_refuse ..⟩
    next atEnd read =>
      rw [read]
      split at taken
      · cases taken
      next ended =>
        cases taken
        rcases atEnd with fault | _ | r
        · exact Or.inr ⟨rfl, phase_refuse .., hub_refuse ..⟩
        · exact Or.inr ⟨rfl, rfl, rfl⟩
        · exact Or.inl ⟨r, [], if_neg ended, rfl⟩

/-- The request is there as a whole, or no more of it will come. -/
theorem nextRequest?_eq_some {limit : Nat} {c : Connection} {r : Http.Request} {rest : Bytes}
    (next : c.nextRequest? limit = some (r, rest)) : c.peer ≠ .lost ∧
      (Http.readRequest limit c.inbox = .done (some r) rest ∨
        Http.readRequest limit c.inbox = .more (.ok (some r)) ∧ c.peer ≠ .present ∧ rest = []) := by
  unfold nextRequest? at next
  split at next
  · cases next
  next heard =>
    split at next
    next read =>
      cases next
      exact ⟨heard, Or.inl read⟩
    next read =>
      split at next
      · cases next
      next ended =>
        cases next
        exact ⟨heard, Or.inr ⟨read, ended, rfl⟩⟩
    · cases next

theorem stepReading_serves {now : Int} {id : Nat} {config : Config} {c : Connection} {r : Http.Request}
    {rest : Bytes} (h : Hub) (next : c.nextRequest? config.maxBodyBytes = some (r, rest)) :
    c.stepReading now id config h = some (({ c with inbox := rest } : Connection).serve now id config r h) := by
  obtain ⟨heard, read | ⟨read, ended, rfl⟩⟩ := nextRequest?_eq_some next
  · simp only [stepReading, if_neg heard, read]
  · simp only [stepReading, if_neg heard, read, if_neg ended]

theorem hub_answered (slot : Queue.Slot) (keepAlive : Bool) (headers : List (String × String)) (c : Connection)
    (h : Hub) : (c.answered slot keepAlive headers h).hub = h := by
  unfold answered
  exact hub_respond ..

theorem phase_write (data : Bytes) (c : Connection) : (c.write data).2.2.phase = c.phase := by
  unfold write
  split <;> rfl

theorem inbox_write (data : Bytes) (c : Connection) : (c.write data).2.2.inbox = c.inbox := by
  unfold write
  split <;> rfl

/-- A connection goes on once there is an answer, or once there will be none. -/
theorem stepParked_cases {ticket : Nat} {keepAlive : Bool} {headers : List (String × String)} {c : Connection}
    {h : Hub} {step : Step} (taken : c.stepParked ticket keepAlive headers h = some step) :
    ∃ slot slots, slot ≠ .waiting ∧ h.slots.poll ticket = (slot, slots) ∧
      step = c.answered slot keepAlive headers { h with slots := slots.hangUp ticket } := by
  unfold stepParked at taken
  split at taken
  · cases taken
  next slot slots ready polled =>
    cases taken
    exact ⟨slot, slots, ready, polled, rfl⟩

/-- What a connection that streams does next. -/
inductive Streams (now : Int) (id : Nat) (session : String) (outbox : Nat) (c : Connection) (h : Hub) : Step → Prop where
  | writes {frame : EventStream.Frame} {outboxes : Stream.Outboxes}
      (received : h.streams.outboxes.receive outbox = (.frame frame, outboxes))
      (written : (c.write (Text.utf8 frame.encode)).1 = true) :
      Streams now id session outbox c h ⟨(c.write (Text.utf8 frame.encode)).2.2,
        ({ h with streams := { h.streams with outboxes } }.touch now session).2, (c.write (Text.utf8 frame.encode)).2.1⟩
  /-- The frame is handed back. -/
  | fails {frame : EventStream.Frame} {outboxes : Stream.Outboxes}
      (received : h.streams.outboxes.receive outbox = (.frame frame, outboxes))
      (unwritten : ¬ (c.write (Text.utf8 frame.encode)).1 = true) :
      Streams now id session outbox c h ⟨(c.write (Text.utf8 frame.encode)).2.2.closed,
        { h with streams := { h.streams with outboxes } }.failStream id session (some frame) outbox,
        (c.write (Text.utf8 frame.encode)).2.1⟩
  | ends {outboxes : Stream.Outboxes} (received : h.streams.outboxes.receive outbox = (.ended, outboxes)) :
      Streams now id session outbox c h ⟨c.closed, h.endStream id session, []⟩
  /-- There is nothing to write, and the other side is gone. -/
  | gives {outboxes : Stream.Outboxes} (received : h.streams.outboxes.receive outbox = (.empty, outboxes))
      (absent : c.peer ≠ .present) :
      Streams now id session outbox c h ⟨c.closed, h.failStream id session none outbox, []⟩
  /-- What the other side sends is not read. -/
  | drops {outboxes : Stream.Outboxes} (received : h.streams.outboxes.receive outbox = (.empty, outboxes))
      (present : c.peer = .present) (arrived : c.inbox ≠ []) :
      Streams now id session outbox c h ⟨{ c with inbox := [] }, h, []⟩

theorem stepStreaming_cases {now : Int} {id : Nat} {session : String} {outbox : Nat} {c : Connection} {h : Hub}
    {step : Step} (taken : c.stepStreaming now id session outbox h = some step) :
    c.Streams now id session outbox h step := by
  unfold stepStreaming at taken
  split at taken
  next frame outboxes received =>
    simp only at taken
    split at taken
    next written =>
      cases taken
      exact .writes received written
    next unwritten =>
      cases taken
      exact .fails received unwritten
  next outboxes received =>
    cases taken
    exact .ends received
  next outboxes received =>
    split at taken
    next absent =>
      cases taken
      exact .gives received absent
    next present =>
      split at taken
      next arrived =>
        cases taken
        exact .drops received (Classical.not_not.mp present) arrived
      next => cases taken

theorem step?_cases {now : Int} {id : Nat} {c : Connection} {h : Hub} {step : Step}
    (taken : c.step? now id h = some step) :
    (∃ config, c.phase = .reading config ∧ c.stepReading now id config h = some step) ∨
    (∃ ticket keepAlive headers, c.phase = .parked ticket keepAlive headers ∧
      c.stepParked ticket keepAlive headers h = some step) ∨
    ∃ session outbox, c.phase = .streaming session outbox ∧ c.stepStreaming now id session outbox h = some step := by
  unfold step? at taken
  split at taken
  next config phase => exact Or.inl ⟨config, phase, taken⟩
  next ticket keepAlive headers phase => exact Or.inr (Or.inl ⟨ticket, keepAlive, headers, phase, taken⟩)
  next session outbox phase => exact Or.inr (Or.inr ⟨session, outbox, phase, taken⟩)
  next => cases taken

/-- What a connection does when a time is over. -/
inductive Lapses (now : Int) (id : Nat) (c : Connection) (h : Hub) : Timer → Step → Prop where
  | leaves {config : Config} (phase : c.phase = .reading config) (idle : c.stepReading now id config h = none) :
      Lapses now id c h .patience ⟨c.closed, h, []⟩
  | excuses {ticket : Nat} {keepAlive : Bool} {headers : List (String × String)} {slots : Queue.Slots}
      (phase : c.phase = .parked ticket keepAlive headers) (polled : h.slots.poll ticket = (.waiting, slots)) :
      Lapses now id c h .patience (c.respond (Route.withHeaders headers Route.timedOut) (!keepAlive)
        { h with slots := slots.hangUp ticket })
  | comments {session : String} {outbox : Nat} (phase : c.phase = .streaming session outbox)
      (written : (c.write (Text.utf8 EventStream.keepAliveComment)).1 = true) :
      Lapses now id c h .keepAlive ⟨(c.write (Text.utf8 EventStream.keepAliveComment)).2.2, (h.touch now session).2,
        (c.write (Text.utf8 EventStream.keepAliveComment)).2.1⟩
  | fails {session : String} {outbox : Nat} (phase : c.phase = .streaming session outbox)
      (unwritten : ¬ (c.write (Text.utf8 EventStream.keepAliveComment)).1 = true) :
      Lapses now id c h .keepAlive ⟨(c.write (Text.utf8 EventStream.keepAliveComment)).2.2.closed,
        h.failStream id session none outbox, (c.write (Text.utf8 EventStream.keepAliveComment)).2.1⟩

theorem lapse?_cases {timer : Timer} {now : Int} {id : Nat} {c : Connection} {h : Hub} {step : Step}
    (lapsed : c.lapse? timer now id h = some step) : c.Lapses now id h timer step := by
  unfold lapse? at lapsed
  split at lapsed
  next config phase =>
    split at lapsed
    next idle =>
      cases lapsed
      exact .leaves phase (Option.isNone_iff_eq_none.mp idle)
    next => cases lapsed
  next ticket keepAlive headers phase =>
    unfold lapseParked at lapsed
    split at lapsed
    next slots polled =>
      cases lapsed
      exact .excuses phase polled
    next => cases lapsed
  next session outbox phase =>
    cases lapsed
    simp only [lapseStreaming]
    split
    next written => exact .comments phase written
    next unwritten => exact .fails phase unwritten
  next => cases lapsed

/-- What a connection does of its own: it takes its next action, or a time is over. -/
inductive Moves (now : Int) (id : Nat) (c : Connection) (h : Hub) (step : Step) : Prop where
  | acts (taken : c.step? now id h = some step)
  | lapses {timer : Timer} (lapsed : c.lapse? timer now id h = some step)

end Connection

end Server

end ToolBridge

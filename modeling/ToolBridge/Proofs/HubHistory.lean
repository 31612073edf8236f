import ToolBridge.Proofs.QueueHistory
import ToolBridge.Proofs.RoutedRequests
import ToolBridge.Proofs.StreamQueries

/-! Runs of a hub at the grain at which its parts are locked. Requests are routed, writers take frames and end,
sessions are swept, and the executor works on a request in three steps, all in any order. A record stands
beside the hub: what happened to the streams, which requests were accepted, and which the executor has worked
off. It decides nothing. -/

namespace ToolBridge.Stream

theorem World.registry_run (w : World) (actions : List Action) :
    (w.run actions).registry = actions.foldl Action.perform w.registry := by
  induction actions generalizing w with
  | nil => rfl
  | cons action rest ih => exact (ih (w.step action)).trans (by rw [registry_step, List.foldl_cons])

theorem Registry.discardAll_eq (r : Registry) (sessions : List String) :
    (sessions.map Action.discardPending).foldl Action.perform r =
      { r with pending := r.pending.filter fun entry => entry.1 ∉ sessions } := by
  induction sessions generalizing r with
  | nil => simp
  | cons session rest ih =>
    have once : (Action.discardPending session).perform r = { r with pending := r.pending.erase session } := rfl
    rw [List.map_cons, List.foldl_cons, once, ih, Entries.erase, List.filter_filter]
    congr 1
    exact List.filter_congr fun entry _ => by simp [Bool.and_comm]

end ToolBridge.Stream

namespace ToolBridge.Server

/-- A request that the executor has run, and against which tools. A host may have others by the time of the next
request. -/
structure Worked where
  request : Queue.Pending
  registry : Tool.Registry
  outcome : Dispatch.Answer

/-- How far the executor has got with a request: it has been run, or its session has been found there to collect the
reply. Between looking for the session and delivering the reply anything may happen to the session. -/
inductive Stage where
  | answered (w : Worked)
  | cleared (w : Worked) (session : String) (reply : Rpc.Reply)

def Stage.worked : Stage → Worked
  | .answered w | .cleared w _ _ => w

structure Desk where
  batch : List Queue.Pending := []
  stage : Option Stage := none
  done : List Worked := []

namespace Desk

def Free (d : Desk) : Prop := d.batch = [] ∧ d.stage = none

def finish (w : Worked) (d : Desk) : Desk := { d with stage := none, done := d.done ++ [w] }

def take (h : Hub) (d : Desk) : Hub × Desk :=
  let (batch, queue) := h.queue.take (max 1 h.config.maxRequestsPerTick)
  ({ h with queue }, { d with batch := d.batch ++ batch })

def dispatch (registry : Tool.Registry) (now : Int) (h : Hub) (d : Desk) : Hub × Desk :=
  match d.stage, d.batch with
  | none, p :: batch =>
    let (outcome, h) := Tick.perform registry now p h
    (Tick.announce outcome h, { d with batch, stage := some (.answered ⟨p, registry, outcome⟩) })
  | _, _ => (h, d)

def check (h : Hub) (d : Desk) : Hub × Desk :=
  match d.stage with
  | some (.answered w) => match w.request.route, Tick.collectible? w.outcome h with
    | .stream, some (session, reply) => (h, { d with stage := some (.cleared w session reply) })
    | _, _ => (Tick.hand w.request w.outcome h, d.finish w)
  | _ => (h, d)

def deliver (h : Hub) (d : Desk) : Hub × Desk :=
  match d.stage with
  | some (.cleared w session reply) => ({ h with streams := (h.streams.deliver session reply.text).2 }, d.finish w)
  | _ => (h, d)

end Desk

/-- What may happen to a hub at one time. The parts of a hub are locked for the length of a deed, and any other deed may
come before the next. -/
inductive Deed where
  | serve (now : Int) (config : Config) (request : Http.Request) (connection : Nat)
  | receive (outbox : Nat)
  /-- A frame got through, which keeps its session alive. -/
  | touch (now : Int) (session : String)
  /-- A writer gives up, with the frame that it could not write. -/
  | fail (stream : Stream.Opening) (failed : Option EventStream.Frame)
  | unregister (stream : Stream.Opening)
  | sweep (now : Int)
  | take
  | dispatch (registry : Tool.Registry) (now : Int)
  | check
  | deliver
  | configure (config : Config)
  /-- Callers look into their reply slots or let go. -/
  | collect (slots : Queue.Slots)
  | reopen (endpoint : Net.Endpoint)
  | refuse
  | closeAll
  | halt

namespace Deed

def perform (h : Hub) (d : Desk) : Deed → Hub × Desk
  | .serve now config r connection => ((Route.route now config r connection h).2, d)
  | .receive outbox => ({ h with streams := (Stream.Action.receive outbox).perform h.streams }, d)
  | .touch now session => ((h.touch now session).2, d)
  | .fail stream failed => (h.failStream stream.connection stream.session failed stream.outbox, d)
  | .unregister stream => (h.endStream stream.connection stream.session, d)
  | .sweep now => (h.sweep now, d)
  | .take => d.take h
  | .dispatch registry now => d.dispatch registry now h
  | .check => d.check h
  | .deliver => d.deliver h
  | .configure config => ({ h with config }, d)
  | .collect slots => ({ h with slots }, d)
  | .reopen endpoint => ({ h with queue := h.queue.reopen }.emit (.started endpoint), d)
  | .refuse => (h.queue.items.foldl (fun h p => h.refuseQueued p) { h with queue := h.queue.close.2 }, d)
  | .closeAll => ({ h with streams := h.streams.closeAll.2 }, d)
  | .halt => (h.emit .stopped, d)

def working (registry : Tool.Registry) (now : Int) : List Deed := [.dispatch registry now, .check, .deliver]

/-- A tick with nothing in between: a batch is taken from the queue, and each request in it is run, its session looked up
and its reply delivered before the next one is. -/
def ticking (registry : Tool.Registry) (now : Int) (h : Hub) : List Deed :=
  .take :: (h.queue.items.take (max 1 h.config.maxRequestsPerTick)).flatMap fun _ => working registry now

def Executes : Deed → Prop
  | .take | .dispatch _ _ | .check | .deliver => True
  | _ => False

theorem executes_ticking {registry : Tool.Registry} {now : Int} {h : Hub} :
    ∀ deed ∈ ticking registry now h, deed.Executes := by
  intro deed member
  rcases List.mem_cons.mp member with rfl | working
  · trivial
  · obtain ⟨_, _, member⟩ := List.mem_flatMap.mp working
    simp only [Deed.working, List.mem_cons, List.not_mem_nil, or_false] at member
    rcases member with rfl | rfl | rfl <;> trivial

end Deed

/-! ## What a deed does to the streams -/

/-- What a sweep does to the streams: those of the expired sessions are closed, then what waits for no session is
dropped. -/
def Hub.sweptActions (swept : List String × SessionTable) (streams : Stream.Registry) : List Stream.Action :=
  let closings := swept.1.map Stream.Action.closeSession
  closings ++ ((closings.foldl Stream.Action.perform streams).pendingSessions.filter
    fun session => !swept.2.contains session).map .discardPending

def Hub.sweepActions (now : Int) (h : Hub) : List Stream.Action :=
  sweptActions (h.sessions.sweep now h.config.sessionIdle) h.streams

/-- What routing a request does to the streams, told from what becomes of the request. -/
def Routed.actions (r : Http.Request) (connection : Nat) : Routed → List Stream.Action
  | .stream session _ _ => [.register connection session (Route.resumeAfter r)]
  | .respond response _ =>
    if r.method = "DELETE" ∧ response.status = 204 then
      (r.header? Access.sessionHeader).toList.map .closeSession
    else []
  | .park _ _ => []

def Deed.actions (h : Hub) (d : Desk) : Deed → List Stream.Action
  | .serve now config r connection => (Route.route now config r connection h).1.actions r connection
  | .receive outbox => [.receive outbox]
  | .fail stream failed => [.fail stream.connection failed stream.outbox]
  | .unregister stream => [.unregister stream.connection]
  | .sweep now => h.sweepActions now
  | .deliver => match d.stage with
    | some (.cleared _ session reply) => [.deliver session reply.text]
    | _ => []
  | .closeAll => [.closeAll]
  | _ => []

/-- The executor passes replies on, and does nothing else to the streams. -/
theorem Deed.actions_executes {deed : Deed} (executes : deed.Executes) (h : Hub) (d : Desk) :
    deed.actions h d = [] ∨ ∃ session data, deed.actions h d = [.deliver session data] := by
  cases deed with
  | take | dispatch _ _ | check => exact Or.inl rfl
  | deliver =>
    rw [actions]
    split
    next session reply _ => exact Or.inr ⟨session, reply.text, rfl⟩
    next => exact Or.inl rfl
  | _ => exact executes.elim

/-! ## Runs -/

structure Posting where
  session : String
  body : String
deriving DecidableEq

def Routed.posting? (r : Http.Request) : Routed → Option Posting
  | .respond response _ =>
    if response.status = 202 then (r.query.get? Route.sessionParameter).map (⟨·, r.bodyText⟩) else none
  | _ => none

structure Chronicle where
  hub : Hub := {}
  desk : Desk := {}
  streams : Stream.World := {}
  /-- The requests of the older transport that were accepted, oldest first. -/
  posted : List Posting := []
  /-- The connections whose streams a deletion, a delivery or a stop has ended. -/
  hushed : List Nat := []

namespace Chronicle

def start (config : Config) (info : ServerInfo) : Chronicle := { hub := { config, info } }

def posting? (c : Chronicle) : Deed → Option Posting
  | .serve now config r connection => (Route.route now config r connection c.hub).1.posting? r
  | _ => none

/-- The streams that a deed ends and does not tell observers of. -/
def hushes (before after : Stream.Registry) : Deed → List Nat
  | .serve _ _ r _ => if r.method = "DELETE" then lost else []
  | .deliver | .closeAll => lost
  | _ => []
where lost := before.connections.keys.filter fun id => (after.connections.get? id).isNone

def step (c : Chronicle) (deed : Deed) : Chronicle :=
  let (hub, desk) := deed.perform c.hub c.desk
  { hub, desk
    streams := c.streams.run (deed.actions c.hub c.desk)
    posted := c.posted ++ (c.posting? deed).toList
    hushed := c.hushed ++ hushes c.hub.streams hub.streams deed }

theorem hub_step (c : Chronicle) (deed : Deed) : (c.step deed).hub = (deed.perform c.hub c.desk).1 := rfl

theorem desk_step (c : Chronicle) (deed : Deed) : (c.step deed).desk = (deed.perform c.hub c.desk).2 := rfl

theorem streams_step (c : Chronicle) (deed : Deed) :
    (c.step deed).streams = c.streams.run (deed.actions c.hub c.desk) := rfl

theorem hushed_step (c : Chronicle) (deed : Deed) :
    (c.step deed).hushed = c.hushed ++ hushes c.hub.streams (c.step deed).hub.streams deed := rfl

theorem posted_step (c : Chronicle) (deed : Deed) : (c.step deed).posted = c.posted ++ (c.posting? deed).toList := rfl

def run (c : Chronicle) (deeds : List Deed) : Chronicle := deeds.foldl step c

def Lawful (permitted : Chronicle → Deed → Prop) (c : Chronicle) : List Deed → Prop
  | [] => True
  | deed :: rest => permitted c deed ∧ Lawful permitted (c.step deed) rest

instance lawfulDecidable (permitted : Chronicle → Deed → Prop) [∀ c deed, Decidable (permitted c deed)] :
    (c : Chronicle) → (deeds : List Deed) → Decidable (Lawful permitted c deeds)
  | _, [] => inferInstanceAs (Decidable True)
  | c, deed :: rest =>
    have := lawfulDecidable permitted (c.step deed) rest
    inferInstanceAs (Decidable (permitted c deed ∧ Lawful permitted (c.step deed) rest))

theorem run_append (c : Chronicle) (first last : List Deed) : c.run (first ++ last) = (c.run first).run last :=
  List.foldl_append

theorem Lawful.append {permitted : Chronicle → Deed → Prop} {c : Chronicle} {first last : List Deed}
    (earlier : Lawful permitted c first) (later : Lawful permitted (c.run first) last) :
    Lawful permitted c (first ++ last) := by
  induction first generalizing c with
  | nil => exact later
  | cons deed rest ih => exact ⟨earlier.1, ih earlier.2 later⟩

theorem Lawful.of_forall {permitted : Chronicle → Deed → Prop} (c : Chronicle) {deeds : List Deed}
    (always : ∀ deed ∈ deeds, ∀ c, permitted c deed) : Lawful permitted c deeds := by
  induction deeds generalizing c with
  | nil => trivial
  | cons deed rest ih =>
    obtain ⟨first, later⟩ := List.forall_mem_cons.mp always
    exact ⟨first c, ih (c.step deed) later⟩

theorem run_preserves {permitted : Chronicle → Deed → Prop} {holds : Chronicle → Prop}
    (preserves : ∀ c deed, holds c → permitted c deed → holds (c.step deed))
    {c : Chronicle} {deeds : List Deed} (start : holds c) (lawful : Lawful permitted c deeds) :
    holds (c.run deeds) := by
  induction deeds generalizing c with
  | nil => exact start
  | cons deed rest ih => exact ih (preserves c deed start lawful.1) lawful.2

def Does (permitted : Stream.World → Stream.Action → Prop) (c : Chronicle) (deed : Deed) : Prop :=
  c.streams.Lawful permitted (deed.actions c.hub c.desk)

/-- A stream is opened under a connection that had none before. -/
def Fresh : Chronicle → Deed → Prop := Does Stream.World.Fresh

instance (c : Chronicle) (deed : Deed) : Decidable (c.Fresh deed) :=
  inferInstanceAs (Decidable (c.streams.Lawful Stream.World.Fresh _))

end Chronicle

/-! ## What single changes to the hub amount to -/

theorem Event.count_eq {α : Type} [BEq α] [LawfulBEq α] {read : Event → Option α} {value : α} {event : Event}
    (only : ∀ other, read other = some value ↔ other = event) (events : List Event) :
    events.count event = (events.filterMap read).count value := by
  rw [List.count_filterMap, List.count]
  exact List.countP_congr fun other _ => by simp [only]

namespace Hub

theorem expire_eq (session : String) (h : Hub) : h.expire session =
    { h with
      streams := (h.streams.closeSession session).2
      events := h.events ++
        ((h.streams.closeSession session).1.toList.map (.streamClosed session) ++ [.sessionClosed session]) } := by
  simp only [expire]
  cases (h.streams.closeSession session).1 <;> simp [emit]

def closingNotices : List String → Stream.Registry → List Event
  | [], _ => []
  | session :: rest, r => (r.closeSession session).1.toList.map (.streamClosed session) ++ .sessionClosed session ::
      closingNotices rest (r.closeSession session).2

theorem expireAll_eq (sessions : List String) (h : Hub) : sessions.foldl (fun h session => h.expire session) h =
    { h with
      streams := (sessions.map Stream.Action.closeSession).foldl Stream.Action.perform h.streams
      events := h.events ++ closingNotices sessions h.streams } := by
  induction sessions generalizing h with
  | nil => simp [closingNotices]
  | cons session rest ih =>
    rw [List.foldl_cons, ih, expire_eq]
    simp [closingNotices, Stream.Action.perform]

theorem discardAll_eq (sessions : List String) (h : Hub) :
    sessions.foldl (fun h session => h.discardDead session) h =
      { h with streams := ((sessions.filter fun session => !h.sessions.contains session).map
          Stream.Action.discardPending).foldl Stream.Action.perform h.streams } := by
  induction sessions generalizing h with
  | nil => rfl
  | cons session rest ih =>
    rw [List.foldl_cons]
    cases known : h.sessions.contains session with
    | true =>
      rw [discardDead, if_pos known, List.filter_cons_of_neg (by simp [known])]
      exact ih h
    | false =>
      rw [discardDead, if_neg (by simp [known]), List.filter_cons_of_pos (by simp [known])]
      exact ih { h with streams := (h.streams.discardPending session).2 }

/-- What a sweep makes of a hub, given what it takes out of the table and what it leaves there. -/
structure Swept (swept : List String × SessionTable) (before after : Hub) : Prop where
  sessions : after.sessions = swept.2
  streams : after.streams = (sweptActions swept before.streams).foldl Stream.Action.perform before.streams
  events : after.events = before.events ++ closingNotices swept.1 before.streams
  queue : after.queue = before.queue

private theorem endAll_swept (swept : List String × SessionTable) (h : Hub) :
    let ended := swept.1.foldl (fun h session => h.expire session) { h with sessions := swept.2 }
    Swept swept h (ended.streams.pendingSessions.foldl (fun h session => h.discardDead session) ended) := by
  intro ended
  have expired : ended = _ := expireAll_eq swept.1 { h with sessions := swept.2 }
  rw [discardAll_eq, expired]
  exact ⟨rfl, by rw [sweptActions, List.foldl_append], rfl, rfl⟩

/-- The sweep of the table stands as a variable until here, or the kernel would evaluate it. -/
theorem sweep_swept (now : Int) (h : Hub) : Swept (h.sessions.sweep now h.config.sessionIdle) h (h.sweep now) :=
  endAll_swept (h.sessions.sweep now h.config.sessionIdle) h

/-- What waits after a sweep, waits for sessions of the table; what waited for these is left as the closings leave it. -/
theorem pending_swept (now : Int) (h : Hub) : (h.sweep now).streams.pending =
    (((h.sessions.sweep now h.config.sessionIdle).1.map Stream.Action.closeSession).foldl Stream.Action.perform
      h.streams).pending.filter fun entry => (h.sweep now).sessions.contains entry.1 := by
  rw [(h.sweep_swept now).sessions, (h.sweep_swept now).streams, sweptActions, List.foldl_append,
    Stream.Registry.discardAll_eq]
  refine List.filter_congr fun entry member => ?_
  have listed : entry.1 ∈ Stream.Registry.pendingSessions _ := List.mem_map_of_mem member
  simp [List.mem_filter, listed]

theorem failStream_eq (connection : Nat) (session : String) (failed : Option EventStream.Frame) (outbox : Nat)
    (h : Hub) : h.failStream connection session failed outbox =
      { h with
        streams := (h.streams.fail connection failed outbox).2
        events := h.events ++
          (h.streams.fail connection failed outbox).1.toList.map fun _ => .streamClosed session connection } := by
  simp only [failStream]
  cases (h.streams.fail connection failed outbox).1 <;> simp [emit]

theorem endStream_eq (connection : Nat) (session : String) (h : Hub) : h.endStream connection session =
    { h with
      streams := (h.streams.unregister connection).2
      events := h.events ++ (h.streams.unregister connection).1.toList.map fun _ => .streamClosed session connection } := by
  simp only [endStream]
  cases (h.streams.unregister connection).1 <;> simp [emit]

theorem refuseAll_eq (items : List Queue.Pending) (h : Hub) :
    ∃ slots, items.foldl (fun h p => h.refuseQueued p) h = { h with slots } := by
  refine List.foldlRecOn items _ (motive := fun after : Hub => ∃ slots, after = { h with slots }) ⟨h.slots, rfl⟩ ?_
  rintro _ ⟨slots, rfl⟩ p _
  unfold refuseQueued
  split <;> exact ⟨_, rfl⟩

theorem shutDown_eq (h : Hub) :
    ∃ slots, h.shutDown = { h with queue := h.queue.close.2, slots, streams := h.streams.closeAll.2 } := by
  obtain ⟨slots, refused⟩ := refuseAll_eq h.queue.close.1 { h with queue := h.queue.close.2 }
  exact ⟨slots, by simp only [shutDown, refused]⟩

theorem streams_sweep {holds : Stream.Registry → Prop} {h : Hub} (now : Int) (start : holds h.streams)
    (closes : ∀ r session, holds r → holds (r.closeSession session).2)
    (drops : ∀ r session, holds r → holds (r.discardPending session).2) : holds (h.sweep now).streams := by
  rw [(h.sweep_swept now).streams]
  refine List.foldlRecOn _ Stream.Action.perform start fun r held action member => ?_
  rcases List.mem_append.mp member with closing | drop
  · obtain ⟨session, _, rfl⟩ := List.mem_map.mp closing
    exact closes r session held
  · obtain ⟨session, _, rfl⟩ := List.mem_map.mp drop
    exact drops r session held

end Hub

namespace Tick

theorem announce_eq (a : Dispatch.Answer) (h : Hub) : ∃ news, announce a h = { h with events := h.events ++ news } ∧
    ∀ event ∈ news, ∃ session, event = .sessionOpened session := by
  unfold announce
  split
  next session _ _ => exact ⟨[.sessionOpened session], rfl, by simp⟩
  next => exact ⟨[], by simp, by simp⟩

/-- Only replies of the older transport go to the streams. -/
theorem hand_eq {p : Queue.Pending} {a : Dispatch.Answer} {h : Hub}
    (elsewhere : p.route = .stream → collectible? a h = none) : hand p a h = { h with slots := h.slots.settle p a } := by
  unfold hand Queue.Slots.settle Queue.Pending.ticket?
  cases route : p.route with
  | direct ticket => rfl
  | stream =>
    rw [elsewhere route]

end Tick

namespace Desk
variable (d : Desk) (h : Hub)

theorem dispatch_cases (registry : Tool.Registry) (now : Int) :
    (∃ w batch news, d.stage = none ∧ d.batch = w.request :: batch ∧
      w.outcome = (Tick.perform w.registry now w.request h).1 ∧ (∀ event ∈ news, ∃ session, event = .sessionOpened session) ∧
      d.dispatch registry now h = ({ (Tick.perform w.registry now w.request h).2 with events := h.events ++ news },
        { d with batch, stage := some (.answered w) })) ∨
    d.dispatch registry now h = (h, d) := by
  unfold dispatch
  split
  next p batch free waits =>
    have unchanged : (Tick.perform registry now p h).2.events = h.events := by rw [Tick.hub_perform]
    generalize performed : Tick.perform registry now p h = performance at unchanged ⊢
    obtain ⟨outcome, after⟩ := performance
    obtain ⟨news, announced, opened⟩ := Tick.announce_eq outcome after
    refine Or.inl ⟨⟨p, registry, outcome⟩, batch, news, free, waits, ?_, opened, ?_⟩
    · rw [performed]
    · rw [performed]
      dsimp only
      rw [announced, unchanged]
  next => exact Or.inr rfl

theorem check_cases :
    (∃ w session reply, d.stage = some (.answered w) ∧ w.request.route = .stream ∧
      Tick.collectible? w.outcome h = some (session, reply) ∧
      d.check h = (h, { d with stage := some (.cleared w session reply) })) ∨
    (∃ w, d.stage = some (.answered w) ∧ (w.request.route = .stream → Tick.collectible? w.outcome h = none) ∧
      d.check h = ({ h with slots := h.slots.settle w.request w.outcome }, d.finish w)) ∨
    d.check h = (h, d) := by
  unfold check
  split
  next w answered =>
    split
    next session reply route found => exact Or.inl ⟨w, session, reply, answered, route, found, rfl⟩
    next other =>
      have elsewhere : w.request.route = .stream → Tick.collectible? w.outcome h = none := by
        intro route
        cases found : Tick.collectible? w.outcome h with
        | none => rfl
        | some pair => exact (other pair.1 pair.2 route found).elim
      exact Or.inr (Or.inl ⟨w, answered, elsewhere, by rw [Tick.hand_eq elsewhere]⟩)
  next => exact Or.inr (Or.inr rfl)

theorem deliver_cases :
    (∃ w session reply, d.stage = some (.cleared w session reply) ∧
      d.deliver h = ({ h with streams := (h.streams.deliver session reply.text).2 }, d.finish w)) ∨
    (∀ w session reply, d.stage ≠ some (.cleared w session reply)) ∧ d.deliver h = (h, d) := by
  unfold deliver
  split
  next w session reply cleared => exact Or.inl ⟨w, session, reply, cleared, rfl⟩
  next other => exact Or.inr ⟨other, rfl⟩

theorem deliver_check {w : Worked} (answered : d.stage = some (.answered w)) :
    (d.check h).2.deliver (d.check h).1 = (Tick.hand w.request w.outcome h, d.finish w) := by
  unfold check
  rw [answered]
  dsimp only
  split
  next session reply route found =>
    simp only [deliver, Tick.hand, route, found]
    rfl
  next => rfl

end Desk

/-! ## Whole ticks -/

namespace Chronicle
variable (registry : Tool.Registry) (now : Int)

/-- Where nothing comes between its three deeds, a request is worked off as a tick does it, and the record has what
came of it. -/
theorem run_working (c : Chronicle) {p : Queue.Pending} {batch : List Queue.Pending} (waits : c.desk.batch = p :: batch)
    (free : c.desk.stage = none) :
    (c.run (Deed.working registry now)).hub = Tick.process registry now p c.hub ∧
    (c.run (Deed.working registry now)).desk =
      { batch, done := c.desk.done ++ [⟨p, registry, (Tick.perform registry now p c.hub).1⟩] } := by
  have dispatched : c.desk.dispatch registry now c.hub =
      (Tick.announce (Tick.perform registry now p c.hub).1 (Tick.perform registry now p c.hub).2,
        { c.desk with batch, stage := some (.answered ⟨p, registry, (Tick.perform registry now p c.hub).1⟩) }) := by
    simp only [Desk.dispatch, free, waits]
  have handed := Desk.deliver_check (c.desk.dispatch registry now c.hub).2 (c.desk.dispatch registry now c.hub).1
    (congrArg (·.2.stage) dispatched)
  refine ⟨(congrArg Prod.fst handed).trans ?_, (congrArg Prod.snd handed).trans ?_⟩ <;> rw [dispatched]
  · dsimp only
    exact (Tick.process_eq registry now p c.hub).symm
  · rfl

private theorem run_batch (c : Chronicle) (free : c.desk.stage = none) :
    ∃ more, (c.run (c.desk.batch.flatMap fun _ => Deed.working registry now)).hub =
        c.desk.batch.foldl (fun h p => Tick.process registry now p h) c.hub ∧
      (c.run (c.desk.batch.flatMap fun _ => Deed.working registry now)).desk =
        { done := c.desk.done ++ more } ∧
      more.map (·.request) = c.desk.batch ∧ ∀ w ∈ more, w.registry = registry := by
  generalize waits : c.desk.batch = batch
  induction batch generalizing c with
  | nil =>
    have idle : c.desk = { done := c.desk.done } := by rw [← waits, ← free]
    refine ⟨[], rfl, ?_, rfl, List.forall_mem_nil _⟩
    rw [List.append_nil]
    exact idle
  | cons p batch ih =>
    obtain ⟨hub, desk⟩ := c.run_working registry now waits free
    obtain ⟨more, worked, cleared, requests, against⟩ := ih (c.run (Deed.working registry now))
      (congrArg Desk.stage desk) (congrArg Desk.batch desk)
    refine ⟨⟨p, registry, (Tick.perform registry now p c.hub).1⟩ :: more, ?_, ?_, ?_, ?_⟩
    · rw [List.flatMap_cons, run_append, worked, hub, List.foldl_cons]
    · rw [List.flatMap_cons, run_append, cleared, desk, List.append_assoc, List.singleton_append]
    · rw [List.map_cons, requests]
    · exact List.forall_mem_cons.mpr ⟨rfl, against⟩

/-- A whole tick is one run of deeds, which takes requests from the front of the queue and works off all of them. What
holds after every run of deeds so holds before and after every tick. -/
theorem run_ticking (c : Chronicle) (free : c.desk.Free) :
    ∃ more, (c.run (Deed.ticking registry now c.hub)).hub = (Tick.tick registry now c.hub).2 ∧
      (c.run (Deed.ticking registry now c.hub)).desk = { done := c.desk.done ++ more } ∧
      more.map (·.request) = c.hub.queue.items.take (max 1 c.hub.config.maxRequestsPerTick) ∧
      more.length = (Tick.tick registry now c.hub).1 ∧ ∀ w ∈ more, w.registry = registry := by
  have taken : (c.step .take).desk =
      { c.desk with batch := c.hub.queue.items.take (max 1 c.hub.config.maxRequestsPerTick) } := by
    rw [desk_step, Deed.perform, Desk.take, free.1]
    rfl
  obtain ⟨more, hub, desk, requests, against⟩ := (c.step .take).run_batch registry now (by rw [taken]; exact free.2)
  rw [taken] at hub desk requests
  refine ⟨more, hub, desk, requests, ?_, against⟩
  rw [← List.length_map, requests]
  rfl

end Chronicle

/-! ## The record of the streams -/

theorem Route.streams_route (now : Int) (c : Config) (r : Http.Request) (connection : Nat) (h : Hub) :
    (route now c r connection h).2.streams =
      ((route now c r connection h).1.actions r connection).foldl Stream.Action.perform h.streams := by
  have result := route_result now c r connection h
  generalize route now c r connection h = routed at result ⊢
  obtain ⟨routed, after⟩ := routed
  cases result with
  | told unqueued unclosed =>
    rw [Routed.actions, if_neg fun ⟨method, status⟩ => unclosed method status]
    rfl
  | queued status named known taken => simp [Routed.actions, status]
  | turnedAway status => simp [Routed.actions, status]
  | parked taken => rfl
  | opened method finds => cases finds <;> rfl
  | closed named known method status => simp [Routed.actions, method, status, named]; rfl

theorem Deed.streams_perform (h : Hub) (d : Desk) (deed : Deed) :
    (deed.perform h d).1.streams = (deed.actions h d).foldl Stream.Action.perform h.streams := by
  cases deed with
  | serve now config r connection => exact Route.streams_route now config r connection h
  | fail stream failed => rw [perform, Hub.failStream_eq]; rfl
  | unregister stream => rw [perform, Hub.endStream_eq]; rfl
  | sweep now => exact (h.sweep_swept now).streams
  | dispatch registry now =>
    rw [perform]
    rcases d.dispatch_cases h registry now with ⟨_, _, _, _, _, _, _, same⟩ | same <;> rw [same]
    · dsimp only
      rw [Tick.hub_perform]
      rfl
    · rfl
  | check =>
    rw [perform]
    rcases d.check_cases h with ⟨_, _, _, _, _, _, same⟩ | ⟨_, _, _, same⟩ | same <;> rw [same] <;> rfl
  | deliver =>
    rw [perform]
    rcases d.deliver_cases h with ⟨w, session, reply, cleared, same⟩ | ⟨other, same⟩
    · rw [same, actions, cleared]
      rfl
    · rw [same, actions]
      split
      next w session reply cleared => exact absurd cleared (other w session reply)
      next => rfl
  | refuse =>
    obtain ⟨slots, refused⟩ := Hub.refuseAll_eq h.queue.items { h with queue := h.queue.close.2 }
    rw [perform, refused]
    rfl
  | receive _ | touch _ _ | take | configure _ | collect _ | reopen _ | closeAll | halt => rfl

namespace Chronicle
variable {c : Chronicle}

/-- The record of the streams is about the streams of the hub. -/
structure Faithful (c : Chronicle) : Prop where
  mirrored : c.streams.registry = c.hub.streams
  recorded : c.streams.Recorded

theorem step_mirrored (mirrored : c.streams.registry = c.hub.streams) (deed : Deed) :
    (c.step deed).streams.registry = (c.step deed).hub.streams := by
  simp only [step, Stream.World.registry_run, Deed.streams_perform, mirrored]

namespace Faithful

theorem initial (config : Config) (info : ServerInfo) : (start config info).Faithful := ⟨rfl, .initial⟩

theorem step_preserves (faithful : c.Faithful) (deed : Deed) (fresh : c.Fresh deed) : (c.step deed).Faithful :=
  ⟨step_mirrored faithful.mirrored deed, Stream.World.run_preserves
    (fun _ action held fresh => held.step_preserves action (held.fresh_sound fresh)) faithful.recorded fresh⟩

theorem consistent (faithful : c.Faithful) : c.hub.streams.Consistent :=
  faithful.mirrored ▸ faithful.recorded.consistent

end Faithful

end Chronicle

end ToolBridge.Server

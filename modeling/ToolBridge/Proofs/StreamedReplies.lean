import ToolBridge.Proofs.Answers
import ToolBridge.Proofs.HubHistory
import ToolBridge.Proofs.LateRequests
import ToolBridge.Proofs.StreamHousing
import ToolBridge.Proofs.StreamSequence

/-! Requests of the older transport are replied to in the order in which they were accepted. One queue keeps all of
them, the executor takes them from its front, and while their sessions last each reply is delivered for the session
that the request named. -/

namespace ToolBridge

/-- Only a delivery adds to what was delivered. -/
theorem Stream.World.delivered_run (w : World) {actions : List Action}
    (undelivered : ∀ session data, .deliver session data ∉ actions) : (w.run actions).delivered = w.delivered := by
  refine List.foldlRecOn actions step (motive := fun after => after.delivered = w.delivered) rfl ?_
  intro after same action member
  rw [← same]
  cases action with
  | deliver session data => exact absurd member (undelivered session data)
  | receive outbox => simp only [step, stepReceive]
  | _ => rfl

/-- A request is left without a reply just if it wants none, and the tools could be listed if it asked for them. -/
theorem Server.unreplied_iff (registry : Tool.Registry) (now : Int) (p : Queue.Pending) (h : Hub) :
    (Tick.perform registry now p h).1.reply = none ↔ Rpc.Request.WantsNone p.body ∧
      ¬ (Rpc.Request.AsksTools p.body ∧ ∃ crash, registry.list = .error crash) := by
  have crashes := Dispatch.dispatch_crashes registry h.info now p.session h.sessions p.body
  have suits := fun a => Dispatch.dispatch_suits (a := a) registry h.info now p.session h.sessions p.body
  unfold Tick.perform
  generalize Dispatch.dispatch registry h.info now p.body p.session h.sessions = dispatched at crashes suits ⊢
  obtain ⟨result, sessions⟩ := dispatched
  cases result with
  | ok a =>
    rw [(suits a rfl).silent, iff_self_and]
    rintro _ ⟨asks, crash, listed⟩
    cases (crashes crash).mpr ⟨asks, listed⟩
  | error crash => exact iff_of_false nofun fun ⟨_, listed⟩ => listed ⟨((crashes crash).mp rfl).1, crash, ((crashes crash).mp rfl).2⟩

/-- The acceptance that a queued request goes back to, if its reply goes to a stream. -/
def Queue.Pending.posting? (p : Pending) : Option Server.Posting :=
  match p.route with
  | .stream => p.session.map (⟨·, p.body⟩)
  | .direct _ => none

namespace Server

/-- The request was posted for the session, and its reply goes to a stream. -/
def Worked.under (session : String) (w : Worked) : Bool :=
  w.request.route = .stream ∧ w.request.session = some session

theorem Worked.under_iff {session : String} {w : Worked} :
    w.under session = true ↔ w.request.route = .stream ∧ w.request.session = some session := by
  simp [under]

def Worked.text? (w : Worked) : Option String := w.outcome.reply.map (·.text)

/-- The outcome is one that a tick gives to the request. -/
def Worked.Given (w : Worked) : Prop := ∃ now h, w.outcome = (Tick.perform w.registry now w.request h).1

/-- What the executor has found out about the request that it works on. -/
def Stage.Sound : Stage → Prop
  | .answered w => ∀ session, w.under session → w.outcome.session = some session
  | .cleared w session reply => w.under session ∧ w.outcome.reply = some reply

def Deed.refuses : Deed → Bool
  | .refuse => true
  | _ => false

def Desk.waiting (d : Desk) : List Queue.Pending := d.stage.toList.map (·.worked.request) ++ d.batch

def Desk.worked (d : Desk) : List Worked := d.done ++ d.stage.toList.map (·.worked)

/-- What routing a request queues is told from what becomes of the request. -/
theorem Route.queue_route (now : Int) (c : Config) (r : Http.Request) (connection : Nat) (h : Hub) :
    ∃ more, (route now c r connection h).2.queue.items = h.queue.items ++ more ∧
      ((route now c r connection h).1.posting? r).toList = more.filterMap (·.posting?) ∧
      ∀ p ∈ more, p.route = .stream → ∃ session, p.session = some session ∧ h.sessions.contains session = true := by
  have result := route_result now c r connection h
  generalize route now c r connection h = routed at result ⊢
  obtain ⟨routed, after⟩ := routed
  have pushed : ∀ {p queue}, h.queue.push? p = some queue → queue.items = h.queue.items ++ [p] := by
    intro p queue taken
    unfold Queue.push? at taken
    split at taken <;> cases taken
    rfl
  cases result with
  | told unqueued unclosed => exact ⟨[], by simp, by simp [Routed.posting?, unqueued], List.forall_mem_nil _⟩
  | @queued session queue response close status named known taken =>
    refine ⟨[_], pushed taken, ?_, ?_⟩
    · simp [Routed.posting?, status, named, pending, Queue.Pending.posting?]
    · intro p member _
      rw [List.mem_singleton] at member
      exact ⟨session, member ▸ rfl, known⟩
  | turnedAway status => exact ⟨[], by simp, by simp [Routed.posting?, status], List.forall_mem_nil _⟩
  | parked taken =>
    refine ⟨[_], pushed taken, rfl, ?_⟩
    intro p member route
    rw [List.mem_singleton] at member
    rw [member] at route
    cases route
  | opened method finds => exact ⟨[], by cases finds <;> simp, rfl, List.forall_mem_nil _⟩
  | closed named known method status => exact ⟨[], by simp, by simp [Routed.posting?, status], List.forall_mem_nil _⟩

namespace Chronicle

/-- The accepted requests that have not been worked off yet, in order. -/
def waiting (c : Chronicle) : List Queue.Pending := c.desk.waiting ++ c.hub.queue.items

/-- The requests worked off and the ones still waiting are the accepted ones, and what was delivered for a session is
what they were replied. -/
structure Accounted (c : Chronicle) : Prop where
  posted : c.posted = (c.desk.done.map (·.request) ++ c.waiting).filterMap (·.posting?)
  known : ∀ p ∈ c.waiting, p.route = .stream →
    ∃ session, p.session = some session ∧ c.hub.sessions.contains session = true
  given : ∀ w ∈ c.desk.worked, w.Given
  staged : ∀ stage, c.desk.stage = some stage → stage.Sound
  delivered : ∀ session, c.streams.delivered session = (c.desk.done.filter (·.under session)).filterMap (·.text?)

namespace Accounted
variable {c : Chronicle}

theorem initial (config : Config) (info : ServerInfo) : (start config info).Accounted := by
  refine ⟨rfl, ?_, ?_, ?_, fun _ => rfl⟩ <;>
    simp [start, waiting, Desk.waiting, Desk.worked]

/-- Requests are queued behind the others, under sessions that the table knows, and nothing is delivered. -/
private theorem queued (accounted : c.Accounted) {after : Chronicle} (more : List Queue.Pending)
    (desk : after.desk = c.desk) (items : after.hub.queue.items = c.hub.queue.items ++ more)
    (posted : after.posted = c.posted ++ more.filterMap (·.posting?))
    (delivered : after.streams.delivered = c.streams.delivered)
    (kept : ∀ session, c.hub.sessions.contains session = true → after.hub.sessions.contains session = true)
    (known : ∀ p ∈ more, p.route = .stream →
      ∃ session, p.session = some session ∧ c.hub.sessions.contains session = true) : after.Accounted := by
  have waits : after.waiting = c.waiting ++ more := by
    rw [waiting, desk, items, ← List.append_assoc]
    rfl
  refine ⟨?_, ?_, desk ▸ accounted.given, desk ▸ accounted.staged, ?_⟩
  · rw [posted, accounted.posted, desk, waits, ← List.filterMap_append, List.append_assoc]
  · intro p member route
    rw [waits] at member
    obtain ⟨session, named, there⟩ := (List.mem_append.mp member).elim
      (fun old => accounted.known p old route) (fun new => known p new route)
    exact ⟨session, named, kept session there⟩
  · rw [delivered, desk]
    exact accounted.delivered

private theorem take_preserves (accounted : c.Accounted) {after : Chronicle}
    (hub : after.hub = (c.desk.take c.hub).1) (desk : after.desk = (c.desk.take c.hub).2)
    (posted : after.posted = c.posted) (delivered : after.streams.delivered = c.streams.delivered) :
    after.Accounted := by
  simp only [Desk.take] at hub desk
  have waits : after.waiting = c.waiting := by
    simp [waiting, Desk.waiting, hub, desk, Queue.take]
  refine ⟨?_, ?_, ?_, ?_, ?_⟩
  · rw [posted, waits, accounted.posted, desk]
  · rw [waits, hub]
    exact accounted.known
  · rw [desk]
    exact accounted.given
  · rw [desk]
    exact accounted.staged
  · rw [delivered, desk]
    exact accounted.delivered

private theorem dispatch_preserves (accounted : c.Accounted) {w : Worked} {batch : List Queue.Pending}
    (given : w.Given) (under : ∀ session, w.request.session = some session →
      c.hub.sessions.contains session = true → w.outcome.session = some session)
    (free : c.desk.stage = none) (waits : c.desk.batch = w.request :: batch) {after : Chronicle}
    (desk : after.desk = { c.desk with batch, stage := some (.answered w) })
    (items : after.hub.queue.items = c.hub.queue.items) (posted : after.posted = c.posted)
    (delivered : after.streams.delivered = c.streams.delivered)
    (kept : ∀ session, c.hub.sessions.contains session = true → after.hub.sessions.contains session = true) :
    after.Accounted := by
  have same : after.waiting = c.waiting := by
    simp [waiting, Desk.waiting, desk, items, free, waits, Stage.worked]
  refine ⟨?_, ?_, ?_, ?_, ?_⟩
  · rw [posted, same, accounted.posted, desk]
  · intro q member route
    obtain ⟨session, named, there⟩ := accounted.known q (same ▸ member) route
    exact ⟨session, named, kept session there⟩
  · intro v member
    simp only [Desk.worked, desk, Option.toList_some, List.map_singleton, List.mem_append, List.mem_singleton] at member
    rcases member with done | rfl
    · exact accounted.given v (List.mem_append_left _ done)
    · exact given
  · intro stage staged
    rw [desk] at staged
    cases staged
    intro session posted
    obtain ⟨route, named⟩ := Worked.under_iff.mp posted
    obtain ⟨other, same, known⟩ := accounted.known w.request (by simp [waiting, Desk.waiting, waits]) route
    obtain rfl : other = session := Option.some.inj (same.symm.trans named)
    exact under other named known
  · rw [delivered, desk]
    exact accounted.delivered

/-- A request that is worked off leaves what waits, and is behind all that were worked off before. -/
private theorem finish_preserves (accounted : c.Accounted) {stage : Stage} (staged : c.desk.stage = some stage)
    {after : Chronicle} (desk : after.desk = c.desk.finish stage.worked)
    (items : after.hub.queue.items = c.hub.queue.items) (posted : after.posted = c.posted)
    (sessions : after.hub.sessions = c.hub.sessions)
    (delivered : ∀ session, after.streams.delivered session = c.streams.delivered session ++
      ([stage.worked].filter (·.under session)).filterMap (·.text?)) : after.Accounted := by
  have waits : c.waiting = stage.worked.request :: after.waiting := by
    simp [waiting, Desk.waiting, Desk.finish, desk, items, staged]
  refine ⟨?_, ?_, ?_, ?_, ?_⟩
  · rw [posted, accounted.posted, desk, waits]
    simp [Desk.finish]
  · intro q member route
    rw [sessions]
    exact accounted.known q (waits ▸ List.mem_cons_of_mem _ member) route
  · have same : after.desk.worked = c.desk.worked := by
      simp [Desk.worked, Desk.finish, desk, staged]
    rw [same]
    exact accounted.given
  · intro other running
    rw [desk] at running
    cases running
  · intro session
    rw [delivered, accounted.delivered, desk, Desk.finish, List.filter_append, List.filterMap_append]

private theorem posted_under (accounted : c.Accounted) {stage : Stage} (staged : c.desk.stage = some stage)
    (route : stage.worked.request.route = .stream) :
    ∃ session, stage.worked.under session = true ∧ c.hub.sessions.contains session = true := by
  obtain ⟨session, named, known⟩ := accounted.known stage.worked.request (by simp [waiting, Desk.waiting, staged]) route
  exact ⟨session, Worked.under_iff.mpr ⟨route, named⟩, known⟩

private theorem collected (accounted : c.Accounted) {w : Worked} (staged : c.desk.stage = some (.answered w))
    {session : String} (under : w.under session = true) :
    Tick.collectible? w.outcome c.hub = w.outcome.reply.map (session, ·) := by
  obtain ⟨route, named⟩ := Worked.under_iff.mp under
  obtain ⟨other, again, known⟩ := accounted.posted_under staged route
  obtain rfl : other = session := Option.some.inj ((Worked.under_iff.mp again).2.symm.trans named)
  have found : w.outcome.session = some other := accounted.staged _ staged other under
  cases reply : w.outcome.reply <;> simp [Tick.collectible?, found, known, reply]

private theorem check_preserves (accounted : c.Accounted) {after : Chronicle}
    (hub : after.hub = (c.desk.check c.hub).1) (desk : after.desk = (c.desk.check c.hub).2)
    (posted : after.posted = c.posted) (delivered : after.streams.delivered = c.streams.delivered) :
    after.Accounted := by
  rcases c.desk.check_cases c.hub with ⟨w, session, reply, stage, route, found, same⟩ | ⟨w, stage, nowhere, same⟩ |
    same <;> rw [same] at hub desk
  · have waits : after.waiting = c.waiting := by
      simp [waiting, Desk.waiting, hub, desk, stage, Stage.worked]
    have worked : after.desk.worked = c.desk.worked := by
      simp [Desk.worked, desk, stage, Stage.worked]
    refine ⟨?_, ?_, ?_, ?_, ?_⟩
    · rw [posted, waits, accounted.posted, desk]
    · rw [waits, hub]
      exact accounted.known
    · rw [worked]
      exact accounted.given
    · intro stage' staged
      rw [desk] at staged
      cases staged
      obtain ⟨other, under, _⟩ := accounted.posted_under stage route
      obtain ⟨given, replied, pair⟩ := Option.map_eq_some_iff.mp ((accounted.collected stage under).symm.trans found)
      cases pair
      exact ⟨under, replied⟩
    · rw [delivered, desk]
      exact accounted.delivered
  · refine accounted.finish_preserves stage desk (by rw [hub]) posted (by rw [hub]) ?_
    intro session
    rw [delivered]
    cases under : w.under session with
    | false => simp [Stage.worked, under]
    | true =>
      have silent := (accounted.collected stage under).symm.trans (nowhere (Worked.under_iff.mp under).1)
      simp [Stage.worked, under, Worked.text?, Option.map_eq_none_iff.mp silent]
  · exact accounted.queued [] desk (by simp [hub]) (by simp [posted]) delivered (by simp [hub]) (List.forall_mem_nil _)

private theorem deliver_preserves (accounted : c.Accounted) {after : Chronicle}
    (hub : after.hub = (c.desk.deliver c.hub).1) (desk : after.desk = (c.desk.deliver c.hub).2)
    (posted : after.posted = c.posted)
    (streams : after.streams = c.streams.run (Deed.deliver.actions c.hub c.desk)) : after.Accounted := by
  rcases c.desk.deliver_cases c.hub with ⟨w, session, reply, stage, same⟩ | ⟨other, same⟩ <;>
    rw [same] at hub desk
  · obtain ⟨under, replied⟩ := accounted.staged _ stage
    have passed : after.streams = c.streams.stepDeliver session reply.text := by
      rw [streams, Deed.actions, stage]
      rfl
    refine accounted.finish_preserves stage desk (by rw [hub]) posted (by rw [hub]) ?_
    intro other
    rw [passed]
    simp only [Stream.World.stepDeliver]
    by_cases here : other = session
    · subst here
      simp [Stage.worked, under, Worked.text?, replied]
    · have apart : w.under other = false := by
        rw [Bool.eq_false_iff]
        intro again
        exact here (Option.some.inj ((Worked.under_iff.mp again).2.symm.trans (Worked.under_iff.mp under).2))
      simp [Stage.worked, here, apart]
  · have idle : after.streams = c.streams := by
      rw [streams, Deed.actions]
      split
      next w session reply stage => exact absurd stage (other w session reply)
      next => rfl
    exact accounted.queued [] desk (by simp [hub]) (by simp [posted]) (by rw [idle]) (by simp [hub]) (List.forall_mem_nil _)

private theorem serve_preserves (accounted : c.Accounted) (now : Int) (config : Config) (r : Http.Request)
    (connection : Nat) (kept : ∀ session, c.hub.sessions.contains session = true →
      (c.step (.serve now config r connection)).hub.sessions.contains session = true) :
    (c.step (.serve now config r connection)).Accounted := by
  obtain ⟨more, items, posted, known⟩ := Route.queue_route now config r connection c.hub
  refine accounted.queued more (desk_step ..) items ?_ ?_ kept known
  · rw [posted_step, ← posted, posting?]
  · rw [streams_step]
    refine Stream.World.delivered_run c.streams ?_
    intro session data member
    simp only [Deed.actions, Routed.actions] at member
    split at member <;> first | (split at member <;> simp at member) | simp at member

theorem step_preserves (accounted : c.Accounted) (deed : Deed) (unrefused : deed.refuses = false)
    (kept : ∀ session, c.hub.sessions.contains session = true → (c.step deed).hub.sessions.contains session = true) :
    (c.step deed).Accounted := by
  have hub := c.hub_step deed
  have desk := c.desk_step deed
  have unposted : c.posting? deed = none → (c.step deed).posted = c.posted := by
    intro nothing
    rw [posted_step, nothing, Option.toList_none, List.append_nil]
  have undelivered : (∀ session data, .deliver session data ∉ deed.actions c.hub c.desk) →
      (c.step deed).streams.delivered = c.streams.delivered := Stream.World.delivered_run c.streams
  -- Most deeds leave the queue and the executor alone, and deliver nothing.
  have elsewhere : (deed.perform c.hub c.desk).2 = c.desk →
      (deed.perform c.hub c.desk).1.queue.items = c.hub.queue.items → c.posting? deed = none →
      (∀ session data, .deliver session data ∉ deed.actions c.hub c.desk) → (c.step deed).Accounted := by
    intro idle items nothing silent
    refine accounted.queued [] (desk.trans idle) ?_ ?_ (undelivered silent) kept (List.forall_mem_nil _)
    · rw [hub, items, List.append_nil]
    · rw [unposted nothing, List.filterMap_nil, List.append_nil]
  cases deed with
  | serve now config r connection => exact accounted.serve_preserves now config r connection kept
  | take => exact accounted.take_preserves hub desk (unposted rfl) (undelivered (by simp [Deed.actions]))
  | dispatch registry now =>
    rcases c.desk.dispatch_cases c.hub registry now with ⟨w, batch, news, free, waits, performed, _, same⟩ | same
    · rw [Deed.perform, same] at hub desk
      refine accounted.dispatch_preserves ⟨now, c.hub, performed⟩ ?_ free waits desk (by rw [hub]; rfl) (unposted rfl)
        (undelivered (by simp [Deed.actions])) kept
      intro session named known
      rw [performed]
      exact Tick.perform_known w.registry now c.hub named known
    · exact elsewhere (congrArg Prod.snd same) (congrArg (·.1.queue.items) same) rfl (by simp [Deed.actions])
  | check => exact accounted.check_preserves hub desk (unposted rfl) (undelivered (by simp [Deed.actions]))
  | deliver => exact accounted.deliver_preserves hub desk (unposted rfl) (c.streams_step .deliver)
  | refuse => cases unrefused
  | sweep now =>
    refine elsewhere rfl (congrArg Queue.items (c.hub.sweep_swept now).queue) rfl ?_
    simp [Deed.actions, Hub.sweepActions, Hub.sweptActions]
  | fail stream failed =>
    refine elsewhere rfl ?_ rfl (by simp [Deed.actions])
    rw [Deed.perform, Hub.failStream_eq]
  | unregister stream =>
    refine elsewhere rfl ?_ rfl (by simp [Deed.actions])
    rw [Deed.perform, Hub.endStream_eq]
  | receive _ | touch _ _ | configure _ | collect _ | reopen _ | closeAll | halt =>
    exact elsewhere rfl rfl rfl (by simp [Deed.actions])

end Accounted

/-- Streams are opened under fresh connections and failed by their own writers, no session ends, and no stop refuses
what is queued. -/
def Steady (c : Chronicle) (deed : Deed) : Prop :=
  c.Does (fun w action => w.Fresh action ∧ w.Given action) deed ∧
    (∀ s ∈ c.hub.sessions.sessions, (c.step deed).hub.sessions.contains s.id = true) ∧ deed.refuses = false

instance (c : Chronicle) (deed : Deed) : Decidable (c.Steady deed) :=
  have : Decidable (c.Does (fun w action => w.Fresh action ∧ w.Given action) deed) :=
    inferInstanceAs (Decidable (c.streams.Lawful _ _))
  inferInstanceAs (Decidable (_ ∧ (∀ s ∈ c.hub.sessions.sessions, _) ∧ _ = false))

/-- The executor opens no stream, fails none and ends no session. -/
theorem steady_executes (c : Chronicle) {deed : Deed} (executes : deed.Executes) : c.Steady deed := by
  refine ⟨?_, ?_, ?_⟩
  · rw [Does]
    rcases Deed.actions_executes executes c.hub c.desk with none_ | ⟨session, data, one⟩
    · rw [none_]
      trivial
    · rw [one]
      exact ⟨⟨trivial, trivial⟩, trivial⟩
  · intro s member
    refine Deed.sessions_perform c.hub c.desk deed (SessionTable.contains_iff.mpr ⟨s, member, rfl⟩) ?_
    rcases Deed.actions_executes executes c.hub c.desk with none_ | ⟨session, data, one⟩
    · simp [none_]
    · simp [one]
  · cases deed with
    | refuse => exact executes.elim
    | _ => rfl

/-- What a tick makes of a chronicle: the front of the queue is worked off against the tools, in order, and each reply
to a request that was posted for a session is delivered for it. -/
structure Ticked (registry : Tool.Registry) (now : Int) (before after : Chronicle) : Prop where
  hub : after.hub = (Tick.tick registry now before.hub).2
  free : after.desk.Free
  mirrored : after.streams.registry = after.hub.streams
  worked : ∃ more : List Worked, after.desk.done = before.desk.done ++ more ∧
    more.map (·.request) = before.hub.queue.items.take (max 1 before.hub.config.maxRequestsPerTick) ∧
    more.length = (Tick.tick registry now before.hub).1 ∧ (∀ w ∈ more, w.registry = registry) ∧
    ∀ session, after.streams.delivered session =
      before.streams.delivered session ++ (more.filter (·.under session)).filterMap (·.text?)

/-- Every request is accounted for, and the streams carry replies in the order of their delivery. -/
structure InOrder (c : Chronicle) : Prop extends Accounted c where
  mirrored : c.streams.registry = c.hub.streams
  sequenced : c.streams.Sequenced

namespace InOrder
variable {c : Chronicle}

theorem initial (config : Config) (info : ServerInfo) : (start config info).InOrder :=
  ⟨.initial config info, rfl, .initial⟩

theorem step_preserves (ordered : c.InOrder) (deed : Deed) (steady : c.Steady deed) : (c.step deed).InOrder := by
  obtain ⟨does, kept, unrefused⟩ := steady
  refine ⟨ordered.toAccounted.step_preserves deed unrefused ?_, step_mirrored ordered.mirrored deed, ?_⟩
  · intro session known
    obtain ⟨s, member, rfl⟩ := SessionTable.contains_iff.mp known
    exact kept s member
  · exact Stream.World.run_preserves (fun _ action held permitted => held.step_preserves action permitted.1 permitted.2)
      ordered.sequenced does

theorem run_preserves (ordered : c.InOrder) {deeds : List Deed} (lawful : Lawful Steady c deeds) :
    (c.run deeds).InOrder :=
  Chronicle.run_preserves (fun _ deed held steady => held.step_preserves deed steady) ordered lawful

theorem tick (ordered : c.InOrder) (free : c.desk.Free) (registry : Tool.Registry) (now : Int) :
    Lawful Steady c (Deed.ticking registry now c.hub) ∧
      c.Ticked registry now (c.run (Deed.ticking registry now c.hub)) := by
  have lawful : Lawful Steady c (Deed.ticking registry now c.hub) :=
    .of_forall c fun deed member c => c.steady_executes (Deed.executes_ticking deed member)
  have after := ordered.run_preserves lawful
  obtain ⟨more, hub, desk, requests, count, against⟩ := c.run_ticking registry now free
  refine ⟨lawful, hub, ⟨congrArg Desk.batch desk, congrArg Desk.stage desk⟩, after.mirrored, more,
    congrArg Desk.done desk, requests, count, against, fun session => ?_⟩
  rw [after.delivered, ordered.delivered, desk, List.filter_append, List.filterMap_append]

end InOrder

/-- While no session ends and nothing queued is refused, however requests, writers and the executor take turns: the
accepted requests are those worked off and then those waiting, in order; what was delivered for a session is what
the requests posted for it were replied, in that order; a request is left without a reply just if it wants none and
the tools could be listed if it asked for them; and what went into any one stream is part of what was delivered for
its session, in the same order. Whenever the executor has nothing before it, a whole tick is one way to go on. -/
theorem replies_in_order (config : Config) (info : ServerInfo) (deeds : List Deed)
    (lawful : Lawful Steady (start config info) deeds) :
    let c := (start config info).run deeds
    c.streams.registry = c.hub.streams ∧
    c.posted = (c.desk.done.map (·.request) ++ c.waiting).filterMap (·.posting?) ∧
    (∀ session, c.streams.delivered session = (c.desk.done.filter (·.under session)).filterMap (·.text?)) ∧
    (∀ w ∈ c.desk.done, w.Given ∧ (w.text? = none ↔ Rpc.Request.WantsNone w.request.body ∧
      ¬ (Rpc.Request.AsksTools w.request.body ∧ ∃ crash, w.registry.list = .error crash))) ∧
    (∀ opening ∈ c.streams.openings,
      ((c.streams.taken opening.outbox ++ c.hub.streams.outboxes.frames opening.outbox).map (·.data)).Sublist
        (c.streams.delivered opening.session)) ∧
    (c.desk.Free → ∀ registry now, Lawful Steady c (Deed.ticking registry now c.hub) ∧
      c.Ticked registry now (c.run (Deed.ticking registry now c.hub))) := by
  intro c
  have ordered : c.InOrder := (InOrder.initial config info).run_preserves lawful
  refine ⟨ordered.mirrored, ordered.posted, ordered.delivered, ?_, ?_, ordered.tick⟩
  · intro w member
    have given := ordered.given w (List.mem_append_left _ member)
    obtain ⟨now, h, same⟩ := id given
    refine ⟨given, ?_⟩
    rw [Worked.text?, Option.map_eq_none_iff, same]
    exact unreplied_iff w.registry now w.request h
  · rw [← ordered.mirrored]
    exact ordered.sequenced.streams

private def listener : Http.Request :=
  { method := "GET", path := "/", version := "HTTP/1.1", headers := [("accept", "text/event-stream")] }

private def say (body : String) : Http.Request :=
  { method := "POST", path := "/", version := "HTTP/1.1", body := Text.utf8 body
    query := [("sessionId", "00000000000000000000000000000001")] }

private def host : Tool.Registry := ⟨.ok [], fun _ _ => .text ""⟩

/-- Between two pings a notification comes that asks for the tools of a host that cannot list them. -/
private def interrupted : List Deed :=
  [.serve 0 {} listener 1, .serve 1 {} (say "\x7b\"jsonrpc\":\"2.0\",\"id\":1,\"method\":\"ping\"\x7d") 2, .take,
    .serve 1 {} (say "\x7b\"jsonrpc\":\"2.0\",\"method\":\"tools/list\"\x7d") 3] ++ Deed.working host 3 ++
  [.take, .serve 1 {} (say "\x7b\"jsonrpc\":\"2.0\",\"id\":2,\"method\":\"ping\"\x7d") 2, .receive 1] ++
  Deed.working ⟨.error ⟨some "boom"⟩, fun _ _ => .text ""⟩ 3

private def between : Chronicle := (start {} {}).run interrupted

theorem replies_in_order_interrupted : Lawful Steady (start {} {}) interrupted ∧ between.desk.Free ∧
    between.streams.delivered "00000000000000000000000000000001" =
      ["\x7b\"jsonrpc\":\"2.0\",\"id\":1,\"result\":\x7b\x7d\x7d", (Rpc.Reply.internalError .null "boom").text] ∧
    (Tick.tick host 3 between.hub).1 = 1 ∧
    ((Tick.tick host 3 between.hub).2.streams.outboxes.frames 1).map (·.data) =
      [(Rpc.Reply.internalError .null "boom").text, "\x7b\"jsonrpc\":\"2.0\",\"id\":2,\"result\":\x7b\x7d\x7d"] := by
  have lawful : Lawful Steady (start {} {}) interrupted := by decide +kernel
  obtain ⟨_, _, delivered, _, _, tick⟩ := replies_in_order {} {} interrupted lawful
  have free : between.desk.Free := ⟨by decide +kernel, by decide +kernel⟩
  obtain ⟨_, ticked⟩ := tick free host 3
  refine ⟨lawful, free, (delivered _).trans (by decide +kernel), by decide +kernel, ?_⟩
  have after : (Tick.tick host 3 between.hub).2 = _ := ticked.hub.symm
  rw [after]
  decide +kernel

end Chronicle

end Server

end ToolBridge

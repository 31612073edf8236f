import ToolBridge.Server.Tick

/-! Runs of the queue of a hub, with a record of what became of each request. Connections push; ticks
and stops take batches and work them off one request at a time; callers look into their reply slots or let go.
All of this falls in any order, and so does whatever else happens to the hub. The record decides nothing. -/

namespace ToolBridge

namespace Queue

/-- The reply slot that a request is to be answered through, if it waits for its answer. -/
def Pending.ticket? (p : Pending) : Option Nat :=
  match p.route with
  | .direct ticket => some ticket
  | .stream => none

def Slot.answer? : Slot → Option Dispatch.Answer
  | .answered a => some a
  | _ => none

def Slots.settle (p : Pending) (a : Dispatch.Answer) (s : Slots) : Slots :=
  match p.ticket? with
  | some ticket => (s.answer ticket a).2
  | none => s

end Queue

namespace Server

/-- The outcome of a request that is still queued when the server stops. -/
def Hub.refusal (p : Queue.Pending) : Dispatch.Answer :=
  ⟨some (.shuttingDown (((Json.parse p.body).toOption.map Rpc.Request.idOf).getD .null)), p.session, false⟩

/-- A request on its way to the queue: if it waits for its answer, it gets a reply slot of its own. -/
def Hub.prepare (p : Queue.Pending) (h : Hub) : Queue.Pending × Queue.Slots :=
  match p.route with
  | .direct _ =>
    let (ticket, slots) := h.slots.make
    ({ p with route := .direct ticket }, slots)
  | .stream => (p, h.slots)

theorem Tick.hub_perform (registry : Tool.Registry) (now : Int) (p : Queue.Pending) (h : Hub) :
    (perform registry now p h).2 =
      { h with sessions := (Dispatch.dispatch registry h.info now p.body p.session h.sessions).2 } := by
  unfold perform
  generalize Dispatch.dispatch registry h.info now p.body p.session h.sessions = dispatched
  rfl

namespace Tick
variable (registry : Tool.Registry) (now : Int) (p : Queue.Pending) (h : Hub)

theorem process_eq : process registry now p h =
    hand p (perform registry now p h).1 (announce (perform registry now p h).1 (perform registry now p h).2) := by
  unfold process
  generalize perform registry now p h = outcome
  rfl

section
variable (config : Config) (queue : Queue) (slots : Queue.Slots)

theorem perform_beside :
    (perform registry now p { h with config, queue, slots }).1 = (perform registry now p h).1 := by
  simp only [perform]

private theorem announce_beside (a : Dispatch.Answer) :
    announce a { h with config, queue, slots } = { announce a h with config, queue, slots } := by
  unfold announce
  split <;> rfl

private theorem hand_beside (a : Dispatch.Answer) : hand p a { h with config, queue, slots } =
    { hand p a h with config, queue, slots := slots.settle p a } := by
  have same : collectible? a { h with config, queue, slots } = collectible? a h := rfl
  unfold hand Queue.Slots.settle Queue.Pending.ticket?
  cases p.route with
  | direct ticket => rfl
  | stream =>
    rw [same]
    cases collectible? a h <;> rfl

/-- The configuration, the queue and the reply slots have no say in what becomes of a request, and of these three its
outcome changes its own slot alone. So a tick's whole batch can be followed without the tools that run it. -/
theorem process_beside : process registry now p { h with config, queue, slots } =
    { process registry now p h with config, queue, slots := slots.settle p (perform registry now p h).1 } := by
  rw [process_eq, process_eq, perform_beside, hub_perform, hub_perform, ← hand_beside, ← announce_beside]

end

end Tick

inductive Taker where
  | tick
  | stop
deriving DecidableEq, Repr

def Taker.Gives (p : Queue.Pending) (a : Dispatch.Answer) : Taker → Prop
  | .tick => ∃ registry now h, a = (Tick.perform registry now p h).1
  | .stop => a = Hub.refusal p

inductive Job where
  | run (registry : Tool.Registry) (now : Int)
  | refuse

namespace Job

def taker : Job → Taker
  | .run _ _ => .tick
  | .refuse => .stop

def work (p : Queue.Pending) (h : Hub) : Job → Dispatch.Answer × Hub
  | .run registry now => ((Tick.perform registry now p h).1, Tick.process registry now p h)
  | .refuse => (Hub.refusal p, h.refuseQueued p)

variable (job : Job) (p : Queue.Pending) (h : Hub)

theorem work_gives : job.taker.Gives p (job.work p h).1 := by
  cases job with
  | run registry now =>
    simp only [work]
    exact ⟨registry, now, h, rfl⟩
  | refuse => rfl

/-- A tick and a stop differ in what they tell the caller of a request and in what else they change. They leave the
queue alone, and what they tell goes into the slot of that caller and no other. -/
theorem desk_work : (job.work p h).2.config = h.config ∧ (job.work p h).2.queue = h.queue ∧
    (job.work p h).2.slots = h.slots.settle p (job.work p h).1 := by
  cases job with
  | run registry now =>
    have processed : Tick.process registry now p h = _ :=
      Tick.process_beside registry now p h h.config h.queue h.slots
    simp only [work]
    rw [processed]
    exact ⟨rfl, rfl, rfl⟩
  | refuse =>
    simp only [work, Hub.refuseQueued, Hub.refusal, Queue.Slots.settle, Queue.Pending.ticket?]
    cases p.route <;> exact ⟨rfl, rfl, rfl⟩

theorem config_foldl (items : List Queue.Pending) :
    (items.foldl (fun h p => (job.work p h).2) h).config = h.config :=
  List.foldlRecOn items _ (motive := fun after => after.config = h.config) rfl
    fun after same p _ => (job.desk_work p after).1.trans same

end Job

structure Handled where
  request : Queue.Pending
  outcome : Dispatch.Answer

/-- What a tick or a stop took out of the queue at one time. The requests at its front may have been worked off while the
others are left. -/
structure Batch where
  taker : Taker
  handled : List Handled := []
  left : List Queue.Pending

def Batch.requests (b : Batch) : List Queue.Pending := b.handled.map (·.request) ++ b.left

structure Receipt where
  ticket : Nat
  outcome : Dispatch.Answer

/-- A hub, and what has happened to the requests for its queue: which it took and which it handed back, what ticks and
stops took out of it, and what callers found in their reply slots before they let go of them. -/
structure Intake where
  hub : Hub := {}
  /-- The requests that the queue took, in order. -/
  accepted : List Queue.Pending := []
  handedBack : List Queue.Pending := []
  batches : List Batch := []
  /-- What callers have found, oldest first. -/
  receipts : List Receipt := []
  /-- The reply slots that callers have let go of. -/
  departed : List Nat := []

namespace Intake

inductive Move where
  /-- A connection pushes a request; the number of its reply slot, if it wants one, is yet to be given. -/
  | push (p : Queue.Pending)
  /-- A tick takes a batch, as large as the configuration in force allows. -/
  | take
  /-- A stop closes the queue and takes all that is in it. -/
  | close
  | work (batch : Nat) (job : Job)
  | reopen
  | poll (ticket : Nat)
  | hangUp (ticket : Nat)
  /-- Everything but the queue and the reply slots becomes as it is here. -/
  | elsewhere (other : Hub)

def stepPush (p : Queue.Pending) (w : Intake) : Intake :=
  let (p, slots) := w.hub.prepare p
  match w.hub.queue.push? p with
  | some queue => { w with hub := { w.hub with queue, slots }, accepted := w.accepted ++ [p] }
  | none => { w with handedBack := w.handedBack ++ [p] }

def stepTake (w : Intake) : Intake :=
  let (batch, queue) := w.hub.queue.take (max 1 w.hub.config.maxRequestsPerTick)
  { w with hub := { w.hub with queue }, batches := w.batches ++ [{ taker := .tick, left := batch }] }

def stepClose (w : Intake) : Intake :=
  let (batch, queue) := w.hub.queue.close
  { w with hub := { w.hub with queue }, batches := w.batches ++ [{ taker := .stop, left := batch }] }

/-- The next request of a batch is worked off, by a tick if a tick took the batch, and by a stop if a stop did. -/
def stepWork (batch : Nat) (job : Job) (w : Intake) : Intake :=
  match w.batches[batch]? with
  | some ⟨taker, handled, p :: left⟩ =>
    if taker = job.taker then
      let (outcome, hub) := job.work p w.hub
      { w with hub, batches := w.batches.set batch ⟨taker, handled ++ [⟨p, outcome⟩], left⟩ }
    else w
  | _ => w

def stepPoll (ticket : Nat) (w : Intake) : Intake :=
  let polled := w.hub.slots.poll ticket
  { w with
    hub := { w.hub with slots := polled.2 }
    receipts := w.receipts ++ polled.1.answer?.toList.map (⟨ticket, ·⟩) }

def slot (ticket : Nat) (w : Intake) : Option Queue.Slot := w.hub.slots.slots.get? ticket

def stepHangUp (ticket : Nat) (w : Intake) : Intake :=
  { w with
    hub := { w.hub with slots := w.hub.slots.hangUp ticket }
    departed := w.departed ++ (w.slot ticket).toList.map fun _ => ticket }

def step (w : Intake) : Move → Intake
  | .push p => w.stepPush p
  | .take => w.stepTake
  | .close => w.stepClose
  | .work batch job => w.stepWork batch job
  | .reopen => { w with hub := { w.hub with queue := w.hub.queue.reopen } }
  | .poll ticket => w.stepPoll ticket
  | .hangUp ticket => w.stepHangUp ticket
  | .elsewhere other => { w with hub := { other with queue := w.hub.queue, slots := w.hub.slots } }

def run (w : Intake) (moves : List Move) : Intake := moves.foldl step w

theorem run_cons (w : Intake) (move : Move) (rest : List Move) : w.run (move :: rest) = (w.step move).run rest := rfl

theorem run_append (w : Intake) (first last : List Move) : w.run (first ++ last) = (w.run first).run last :=
  List.foldl_append

def taken (w : Intake) : List Queue.Pending := w.batches.flatMap Batch.requests

def handled (w : Intake) : List Handled := w.batches.flatMap (·.handled)

def outcomes (ticket : Nat) (w : Intake) : List Dispatch.Answer :=
  (w.handled.filter (·.request.ticket? = some ticket)).map (·.outcome)

def received (ticket : Nat) (w : Intake) : List Dispatch.Answer :=
  (w.receipts.filter (·.ticket = ticket)).map (·.outcome)

/-- No tick and no stop is under way. -/
def Idle (w : Intake) : Prop := ∀ b ∈ w.batches, b.left = []

/-! ## Whole ticks and stops -/

theorem work_off (job : Job) {w : Intake} {earlier : List Batch} {handled : List Handled}
    {left : List Queue.Pending} (shape : w.batches = earlier ++ [⟨job.taker, handled, left⟩]) :
    ∃ done,
      (w.run (.replicate left.length (.work earlier.length job))).hub =
        left.foldl (fun h p => (job.work p h).2) w.hub ∧
      (w.run (.replicate left.length (.work earlier.length job))).batches =
        earlier ++ [⟨job.taker, handled ++ done, []⟩] ∧
      done.map (·.request) = left := by
  induction left generalizing w handled with
  | nil => exact ⟨[], rfl, by simp [run, shape], rfl⟩
  | cons p left ih =>
    have worked : w.step (.work earlier.length job) =
        { w with
          hub := (job.work p w.hub).2
          batches := earlier ++ [⟨job.taker, handled ++ [⟨p, (job.work p w.hub).1⟩], left⟩] } := by
      simp [step, stepWork, shape]
    obtain ⟨done, hub, batches, same⟩ := ih (w := w.step (.work earlier.length job)) (by rw [worked])
    refine ⟨⟨p, (job.work p w.hub).1⟩ :: done, ?_, ?_, ?_⟩
    · rw [List.length_cons, List.replicate_succ, run_cons, hub, worked, List.foldl_cons]
    · rw [List.length_cons, List.replicate_succ, run_cons, batches, List.append_assoc, List.singleton_append]
    · rw [List.map_cons, same]

def ticking (registry : Tool.Registry) (now : Int) (w : Intake) : List Move :=
  .take :: .replicate (w.hub.queue.items.take (max 1 w.hub.config.maxRequestsPerTick)).length
    (.work w.batches.length (.run registry now))

/-- What becomes of the streams is no matter of the queue. -/
def stopping (w : Intake) : List Move :=
  .close :: .replicate w.hub.queue.items.length (.work w.batches.length .refuse) ++ [.elsewhere w.hub.shutDown]

/-- A tick is one run of moves: it takes a batch from the front of the queue and works off all of it. Moves of others
may come between them in other runs. -/
theorem tick_run (registry : Tool.Registry) (now : Int) (w : Intake) :
    ∃ done, (w.run (w.ticking registry now)).hub = (Tick.tick registry now w.hub).2 ∧
      (w.run (w.ticking registry now)).batches = w.batches ++ [⟨.tick, done, []⟩] ∧
      done.length = (Tick.tick registry now w.hub).1 ∧
      done.map (·.request) = w.hub.queue.items.take (max 1 w.hub.config.maxRequestsPerTick) := by
  obtain ⟨done, hub, batches, same⟩ := work_off (.run registry now) (w := w.step .take) rfl
  refine ⟨done, hub, batches, ?_, same⟩
  rw [← List.length_map, same]
  rfl

/-- A stop is one too, which takes all there is and refuses it. -/
theorem shutDown_run (w : Intake) : ∃ done, (w.run w.stopping).hub = w.hub.shutDown ∧
    (w.run w.stopping).batches = w.batches ++ [⟨.stop, done, []⟩] ∧ done.map (·.request) = w.hub.queue.items := by
  obtain ⟨done, hub, batches, same⟩ := work_off .refuse (w := w.step .close) rfl
  let refusals : List Move := .replicate w.hub.queue.items.length (.work w.batches.length .refuse)
  refine ⟨done, ?_, ?_, same⟩
  · have drained : (w.run (.close :: refusals)).hub =
        w.hub.queue.items.foldl (fun h p => h.refuseQueued p) { w.hub with queue := w.hub.queue.close.2 } := hub
    rw [stopping, run_append, run_cons, step, drained]
    rfl
  · have refused : (w.run (.close :: refusals)).batches = w.batches ++ [⟨.stop, done, []⟩] := batches
    rw [stopping, run_append]
    exact refused

end Intake

end Server

end ToolBridge

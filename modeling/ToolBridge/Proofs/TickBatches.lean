import ToolBridge.Proofs.LateRequests
import ToolBridge.Proofs.QueueOrder

/-! Ticks run the queue in batches, and it makes no difference where one batch ends and the next begins: what comes of
it is what comes of the requests one at a time, each at the time of its tick. A request that waits for its own answer
and sets up no session matters to nobody else, however it fails. -/

namespace ToolBridge

namespace Queue.Slots
variable {apart : List Nat} {s t : Slots}

/-- The slots are the same, except perhaps those of some tickets. -/
def Agree (apart : List Nat) (s t : Slots) : Prop :=
  s.made = t.made ∧ ∀ ticket, ticket ∉ apart → s.slots.get? ticket = t.slots.get? ticket

theorem Agree.refl (apart : List Nat) (s : Slots) : Agree apart s s := ⟨rfl, fun _ _ => rfl⟩

theorem get?_settle {p : Pending} {ticket : Nat} (a : Dispatch.Answer) (s : Slots) (other : p.ticket? ≠ some ticket) :
    (s.settle p a).slots.get? ticket = s.slots.get? ticket := by
  cases mine : p.ticket? with
  | none => rw [settle_silent a s mine]
  | some own =>
    rw [settle_ticket a s mine]
    exact (s.answer_cases own a).2.1 ticket fun same => other (same ▸ mine)

theorem Agree.settle (agree : Agree apart s t) (p : Pending) (a : Dispatch.Answer) :
    Agree apart (s.settle p a) (t.settle p a) := by
  refine ⟨by rw [made_settle, made_settle, agree.1], fun ticket outside => ?_⟩
  have same := agree.2 ticket outside
  by_cases mine : p.ticket? = some ticket
  · rw [settle_ticket a s mine, settle_ticket a t mine]
    obtain ⟨_, _, first⟩ := s.answer_cases ticket a
    obtain ⟨_, _, second⟩ := t.answer_cases ticket a
    rw [same] at first
    rcases first with ⟨waits, found⟩ | ⟨idle, found⟩ <;> rcases second with ⟨waits', found'⟩ | ⟨idle', found'⟩
    · rw [found, found']
    · exact absurd waits idle'
    · exact absurd waits' idle
    · rw [found, found']
  · rw [get?_settle a s mine, get?_settle a t mine, same]

/-- Two requests that are answered through slots touch no slots but their own. -/
theorem agree_settle {p q : Pending} {first second : Nat} (one : p.ticket? = some first) (other : q.ticket? = some second)
    (a b : Dispatch.Answer) (s : Slots) : Agree [first, second] (s.settle p a) (s.settle q b) := by
  refine ⟨by rw [made_settle, made_settle], fun ticket outside => ?_⟩
  rw [List.mem_cons, List.mem_singleton, not_or] at outside
  rw [get?_settle a s, get?_settle b s]
  · rw [other]
    exact fun same => outside.2 (Option.some.inj same).symm
  · rw [one]
    exact fun same => outside.1 (Option.some.inj same).symm

end Queue.Slots

namespace Server.Tick

/-! ## One request at a time -/

/-- Works requests off one at a time, each at its time. -/
def workOff (registry : Tool.Registry) (jobs : List (Queue.Pending × Int)) (h : Hub) : Hub :=
  jobs.foldl (fun h job => process registry job.2 job.1 h) h

def outcomes (registry : Tool.Registry) : List (Queue.Pending × Int) → Hub → List Dispatch.Answer
  | [], _ => []
  | (p, now) :: rest, h => (perform registry now p h).1 :: outcomes registry rest (process registry now p h)

/-- The reply slots once each of them has been answered. -/
def settled (registry : Tool.Registry) : List (Queue.Pending × Int) → Hub → Queue.Slots → Queue.Slots
  | [], _, slots => slots
  | (p, now) :: rest, h, slots =>
    settled registry rest (process registry now p h) (slots.settle p (perform registry now p h).1)

section
variable (registry : Tool.Registry) (h : Hub) (config : Config) (queue : Queue) (slots : Queue.Slots)
  (jobs : List (Queue.Pending × Int))

theorem workOff_cons (job : Queue.Pending × Int) :
    workOff registry (job :: jobs) h = workOff registry jobs (process registry job.2 job.1 h) := List.foldl_cons ..

theorem workOff_append (first last : List (Queue.Pending × Int)) :
    workOff registry (first ++ last) h = workOff registry last (workOff registry first h) := List.foldl_append

theorem outcomes_append (first last : List (Queue.Pending × Int)) : outcomes registry (first ++ last) h =
    outcomes registry first h ++ outcomes registry last (workOff registry first h) := by
  induction first generalizing h with
  | nil => rfl
  | cons job rest ih => exact congrArg _ (ih (process registry job.2 job.1 h))

theorem length_outcomes : (outcomes registry jobs h).length = jobs.length := by
  induction jobs generalizing h with
  | nil => rfl
  | cons job rest ih => exact congrArg _ (ih (process registry job.2 job.1 h))

theorem workOff_beside : workOff registry jobs { h with config, queue, slots } =
    { workOff registry jobs h with config, queue, slots := settled registry jobs h slots } := by
  induction jobs generalizing h slots with
  | nil => rfl
  | cons job rest ih =>
    rw [workOff_cons, process_beside, ih, workOff_cons, settled]

theorem outcomes_beside : outcomes registry jobs { h with config, queue, slots } = outcomes registry jobs h := by
  induction jobs generalizing h slots with
  | nil => rfl
  | cons job rest ih => rw [outcomes, process_beside, ih, perform_beside, outcomes]

theorem slots_workOff : (workOff registry jobs h).slots = settled registry jobs h h.slots :=
  congrArg Hub.slots (workOff_beside registry h h.config h.queue h.slots jobs)

theorem workOff_apart :
    workOff registry jobs { h with config, queue } = { workOff registry jobs h with config, queue } := by
  refine (workOff_beside registry h config queue h.slots jobs).trans ?_
  rw [← slots_workOff]

theorem agree_settled {apart : List Nat} {s t : Queue.Slots} (agree : s.Agree apart t) :
    (settled registry jobs h s).Agree apart (settled registry jobs h t) := by
  induction jobs generalizing h s t with
  | nil => exact agree
  | cons job rest ih => exact ih (process registry job.2 job.1 h) (agree.settle ..)

end

/-- The request is answered through a reply slot, and is no handshake. -/
def Secluded (p : Queue.Pending) (ticket : Nat) : Prop :=
  p.route = .direct ticket ∧ ∀ call, Rpc.Request.parse p.body = .ok call → call.method ≠ "initialize"

section
variable (registry : Tool.Registry) (now : Int) {p q : Queue.Pending} (h : Hub) {first second : Nat}
  (before rest : List (Queue.Pending × Int))

theorem Secluded.ticket? (secluded : Secluded p first) : p.ticket? = some first := by
  rw [Queue.Pending.ticket?, secluded.1]

theorem Secluded.process_eq (secluded : Secluded p first) :
    process registry now p h = { h with slots := h.slots.settle p (perform registry now p h).1 } := by
  obtain ⟨reply, performed⟩ := perform_plain registry now h secluded.2
  simp only [Tick.process_eq, performed, announce, hand, secluded.1, Queue.Slots.settle, secluded.ticket?]

/-- What follows a secluded request goes as it would without it. -/
theorem Secluded.workOff_eq (secluded : Secluded p first) : workOff registry (before ++ (p, now) :: rest) h =
    { workOff registry (before ++ rest) h with
      config := (workOff registry before h).config
      queue := (workOff registry before h).queue
      slots := settled registry rest (workOff registry before h)
        ((workOff registry before h).slots.settle p (perform registry now p (workOff registry before h)).1) } := by
  rw [workOff_append, workOff_append, workOff_cons, secluded.process_eq, workOff_beside]

theorem Secluded.outcomes_eq (secluded : Secluded p first) : outcomes registry (before ++ (p, now) :: rest) h =
    outcomes registry before h ++ (perform registry now p (workOff registry before h)).1 ::
      outcomes registry rest (workOff registry before h) := by
  rw [outcomes_append, outcomes, secluded.process_eq,
    outcomes_beside registry (workOff registry before h)]

theorem workOff_replaced (one : Secluded p first) (other : Secluded q second) :
    ∃ slots, (workOff registry (before ++ (p, now) :: rest) h).slots.Agree [first, second] slots ∧
      workOff registry (before ++ (q, now) :: rest) h =
        { workOff registry (before ++ (p, now) :: rest) h with slots } := by
  rw [one.workOff_eq, other.workOff_eq]
  exact ⟨_, agree_settled _ _ _ (Queue.Slots.agree_settle one.ticket? other.ticket? _ _ _), rfl⟩

theorem outcomes_replaced (one : Secluded p first) (other : Secluded q second) {i : Nat} (elsewhere : i ≠ before.length) :
    (outcomes registry (before ++ (q, now) :: rest) h)[i]? = (outcomes registry (before ++ (p, now) :: rest) h)[i]? := by
  rw [one.outcomes_eq, other.outcomes_eq, ← length_outcomes registry h before] at *
  rcases Nat.lt_or_gt_of_ne elsewhere with earlier | later
  · rw [List.getElem?_append_left earlier, List.getElem?_append_left earlier]
  · obtain ⟨k, rfl⟩ := Nat.exists_eq_add_of_lt later
    rw [List.getElem?_append_right (by omega), List.getElem?_append_right (by omega), Nat.add_assoc,
      Nat.add_sub_cancel_left, List.getElem?_cons_succ, List.getElem?_cons_succ]

end

/-! ## Rounds of ticks -/

/-- A tick to come: how many requests the configuration allows it, and its time. -/
structure Round where
  limit : Nat
  now : Int

namespace Round

def configure (config : Config) (round : Round) : Config := { config with maxRequestsPerTick := round.limit }

/-- How many of the waiting requests the tick takes. -/
def count (waiting : Nat) (round : Round) : Nat := min (max 1 round.limit) waiting

def counts : Nat → List Round → List Nat
  | _, [] => []
  | waiting, round :: rest => round.count waiting :: counts (waiting - round.count waiting) rest

/-- The times at which the waiting requests are taken, one after the other. -/
def times : Nat → List Round → List Int
  | _, [] => []
  | waiting, round :: rest =>
    .replicate (round.count waiting) round.now ++ times (waiting - round.count waiting) rest

/-- The requests that are taken, in the order of the queue, and when. -/
def schedule (items : List Queue.Pending) (rounds : List Round) : List (Queue.Pending × Int) :=
  items.zip (times items.length rounds)

theorem length_times_le (waiting : Nat) (rounds : List Round) : (times waiting rounds).length ≤ waiting := by
  induction rounds generalizing waiting with
  | nil => exact Nat.zero_le _
  | cons round rest ih =>
    have later := ih (waiting - round.count waiting)
    have some_ : round.count waiting ≤ waiting := Nat.min_le_right ..
    rw [times, List.length_append, List.length_replicate]
    omega

/-- Every tick takes one at least, while there are any. -/
theorem length_times {waiting : Nat} {rounds : List Round} (enough : waiting ≤ rounds.length) :
    (times waiting rounds).length = waiting := by
  induction rounds generalizing waiting with
  | nil => exact (Nat.le_zero.mp enough).symm
  | cons round rest ih =>
    rw [List.length_cons] at enough
    have taken : round.count waiting = min (max 1 round.limit) waiting := rfl
    have later := @ih (waiting - round.count waiting) (by omega)
    rw [times, List.length_append, List.length_replicate, later]
    omega

theorem length_schedule (items : List Queue.Pending) (rounds : List Round) :
    (schedule items rounds).length = (times items.length rounds).length := by
  rw [schedule, List.length_zip, Nat.min_eq_right (length_times_le ..)]

theorem requests_schedule (items : List Queue.Pending) (rounds : List Round) :
    (schedule items rounds).map (·.1) = items.take (schedule items rounds).length := by
  have shortened : schedule items rounds =
      (items.take (times items.length rounds).length).zip (times items.length rounds) := by
    rw [schedule, List.zip_eq_zip_take_min, Nat.min_eq_right (length_times_le ..), List.take_length]
  rw [length_schedule, shortened]
  exact List.map_fst_zip (by rw [List.length_take]; exact Nat.min_le_left ..)

theorem schedule_cons (items : List Queue.Pending) (round : Round) (rest : List Round) :
    schedule items (round :: rest) = (items.take (round.count items.length)).map (·, round.now) ++
      schedule (items.drop (round.count items.length)) rest := by
  let batch := items.take (round.count items.length)
  have taken : batch.length = round.count items.length := List.length_take_of_le (Nat.min_le_right ..)
  have alike : batch.map (·, round.now) = batch.zip (.replicate (round.count items.length) round.now) := by
    rw [← taken, ← List.map_const', ← List.map_id batch, List.map_id, ← List.zip_map', List.map_id']
  have whole : schedule items (round :: rest) = (batch ++ items.drop (round.count items.length)).zip
      (times items.length (round :: rest)) := by rw [List.take_append_drop, schedule]
  rw [whole, times, List.zip_append (by rw [taken, List.length_replicate]), alike, schedule, List.length_drop]

/-- Another request in the place of one is taken when that would have been, if at all. -/
theorem schedule_replaced (before after : List Queue.Pending) (rounds : List Round) :
    (∀ p q, schedule (before ++ p :: after) rounds = schedule (before ++ q :: after) rounds) ∨
    ∃ first now last, first.length = before.length ∧
      ∀ p, schedule (before ++ p :: after) rounds = first ++ (p, now) :: last := by
  obtain ⟨ts, same⟩ : ∃ ts, ∀ p, schedule (before ++ p :: after) rounds = (before ++ p :: after).zip ts :=
    ⟨times (before.length + (after.length + 1)) rounds, fun p => by
      rw [schedule, List.length_append, List.length_cons]⟩
  rcases Nat.lt_or_ge before.length ts.length with reached | short
  · obtain ⟨early, now, late, split, long⟩ : ∃ early now late, ts = early ++ now :: late ∧ early.length = before.length :=
      ⟨ts.take before.length, ts[before.length], ts.drop (before.length + 1),
        by rw [← List.drop_eq_getElem_cons reached, List.take_append_drop],
        List.length_take_of_le (Nat.le_of_lt reached)⟩
    refine Or.inr ⟨before.zip early, now, after.zip late, ?_, fun p => ?_⟩
    · rw [List.length_zip, long, Nat.min_self]
    · rw [same, split, List.zip_append long.symm, List.zip_cons_cons]
  · have unreached : ∀ p, schedule (before ++ p :: after) rounds = (before.take ts.length).zip ts := by
      intro p
      have few : min (before ++ p :: after).length ts.length = ts.length := by
        rw [List.length_append]
        omega
      rw [same, List.zip_eq_zip_take_min, few, List.take_append_of_le_length short, List.take_length]
    exact Or.inl fun p q => (unreached p).trans (unreached q).symm

end Round

/-- What becomes of the requests that a tick runs. -/
def tickOutcomes (registry : Tool.Registry) (now : Int) (h : Hub) : List Dispatch.Answer :=
  let (batch, queue) := h.queue.take (max 1 h.config.maxRequestsPerTick)
  outcomes registry (batch.map (·, now)) { h with queue }

section
variable (registry : Tool.Registry) (round : Round) (h : Hub)

theorem take_round : h.queue.take (max 1 round.limit) = (h.queue.items.take (round.count h.queue.size),
    { h.queue with items := h.queue.items.drop (round.count h.queue.size) }) :=
  Prod.ext List.take_eq_take_min (congrArg (Queue.mk · _) List.drop_eq_drop_min)

/-- A tick runs what it takes from the front of the queue, and returns how much that is. -/
theorem tick_round : tick registry round.now { h with config := round.configure h.config } =
    (round.count h.queue.size,
      { workOff registry ((h.queue.items.take (round.count h.queue.size)).map (·, round.now)) h with
        config := round.configure h.config
        queue := { h.queue with items := h.queue.items.drop (round.count h.queue.size) } }) := by
  have taken : (h.queue.items.take (round.count h.queue.size)).length = round.count h.queue.size :=
    List.length_take_of_le (Nat.min_le_right ..)
  rw [← workOff_apart, workOff, List.foldl_map]
  simp only [tick, Round.configure, take_round, taken]

theorem tickOutcomes_round : tickOutcomes registry round.now { h with config := round.configure h.config } =
    outcomes registry ((h.queue.items.take (round.count h.queue.size)).map (·, round.now)) h := by
  simp only [tickOutcomes, Round.configure, take_round]
  exact outcomes_beside ..

end

/-- What has come of some ticks. -/
structure Ticked where
  hub : Hub
  counts : List Nat := []
  outcomes : List Dispatch.Answer := []

namespace Ticked

/-- Ticks one after the other, each under a configuration of its own. -/
def run (registry : Tool.Registry) : List Round → Hub → Ticked
  | [], h => { hub := h }
  | round :: rest, h =>
    let h := { h with config := round.configure h.config }
    let ticked := tick registry round.now h
    let later := run registry rest ticked.2
    { later with
      counts := ticked.1 :: later.counts
      outcomes := tickOutcomes registry round.now h ++ later.outcomes }

theorem run_eq (registry : Tool.Registry) (rounds : List Round) (h : Hub) : run registry rounds h =
    { hub := { workOff registry (Round.schedule h.queue.items rounds) h with
        config := rounds.foldl Round.configure h.config
        queue := { h.queue with items := h.queue.items.drop (Round.schedule h.queue.items rounds).length } }
      counts := Round.counts h.queue.size rounds
      outcomes := Tick.outcomes registry (Round.schedule h.queue.items rounds) h } := by
  induction rounds generalizing h with
  | nil => simp [run, Round.schedule, Round.times, Round.counts, workOff, Tick.outcomes]
  | cons round rest ih =>
    have split := Round.schedule_cons h.queue.items round rest
    have taken : (h.queue.items.take (round.count h.queue.size)).length = round.count h.queue.size :=
      List.length_take_of_le (Nat.min_le_right ..)
    have left : Queue.size ⟨h.queue.items.drop (round.count h.queue.size), h.queue.closed⟩ =
        h.queue.size - round.count h.queue.size := List.length_drop
    rw [← Queue.size] at split
    simp only [run, tick_round, tickOutcomes_round, ih, workOff_apart, outcomes_beside, split, workOff_append,
      outcomes_append, List.length_append, List.length_map, taken, List.drop_drop, Round.counts, left,
      List.foldl_cons]

private theorem schedule_comes (registry : Tool.Registry) (rounds : List Round) (h : Hub)
    (before after : List Queue.Pending) {p q : Queue.Pending} {first second : Nat} (one : Secluded p first)
    (two : Secluded q second) :
    (∀ i, i ≠ before.length → (Tick.outcomes registry (Round.schedule (before ++ q :: after) rounds) h)[i]? =
      (Tick.outcomes registry (Round.schedule (before ++ p :: after) rounds) h)[i]?) ∧
    ∃ slots, (workOff registry (Round.schedule (before ++ p :: after) rounds) h).slots.Agree [first, second] slots ∧
      workOff registry (Round.schedule (before ++ q :: after) rounds) h =
        { workOff registry (Round.schedule (before ++ p :: after) rounds) h with slots } := by
  rcases Round.schedule_replaced before after rounds with unreached | ⟨early, now, late, long, reached⟩
  · rw [unreached q p]
    exact ⟨fun _ _ => rfl, _, .refl .., rfl⟩
  · rw [reached p, reached q, ← long]
    exact ⟨fun i => outcomes_replaced registry now h early late one two,
      workOff_replaced registry now h early late one two⟩

/-- With another request in the place of a secluded one, neither matters to anybody else. -/
theorem run_replaced (registry : Tool.Registry) (rounds : List Round) {h other : Hub} {before after : List Queue.Pending}
    {p q : Queue.Pending} {first second : Nat} (items : h.queue.items = before ++ p :: after) (one : Secluded p first)
    (two : Secluded q second) (replaced : other = { h with queue := { h.queue with items := before ++ q :: after } }) :
    (run registry rounds other).counts = (run registry rounds h).counts ∧
    (∀ i, i ≠ before.length → (run registry rounds other).outcomes[i]? = (run registry rounds h).outcomes[i]?) ∧
    ∃ slots, (run registry rounds h).hub.slots.Agree [first, second] slots ∧
      (run registry rounds other).hub = { (run registry rounds h).hub with
        queue := { h.queue with items := (before ++ q :: after).drop (Round.schedule h.queue.items rounds).length }
        slots } := by
  have waiting : other.queue.size = h.queue.size := by
    rw [replaced, Queue.size, Queue.size, items, List.length_append, List.length_append, List.length_cons, List.length_cons]
  have taken : (Round.schedule other.queue.items rounds).length = (Round.schedule h.queue.items rounds).length := by
    rw [Round.length_schedule, Round.length_schedule, ← Queue.size, ← Queue.size, waiting]
  obtain ⟨untold, slots, agree, worked⟩ := schedule_comes registry rounds h before after one two
  have told : Tick.outcomes registry (Round.schedule other.queue.items rounds) other =
      Tick.outcomes registry (Round.schedule (before ++ q :: after) rounds) h := by
    rw [replaced]
    exact outcomes_beside ..
  have apart : workOff registry (Round.schedule other.queue.items rounds) other =
      { workOff registry (Round.schedule (before ++ q :: after) rounds) h with
        config := h.config, queue := other.queue } := by
    rw [replaced]
    exact workOff_apart ..
  rw [run_eq, run_eq, waiting, told, apart, worked, taken, items]
  refine ⟨rfl, untold, slots, agree, ?_⟩
  rw [replaced]

end Ticked

/-- However the host ticks: each tick takes as many requests from the front of the queue as its configuration allows,
and at least one if there are any, and returns how many those are. So there are never more ticks needed than there are
requests. What becomes of each request, and what the hub is in the end, is as if the requests had been worked off one
at a time, in order. With another request in the place of one that is answered through a reply slot, neither being a
handshake, what becomes of all others is the same, and so is the hub but for the slots of the two. -/
theorem batches_make_no_difference (registry : Tool.Registry) (rounds : List Round) (h : Hub) :
    (Ticked.run registry rounds h).counts = Round.counts h.queue.size rounds ∧
    (Round.schedule h.queue.items rounds).map (·.1) =
      h.queue.items.take (Round.schedule h.queue.items rounds).length ∧
    (h.queue.size ≤ rounds.length → (Round.schedule h.queue.items rounds).map (·.1) = h.queue.items ∧
      (Ticked.run registry rounds h).hub.queue.items = []) ∧
    (Ticked.run registry rounds h).outcomes = outcomes registry (Round.schedule h.queue.items rounds) h ∧
    (Ticked.run registry rounds h).hub =
      { workOff registry (Round.schedule h.queue.items rounds) h with
        config := rounds.foldl Round.configure h.config
        queue := { h.queue with items := h.queue.items.drop (Round.schedule h.queue.items rounds).length } } ∧
    ∀ before p q after first second, h.queue.items = before ++ p :: after → Secluded p first → Secluded q second →
      let other := Ticked.run registry rounds { h with queue := { h.queue with items := before ++ q :: after } }
      other.counts = (Ticked.run registry rounds h).counts ∧
      (∀ i, i ≠ before.length → other.outcomes[i]? = (Ticked.run registry rounds h).outcomes[i]?) ∧
      ∃ slots, (Ticked.run registry rounds h).hub.slots.Agree [first, second] slots ∧
        other.hub = { (Ticked.run registry rounds h).hub with
          queue := { h.queue with items := (before ++ q :: after).drop (Round.schedule h.queue.items rounds).length }
          slots } := by
  have requests := Round.requests_schedule h.queue.items rounds
  have ran := Ticked.run_eq registry rounds h
  refine ⟨congrArg Ticked.counts ran, requests, fun enough => ?_, congrArg Ticked.outcomes ran, congrArg Ticked.hub ran,
    fun before p q after first second items one two => Ticked.run_replaced registry rounds items one two rfl⟩
  have all : (Round.schedule h.queue.items rounds).length = h.queue.items.length :=
    (Round.length_schedule _ _).trans (Round.length_times enough)
  rw [requests, ran, all]
  exact ⟨List.take_length, List.drop_length⟩

private def call (body : String) (route : Queue.Route) : Queue.Pending :=
  { connection := 1, path := "/", headers := [], body, session := some "00000000000000000000000000000001", route }

private def handshake : Queue.Pending := call "\x7b\"jsonrpc\":\"2.0\",\"id\":1,\"method\":\"initialize\"\x7d" (.direct 1)

private def listing : Queue.Pending := call "\x7b\"jsonrpc\":\"2.0\",\"id\":2,\"method\":\"tools/list\"\x7d" (.direct 2)

private def garbled : Queue.Pending := call "\x7b\"jsonrpc\":" (.direct 2)

private def ping : Queue.Pending := call "\x7b\"jsonrpc\":\"2.0\",\"id\":3,\"method\":\"ping\"\x7d" .stream

private def waiting (p : Queue.Pending) : Hub :=
  { queue := { items := [handshake, p, ping] }, slots := ⟨2, [(1, .waiting), (2, .waiting)]⟩ }

private def crashing : Tool.Registry := ⟨.error ⟨some "no tools"⟩, fun _ _ => .crash ⟨none⟩⟩

private def rounds : List Round := [⟨0, 5⟩, ⟨2, 6⟩, ⟨1, 7⟩]

theorem batches_make_no_difference_crash :
    (Ticked.run crashing rounds (waiting listing)).counts = [1, 2, 0] ∧
    (Ticked.run crashing rounds (waiting listing)).hub.queue.items = [] ∧
    (Ticked.run crashing rounds (waiting garbled)).outcomes[2]? = (Ticked.run crashing rounds (waiting listing)).outcomes[2]? ∧
    (Ticked.run crashing rounds (waiting garbled)).hub.streams = (Ticked.run crashing rounds (waiting listing)).hub.streams ∧
    (Ticked.run crashing rounds (waiting listing)).hub.streams.pendingSessions = ["00000000000000000000000000000001"] := by
  obtain ⟨counts, _, emptied, _, _, replaced⟩ := batches_make_no_difference crashing rounds (waiting listing)
  have crashes : Secluded listing 2 := by
    have read : (Rpc.Request.parse listing.body).toOption.map (·.method) = some "tools/list" := by decide +kernel
    refine ⟨rfl, fun call parsed same => ?_⟩
    rw [parsed] at read
    exact absurd (same.symm.trans (Option.some.inj read)) (by decide)
  have fails : Secluded garbled 2 := by
    have read : (Rpc.Request.parse garbled.body).toOption.map (·.method) = none := by decide +kernel
    refine ⟨rfl, fun call parsed _ => ?_⟩
    rw [parsed] at read
    cases read
  obtain ⟨_, others, _, _, same⟩ := replaced [handshake] listing garbled [ping] 2 2 rfl crashes fails
  have streams := congrArg Hub.streams same
  exact ⟨counts, (emptied (by decide)).2, others 2 (by decide), streams, by decide +kernel⟩

end Server.Tick

end ToolBridge

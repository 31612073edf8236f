import Mathlib.Data.List.Induction
import Mathlib.Data.List.Nodup
import Mathlib.Data.List.Perm.Basic
import ToolBridge.Proofs.ServerRuns

/-! Every accepted request is taken out of the queue once, in the order in which it came, and what waits
for its answer is sent one outcome, by the tick or the stop that took it. -/

namespace ToolBridge

/-! ## Reply slots -/

namespace Queue.Slots

theorem poll_cases (ticket : Nat) (s : Slots) : (s.poll ticket).2.made = s.made ∧
    ∀ other, (s.poll ticket).2.slots.get? other = s.slots.get? other ∨
      (∃ a, s.slots.get? other = some (.answered a)) ∧ (s.poll ticket).2.slots.get? other = some .closed := by
  unfold poll
  split
  next a answered =>
    refine ⟨rfl, fun other => ?_⟩
    rw [Entries.get?_put]
    split
    next same => exact Or.inr ⟨⟨a, same ▸ answered⟩, rfl⟩
    next => exact Or.inl rfl
  next => exact ⟨rfl, fun _ => Or.inl rfl⟩
  next => exact ⟨rfl, fun _ => Or.inl rfl⟩

/-- An outcome gets into its slot if that still waits, and nowhere else. -/
theorem answer_cases (ticket : Nat) (a : Dispatch.Answer) (s : Slots) : (s.answer ticket a).2.made = s.made ∧
    (∀ other, other ≠ ticket → (s.answer ticket a).2.slots.get? other = s.slots.get? other) ∧
    (s.slots.get? ticket = some .waiting ∧ (s.answer ticket a).2.slots.get? ticket = some (.answered a) ∨
      s.slots.get? ticket ≠ some .waiting ∧ (s.answer ticket a).2.slots.get? ticket = s.slots.get? ticket) := by
  unfold answer
  split
  next waiting =>
    refine ⟨rfl, fun other different => ?_, Or.inl ⟨waiting, ?_⟩⟩
    · rw [Entries.get?_put, if_neg different.symm]
    · rw [Entries.get?_put, if_pos rfl]
  next idle => exact ⟨rfl, fun _ _ => rfl, Or.inr ⟨idle, rfl⟩⟩

theorem settle_silent {p : Pending} (a : Dispatch.Answer) (s : Slots) (silent : p.ticket? = none) :
    s.settle p a = s := by
  simp [settle, silent]

theorem settle_ticket {p : Pending} {ticket : Nat} (a : Dispatch.Answer) (s : Slots)
    (mine : p.ticket? = some ticket) : s.settle p a = (s.answer ticket a).2 := by
  simp [settle, mine]

theorem made_settle (p : Pending) (a : Dispatch.Answer) (s : Slots) : (s.settle p a).made = s.made := by
  unfold settle
  split
  next ticket _ => exact (s.answer_cases ticket a).1
  next => rfl

end Queue.Slots

namespace Server

theorem Hub.prepare_cases (p : Queue.Pending) (h : Hub) :
    ((h.prepare p).1.ticket? = none ∧ (h.prepare p).2 = h.slots) ∨
    (h.prepare p).1.ticket? = some (h.slots.made + 1) ∧ (h.prepare p).2 = h.slots.make.2 := by
  unfold prepare Queue.Pending.ticket?
  cases sort : p.route with
  | direct ticket => exact Or.inr ⟨rfl, rfl⟩
  | stream => simp [sort]

namespace Intake

def waiting (w : Intake) : List Queue.Pending := w.batches.flatMap (·.left) ++ w.hub.queue.items

/-- An outcome has come to its caller: it lies in the reply slot, or it is what the caller has found there, and has found
once. Whoever has let go of the slot finds nothing more. -/
inductive Arrived (a : Dispatch.Answer) (ticket : Nat) (w : Intake) : Prop where
  | held (slot : w.slot ticket = some (.answered a)) (received : w.received ticket = [])
  | received (slot : w.slot ticket = some .closed) (received : w.received ticket = [a])
  | departed (slot : w.slot ticket = none) (departed : ticket ∈ w.departed)
      (received : w.received ticket = [] ∨ w.received ticket = [a])

/-- Nothing has come to the caller, which still waits or has let go. -/
structure Awaited (ticket : Nat) (w : Intake) : Prop where
  slot : w.slot ticket = some .waiting ∨ w.slot ticket = none ∧ ticket ∈ w.departed
  received : w.received ticket = []

/-- The record tells of every accepted request where it is. -/
structure Recorded (w : Intake) : Prop where
  order : w.accepted = w.taken ++ w.hub.queue.items
  closed : w.hub.queue.closed → w.hub.queue.items = []
  /-- No two requests wait for their answers on one slot. -/
  distinct : (w.accepted.filterMap (·.ticket?)).Nodup
  made : ∀ ticket ∈ w.accepted.filterMap (·.ticket?), ticket ≤ w.hub.slots.made
  given : ∀ b ∈ w.batches, ∀ d ∈ b.handled, b.taker.Gives d.request d.outcome

/-- The reply slots, and what callers have found in them, are as the record of the requests says. -/
structure Slotted (w : Intake) : Prop where
  arrived : ∀ d ∈ w.handled, ∀ ticket, d.request.ticket? = some ticket → w.Arrived d.outcome ticket
  awaited : ∀ p ∈ w.waiting, ∀ ticket, p.ticket? = some ticket → w.Awaited ticket
  unmade : ∀ ticket, w.hub.slots.made < ticket → w.slot ticket = none ∧ w.received ticket = []

structure Accounted (w : Intake) : Prop extends Recorded w, Slotted w

variable {w after : Intake}

/-! ## The record -/

namespace Recorded

theorem accepted_perm (recorded : w.Recorded) : w.accepted.Perm (w.handled.map (·.request) ++ w.waiting) := by
  have split : w.taken.Perm (w.handled.map (·.request) ++ w.batches.flatMap (·.left)) := by
    rw [taken, handled, List.map_flatMap]
    exact (List.flatMap_append_perm _ _ _).symm
  rw [recorded.order, waiting, ← List.append_assoc]
  exact split.append_right _

theorem tickets_distinct (recorded : w.Recorded) :
    (((w.handled.map (·.request)).filterMap (·.ticket?)) ++ w.waiting.filterMap (·.ticket?)).Nodup := by
  rw [← List.filterMap_append]
  exact (recorded.accepted_perm.filterMap _).nodup_iff.mp recorded.distinct

theorem ticket_made (recorded : w.Recorded) {p : Queue.Pending} {ticket : Nat}
    (known : p ∈ w.handled.map (·.request) ++ w.waiting) (mine : p.ticket? = some ticket) :
    ticket ≤ w.hub.slots.made :=
  recorded.made ticket (List.mem_filterMap.mpr ⟨p, recorded.accepted_perm.mem_iff.mpr known, mine⟩)

theorem unhandled (recorded : w.Recorded) {p : Queue.Pending} {ticket : Nat} (waits : p ∈ w.waiting)
    (mine : p.ticket? = some ticket) : w.handled.filter (·.request.ticket? = some ticket) = [] := by
  have apart := List.disjoint_of_nodup_append recorded.tickets_distinct
  refine List.filter_eq_nil_iff.mpr fun d member same => ?_
  exact apart (List.mem_filterMap.mpr ⟨_, List.mem_map_of_mem member, of_decide_eq_true same⟩)
    (List.mem_filterMap.mpr ⟨p, waits, mine⟩)

theorem aside (recorded : w.Recorded) (accepted : after.accepted = w.accepted) (batches : after.batches = w.batches)
    (items : after.hub.queue.items = w.hub.queue.items) (closed : after.hub.queue.closed → w.hub.queue.closed)
    (made : after.hub.slots.made = w.hub.slots.made) : after.Recorded where
  order := by rw [accepted, items, recorded.order, taken, taken, batches]
  closed now := items.trans (recorded.closed (closed now))
  distinct := accepted ▸ recorded.distinct
  made := by
    rw [accepted, made]
    exact recorded.made
  given := batches ▸ recorded.given

theorem batch (recorded : w.Recorded) {taker : Taker} {batch : List Queue.Pending} {queue : Queue}
    (front : w.hub.queue.items = batch ++ queue.items) (closed : queue.closed → queue.items = []) :
    Recorded { w with hub := { w.hub with queue }, batches := w.batches ++ [{ taker, left := batch }] } where
  order := by
    have order := recorded.order
    rw [front] at order
    simpa [taken, Batch.requests] using order
  closed := closed
  distinct := recorded.distinct
  made := recorded.made
  given b member := by
    rcases List.mem_append.mp member with earlier | new
    · exact recorded.given b earlier
    · cases List.mem_singleton.mp new
      simp

/-- A request that the queue takes has no slot, or one that is made for it. -/
theorem accept (recorded : w.Recorded) {p : Queue.Pending} {slots : Queue.Slots} {queue : Queue}
    (items : queue.items = w.hub.queue.items ++ [p]) (open_ : ¬ queue.closed)
    (fresh : (p.ticket? = none ∧ slots = w.hub.slots) ∨
      p.ticket? = some (w.hub.slots.made + 1) ∧ slots = w.hub.slots.make.2) :
    Recorded { w with hub := { w.hub with queue, slots }, accepted := w.accepted ++ [p] } where
  order := by
    change w.accepted ++ [p] = w.taken ++ queue.items
    rw [items, recorded.order, List.append_assoc]
  closed closed := absurd closed open_
  distinct := by
    rw [List.filterMap_append]
    rcases fresh with ⟨silent, _⟩ | ⟨mine, _⟩
    · simpa [silent] using recorded.distinct
    · simp only [List.filterMap_cons, mine, List.filterMap_nil]
      refine List.nodup_append.mpr ⟨recorded.distinct, List.nodup_singleton _, ?_⟩
      rintro ticket given _ new rfl
      have older := recorded.made ticket given
      rw [List.mem_singleton.mp new] at older
      omega
  made := by
    intro ticket given
    rw [List.filterMap_append, List.mem_append] at given
    change ticket ≤ slots.made
    rcases fresh with ⟨silent, rfl⟩ | ⟨mine, rfl⟩
    · exact recorded.made ticket (by simpa [silent] using given)
    · change ticket ≤ w.hub.slots.made + 1
      rcases given with older | new
      · exact Nat.le_succ_of_le (recorded.made ticket older)
      · simp only [List.filterMap_cons, mine, List.filterMap_nil, List.mem_singleton] at new
        exact Nat.le_of_eq new
  given := recorded.given

theorem worked (recorded : w.Recorded) {earlier later : List Batch} {taker : Taker} {d : Handled}
    {done : List Handled} {left : List Queue.Pending} {hub : Hub}
    (shape : w.batches = earlier ++ ⟨taker, done, d.request :: left⟩ :: later)
    (gives : taker.Gives d.request d.outcome) (queue : hub.queue = w.hub.queue)
    (made : hub.slots.made = w.hub.slots.made) :
    Recorded { w with hub, batches := earlier ++ ⟨taker, done ++ [d], left⟩ :: later } where
  order := by
    have before := recorded.order
    simp only [taken, shape, ← queue] at before
    simpa [taken, Batch.requests] using before
  closed := by
    change hub.queue.closed → hub.queue.items = []
    rw [queue]
    exact recorded.closed
  distinct := recorded.distinct
  made := by
    change ∀ ticket ∈ w.accepted.filterMap (·.ticket?), ticket ≤ hub.slots.made
    rw [made]
    exact recorded.made
  given b member e inside := by
    have before := recorded.given
    rw [shape] at before
    rcases List.mem_append.mp member with old | here | ⟨_, old⟩
    · exact before b (List.mem_append_left _ old) e inside
    · rcases List.mem_append.mp inside with older | new
      · exact before _ (List.mem_append_right _ List.mem_cons_self) e older
      · exact List.mem_singleton.mp new ▸ gives
    · exact before b (List.mem_append_right _ (List.mem_cons_of_mem _ old)) e inside

end Recorded

/-! ## The slots -/

/-- One slot is left alone: it holds what it held, and whoever has it has found no more in it and not let go of it. -/
structure Beside (ticket : Nat) (before after : Intake) : Prop where
  slot : after.slot ticket = before.slot ticket
  received : after.received ticket = before.received ticket
  departed : ticket ∈ before.departed → ticket ∈ after.departed

section
variable {ticket other : Nat} {a : Dispatch.Answer}

theorem Arrived.beside (arrived : w.Arrived a ticket) (same : Beside ticket w after) : after.Arrived a ticket := by
  cases arrived with
  | held slot received => exact .held (same.slot.trans slot) (same.received.trans received)
  | received slot received => exact .received (same.slot.trans slot) (same.received.trans received)
  | departed slot departed received =>
    exact .departed (same.slot.trans slot) (same.departed departed) (same.received ▸ received)

theorem Awaited.beside (awaited : w.Awaited ticket) (same : Beside ticket w after) : after.Awaited ticket where
  slot := awaited.slot.imp same.slot.trans fun ⟨slot, departed⟩ => ⟨same.slot.trans slot, same.departed departed⟩
  received := same.received.trans awaited.received

theorem stepPoll_cases (ticket : Nat) (w : Intake) :
    (∃ a, w.slot ticket = some (.answered a) ∧ (w.stepPoll ticket).slot ticket = some .closed ∧
      (w.stepPoll ticket).received ticket = w.received ticket ++ [a]) ∨
    (∀ a, w.slot ticket ≠ some (.answered a)) ∧ Beside ticket w (w.stepPoll ticket) := by
  cases found : w.slot ticket with
  | none =>
    have polled : w.hub.slots.poll ticket = (.closed, w.hub.slots) := by
      simp only [Queue.Slots.poll, show w.hub.slots.slots.get? ticket = none from found]
    exact Or.inr ⟨nofun, by constructor <;> simp [stepPoll, polled, slot, received, Queue.Slot.answer?]⟩
  | some slot_ =>
    have here : w.hub.slots.slots.get? ticket = some slot_ := found
    cases slot_ with
    | answered a =>
      refine Or.inl ⟨a, rfl, ?_, ?_⟩
      · simp only [stepPoll, slot, Queue.Slots.poll, here]
        exact (Entries.get?_put ..).trans (if_pos rfl)
      · simp [stepPoll, received, Queue.Slots.poll, here, Queue.Slot.answer?]
    | waiting | closed =>
      refine Or.inr ⟨nofun, ?_⟩
      constructor <;> simp [stepPoll, Queue.Slots.poll, here, slot, received, Queue.Slot.answer?]

theorem beside_stepPoll (different : other ≠ ticket) (w : Intake) : Beside other w (w.stepPoll ticket) where
  slot := by
    simp only [stepPoll, slot, Queue.Slots.poll]
    split
    · exact (Entries.get?_put ..).trans (if_neg different.symm)
    · rfl
    · rfl
  received := by
    have unread : ∀ r ∈ (w.hub.slots.poll ticket).1.answer?.toList.map (Receipt.mk ticket), ¬ r.ticket = other := by
      intro r member
      obtain ⟨_, _, rfl⟩ := List.mem_map.mp member
      exact different.symm
    have none_ : ((w.hub.slots.poll ticket).1.answer?.toList.map (Receipt.mk ticket)).filter (·.ticket = other) = [] :=
      List.filter_eq_nil_iff.mpr fun r member same => unread r member (of_decide_eq_true same)
    simp only [received, stepPoll, List.filter_append, none_, List.append_nil]
  departed := id

theorem beside_stepHangUp (different : other ≠ ticket) (w : Intake) : Beside other w (w.stepHangUp ticket) where
  slot := (Entries.get?_erase ..).trans (if_neg different.symm)
  received := rfl
  departed := List.mem_append_left _

theorem departed_stepHangUp (there : w.slot ticket ≠ none ∨ ticket ∈ w.departed) :
    (w.stepHangUp ticket).slot ticket = none ∧ ticket ∈ (w.stepHangUp ticket).departed := by
  refine ⟨(Entries.get?_erase ..).trans (if_pos rfl), List.mem_append.mpr ?_⟩
  rcases there with present | departed
  · obtain ⟨slot, found⟩ := Option.ne_none_iff_exists'.mp present
    exact Or.inr (by simp [found])
  · exact Or.inl departed

theorem Arrived.poll (arrived : w.Arrived a other) (ticket : Nat) : (w.stepPoll ticket).Arrived a other := by
  by_cases same : other = ticket
  · subst same
    rcases stepPoll_cases other w with ⟨b, answered, closed, found⟩ | ⟨unanswered, beside⟩
    · cases arrived with
      | held slot unread =>
        cases answered.symm.trans slot
        exact .received closed (by rw [found, unread, List.nil_append])
      | received slot => cases answered.symm.trans slot
      | departed slot => cases answered.symm.trans slot
    · exact arrived.beside beside
  · exact arrived.beside (beside_stepPoll same w)

theorem Awaited.poll (awaited : w.Awaited other) (ticket : Nat) : (w.stepPoll ticket).Awaited other := by
  by_cases same : other = ticket
  · subst same
    rcases stepPoll_cases other w with ⟨b, answered, _, _⟩ | ⟨_, beside⟩
    · rcases awaited.slot with waits | ⟨gone, _⟩
      · cases answered.symm.trans waits
      · cases answered.symm.trans gone
    · exact awaited.beside beside
  · exact awaited.beside (beside_stepPoll same w)

theorem Arrived.hangUp (arrived : w.Arrived a other) (ticket : Nat) : (w.stepHangUp ticket).Arrived a other := by
  by_cases same : other = ticket
  · subst same
    cases arrived with
    | held slot received =>
      obtain ⟨gone, departed⟩ := departed_stepHangUp (Or.inl (by rw [slot]; nofun))
      exact .departed gone departed (Or.inl received)
    | received slot received =>
      obtain ⟨gone, departed⟩ := departed_stepHangUp (Or.inl (by rw [slot]; nofun))
      exact .departed gone departed (Or.inr received)
    | departed _ departed received =>
      obtain ⟨gone, departed⟩ := departed_stepHangUp (Or.inr departed)
      exact .departed gone departed received
  · exact arrived.beside (beside_stepHangUp same w)

theorem Awaited.hangUp (awaited : w.Awaited other) (ticket : Nat) : (w.stepHangUp ticket).Awaited other := by
  by_cases same : other = ticket
  · subst same
    have there : w.slot other ≠ none ∨ other ∈ w.departed :=
      awaited.slot.imp (fun waits => by rw [waits]; nofun) (·.2)
    exact ⟨Or.inr (departed_stepHangUp there), awaited.received⟩
  · exact awaited.beside (beside_stepHangUp same w)

end

namespace Slotted

theorem kept (slotted : w.Slotted) (handled : after.handled = w.handled) (waiting : after.waiting = w.waiting)
    (arrived : ∀ a ticket, w.Arrived a ticket → after.Arrived a ticket)
    (awaited : ∀ ticket, w.Awaited ticket → after.Awaited ticket)
    (unmade : ∀ ticket, after.hub.slots.made < ticket → after.slot ticket = none ∧ after.received ticket = []) :
    after.Slotted where
  arrived d member ticket mine := arrived _ _ (slotted.arrived d (handled ▸ member) ticket mine)
  awaited p member ticket mine := awaited _ (slotted.awaited p (waiting ▸ member) ticket mine)
  unmade := unmade

theorem aside (slotted : w.Slotted) (handled : after.handled = w.handled)
    (waiting : ∀ p ∈ after.waiting, p ∈ w.waiting ∨ p.ticket? = none) (slots : after.hub.slots = w.hub.slots)
    (receipts : after.receipts = w.receipts) (departed : after.departed = w.departed) : after.Slotted := by
  have same : ∀ ticket, Beside ticket w after := fun ticket =>
    ⟨by rw [slot, slots, slot], by rw [received, receipts, received], departed ▸ id⟩
  constructor
  · exact fun d member ticket its => (slotted.arrived d (handled ▸ member) ticket its).beside (same ticket)
  · intro p member ticket its
    rcases waiting p member with old | silent
    · exact (slotted.awaited p old ticket its).beside (same ticket)
    · cases silent.symm.trans its
  · intro ticket beyond
    rw [(same ticket).slot, (same ticket).received]
    exact slotted.unmade ticket (slots ▸ beyond)

/-- A request that is accepted with a slot has the one that is made for it. Nobody can have looked into that before, nor
let go of it. -/
theorem grown (slotted : w.Slotted) (recorded : w.Recorded) {p : Queue.Pending}
    (mine : p.ticket? = some (w.hub.slots.made + 1)) {queue : Queue} (items : queue.items = w.hub.queue.items ++ [p]) :
    Slotted { w with hub := { w.hub with queue, slots := w.hub.slots.make.2 }, accepted := w.accepted ++ [p] } := by
  let grown : Intake :=
    { w with hub := { w.hub with queue, slots := w.hub.slots.make.2 }, accepted := w.accepted ++ [p] }
  have slot_grown (ticket : Nat) : grown.slot ticket = if w.hub.slots.made + 1 = ticket then some .waiting else w.slot ticket :=
    Entries.get?_put ..
  have older : ∀ ticket ≤ w.hub.slots.made, Beside ticket w grown := by
    intro ticket made
    refine ⟨(slot_grown ticket).trans (if_neg (by omega)), rfl, id⟩
  have waits : grown.waiting = w.waiting ++ [p] := by
    change _ ++ queue.items = _
    rw [items, waiting, List.append_assoc]
  constructor
  · intro d member ticket its
    have made := recorded.ticket_made (List.mem_append_left _ (List.mem_map_of_mem member)) its
    exact (slotted.arrived d member ticket its).beside (older ticket made)
  · intro q member ticket its
    rw [show _ = w.waiting ++ [p] from waits] at member
    rcases List.mem_append.mp member with old | new
    · have made := recorded.ticket_made (List.mem_append_right _ old) its
      exact (slotted.awaited q old ticket its).beside (older ticket made)
    · rw [List.mem_singleton.mp new, mine] at its
      cases its
      exact ⟨Or.inl ((slot_grown _).trans (if_pos rfl)), (slotted.unmade _ (Nat.lt_succ_self _)).2⟩
  · intro ticket beyond
    have above : w.hub.slots.made + 1 < ticket := beyond
    refine ⟨(slot_grown ticket).trans ((if_neg (by omega)).trans ?_), ?_⟩
    · exact (slotted.unmade ticket (by omega)).1
    · exact (slotted.unmade ticket (by omega)).2

/-- The outcome of a request comes to its caller if that waits. Nothing comes to anyone else, as no other request has the
same slot. -/
theorem worked (slotted : w.Slotted) (recorded : w.Recorded) {d : Handled}
    (waiting : w.waiting.Perm (d.request :: after.waiting)) (handled : ∀ e ∈ after.handled, e ∈ w.handled ∨ e = d)
    (settled : after.hub.slots = w.hub.slots.settle d.request d.outcome) (receipts : after.receipts = w.receipts)
    (departed : after.departed = w.departed) : after.Slotted := by
  have waits : d.request ∈ w.waiting := waiting.mem_iff.mpr List.mem_cons_self
  have unread (ticket : Nat) : after.received ticket = w.received ticket := by rw [received, receipts, received]
  have others : ∀ ticket, d.request.ticket? ≠ some ticket → Beside ticket w after := by
    intro ticket different
    refine ⟨?_, unread ticket, departed ▸ id⟩
    rw [slot, settled, Queue.Slots.settle]
    split
    next own mine => exact (w.hub.slots.answer_cases own d.outcome).2.1 ticket fun same => different (same ▸ mine)
    next => rfl
  have own : ∀ ticket, d.request.ticket? = some ticket → after.Arrived d.outcome ticket := by
    intro ticket mine
    have awaited := slotted.awaited d.request waits ticket mine
    have nothing := (unread ticket).trans awaited.received
    have slots : after.slot ticket = (w.hub.slots.answer ticket d.outcome).2.slots.get? ticket := by
      rw [slot, settled, Queue.Slots.settle_ticket _ _ mine]
    rcases (w.hub.slots.answer_cases ticket d.outcome).2.2 with ⟨_, answered⟩ | ⟨idle, kept⟩
    · exact .held (slots.trans answered) nothing
    · obtain ⟨gone, left⟩ := awaited.slot.resolve_left idle
      exact .departed (slots.trans (kept.trans gone)) (departed ▸ left) (Or.inl nothing)
  constructor
  · intro e member ticket its
    by_cases mine : d.request.ticket? = some ticket
    · rcases handled e member with old | rfl
      · exact absurd (decide_eq_true its) (List.filter_eq_nil_iff.mp (recorded.unhandled waits mine) e old)
      · exact own ticket its
    · rcases handled e member with old | rfl
      · exact (slotted.arrived e old ticket its).beside (others ticket mine)
      · exact absurd its mine
  · intro q member ticket its
    have apart : d.request.ticket? ≠ some ticket := by
      intro mine
      have nodup := (waiting.filterMap (·.ticket?)).nodup_iff.mp recorded.tickets_distinct.of_append_right
      rw [List.filterMap_cons, mine] at nodup
      exact (List.nodup_cons.mp nodup).1 (List.mem_filterMap.mpr ⟨q, member, its⟩)
    have before : q ∈ w.waiting := waiting.mem_iff.mpr (List.mem_cons_of_mem _ member)
    exact (slotted.awaited q before ticket its).beside (others ticket apart)
  · intro ticket beyond
    rw [settled, Queue.Slots.made_settle] at beyond
    have apart : d.request.ticket? ≠ some ticket := by
      intro mine
      have made := recorded.ticket_made (List.mem_append_right _ waits) mine
      omega
    rw [(others ticket apart).slot, (others ticket apart).received]
    exact slotted.unmade ticket beyond

end Slotted

/-! ## Moves -/

namespace Accounted

theorem initial : Accounted {} := by
  constructor <;> constructor <;> simp [taken, handled, waiting, slot, received, Entries.get?]

/-- What happens beside the queue and the reply slots, or opens the queue again, is of no account. -/
private theorem aside (accounted : w.Accounted) (accepted : after.accepted = w.accepted)
    (batches : after.batches = w.batches) (items : after.hub.queue.items = w.hub.queue.items)
    (closed : after.hub.queue.closed → w.hub.queue.closed) (slots : after.hub.slots = w.hub.slots)
    (receipts : after.receipts = w.receipts) (departed : after.departed = w.departed) : after.Accounted := by
  have waiting : after.waiting = w.waiting := by rw [waiting, items, batches, Intake.waiting]
  have handled : after.handled = w.handled := by rw [handled, batches, Intake.handled]
  exact ⟨accounted.toRecorded.aside accepted batches items closed (congrArg (·.made) slots),
    accounted.toSlotted.aside handled (fun p member => Or.inl (waiting ▸ member)) slots receipts departed⟩

theorem push_preserves (accounted : w.Accounted) (p : Queue.Pending) : (w.step (.push p)).Accounted := by
  have fresh := w.hub.prepare_cases p
  simp only [step, stepPush]
  generalize w.hub.prepare p = prepared at fresh ⊢
  obtain ⟨p, slots⟩ := prepared
  by_cases closed : w.hub.queue.closed
  · rw [Queue.push?, if_pos closed]
    exact accounted.aside rfl rfl rfl id rfl rfl rfl
  · rw [Queue.push?, if_neg closed]
    refine ⟨accounted.toRecorded.accept rfl closed fresh, ?_⟩
    rcases fresh with ⟨silent, rfl⟩ | ⟨mine, rfl⟩
    · refine accounted.toSlotted.aside rfl (fun q member => ?_) rfl rfl rfl
      simp only [waiting, ← List.append_assoc] at member
      rcases List.mem_append.mp member with old | new
      · exact Or.inl old
      · rw [List.mem_singleton] at new
        exact Or.inr (new ▸ silent)
    · exact accounted.toSlotted.grown accounted.toRecorded mine rfl

private theorem batch_preserves (accounted : w.Accounted) {taker : Taker} {batch : List Queue.Pending} {queue : Queue}
    (front : w.hub.queue.items = batch ++ queue.items) (closed : queue.closed → queue.items = []) :
    Accounted { w with hub := { w.hub with queue }, batches := w.batches ++ [{ taker, left := batch }] } := by
  refine ⟨accounted.toRecorded.batch front closed, accounted.toSlotted.aside ?_ (fun p member => Or.inl ?_) rfl rfl rfl⟩
  · simp [handled]
  · simpa [waiting, front] using member

theorem take_preserves (accounted : w.Accounted) : (w.step .take).Accounted := by
  refine accounted.batch_preserves (List.take_append_drop _ _).symm fun closed => ?_
  change w.hub.queue.items.drop _ = []
  rw [accounted.closed closed, List.drop_nil]

theorem close_preserves (accounted : w.Accounted) : (w.step .close).Accounted :=
  accounted.batch_preserves (List.append_nil _).symm fun _ => rfl

theorem work_preserves (accounted : w.Accounted) (batch : Nat) (job : Job) :
    (w.step (.work batch job)).Accounted := by
  simp only [step, stepWork]
  split
  next taker done p left found =>
    split
    next fits =>
      obtain ⟨_, queue, slots⟩ := job.desk_work p w.hub
      obtain ⟨inside, here⟩ := List.getElem?_eq_some_iff.mp found
      have shape : w.batches = w.batches.take batch ++ ⟨taker, done, p :: left⟩ :: w.batches.drop (batch + 1) := by
        rw [← here, List.getElem_cons_drop, List.take_append_drop]
      rw [List.set_eq_take_append_cons_drop, if_pos inside]
      generalize w.batches.take batch = earlier at shape
      generalize w.batches.drop (batch + 1) = later at shape
      constructor
      · refine accounted.toRecorded.worked (d := ⟨p, (job.work p w.hub).1⟩) shape ?_ queue ?_
        · exact fits ▸ job.work_gives p w.hub
        · rw [slots, Queue.Slots.made_settle]
      · refine accounted.toSlotted.worked (d := ⟨p, (job.work p w.hub).1⟩) accounted.toRecorded ?_ ?_ slots rfl rfl
        · simp only [waiting, shape, queue, List.flatMap_append, List.flatMap_cons, List.append_assoc, List.cons_append]
          exact List.perm_middle
        · intro e member
          simp only [handled, shape, List.flatMap_append, List.flatMap_cons, List.mem_append, List.mem_singleton] at member ⊢
          tauto
    next => exact accounted
  next => exact accounted

theorem poll_preserves (accounted : w.Accounted) (ticket : Nat) : (w.step (.poll ticket)).Accounted := by
  have same : (w.hub.slots.poll ticket).2.made = w.hub.slots.made := (w.hub.slots.poll_cases ticket).1
  refine ⟨accounted.toRecorded.aside rfl rfl rfl id same, ?_⟩
  refine accounted.toSlotted.kept rfl rfl (fun _ _ arrived => arrived.poll ticket) (fun _ awaited => awaited.poll ticket) ?_
  intro other beyond
  have unmade := accounted.unmade other (same ▸ beyond)
  have beside : Beside other w (w.stepPoll ticket) := by
    by_cases here : other = ticket
    · subst here
      exact (stepPoll_cases other w).resolve_left (fun ⟨_, answered, _⟩ => by cases answered.symm.trans unmade.1) |>.2
    · exact beside_stepPoll here w
  exact ⟨beside.slot.trans unmade.1, beside.received.trans unmade.2⟩

theorem hangUp_preserves (accounted : w.Accounted) (ticket : Nat) : (w.step (.hangUp ticket)).Accounted := by
  refine ⟨accounted.toRecorded.aside rfl rfl rfl id rfl, ?_⟩
  refine accounted.toSlotted.kept rfl rfl (fun _ _ arrived => arrived.hangUp ticket) (fun _ awaited => awaited.hangUp ticket) ?_
  intro other beyond
  obtain ⟨absent, unread⟩ := accounted.unmade other beyond
  refine ⟨(Entries.get?_erase ..).trans ?_, unread⟩
  split
  · rfl
  · exact absent

theorem step_preserves (accounted : w.Accounted) (move : Move) : (w.step move).Accounted := by
  cases move with
  | push p => exact accounted.push_preserves p
  | take => exact accounted.take_preserves
  | close => exact accounted.close_preserves
  | work batch job => exact accounted.work_preserves batch job
  | reopen => exact accounted.aside rfl rfl rfl (fun closed => by cases closed) rfl rfl rfl
  | poll ticket => exact accounted.poll_preserves ticket
  | hangUp ticket => exact accounted.hangUp_preserves ticket
  | elsewhere other => exact accounted.aside rfl rfl rfl id rfl rfl rfl

theorem run_preserves (accounted : w.Accounted) (moves : List Move) : (w.run moves).Accounted :=
  List.foldlRecOn moves step accounted fun _ held move _ => held.step_preserves move

end Accounted

/-! ## Whole runs -/

def Refuses (p : Queue.Pending) (w : Intake) : Prop :=
  w.step (.push p) = { w with handedBack := w.handedBack ++ [(w.hub.prepare p).1] }

def Takes (p : Queue.Pending) (w : Intake) : Prop :=
  (w.step (.push p)).accepted = w.accepted ++ [(w.hub.prepare p).1] ∧
    (w.step (.push p)).hub.queue.items = w.hub.queue.items ++ [(w.hub.prepare p).1]

theorem refuses_iff (p : Queue.Pending) (w : Intake) : w.Refuses p ↔ w.hub.queue.closed := by
  simp only [Refuses, step, stepPush, Queue.push?]
  constructor
  · intro refused
    by_cases closed : w.hub.queue.closed
    · exact closed
    · rw [if_neg closed] at refused
      have longer := congrArg (fun w : Intake => w.accepted.length) refused
      simp at longer
  · intro closed
    rw [if_pos closed]

theorem refuses_or_takes (p : Queue.Pending) (w : Intake) : w.Refuses p ∨ w.Takes p := by
  by_cases closed : w.hub.queue.closed
  · exact Or.inl ((refuses_iff p w).mpr closed)
  · refine Or.inr ?_
    simp only [Takes, step, stepPush, Queue.push?, if_neg closed, and_self]

private theorem closed_step (w : Intake) (move : Move) : (w.step move).hub.queue.closed ↔
    move = .close ∨ move ≠ .reopen ∧ w.hub.queue.closed := by
  cases move with
  | push p =>
    simp only [step, stepPush, Queue.push?]
    split
    next queue pushed =>
      split at pushed <;> cases pushed
      simp
    next => simp
  | work batch job =>
    simp only [step, stepWork]
    split
    · split
      · simp [(job.desk_work _ _).2.1]
      · simp
    · simp
  | take | close | reopen | poll _ | hangUp _ | elsewhere _ =>
    simp [step, stepTake, stepClose, stepPoll, stepHangUp, Queue.take, Queue.close, Queue.reopen]

/-- The queue is closed after a stop, until the server starts again. -/
theorem closed_run (moves : List Move) : (run {} moves).hub.queue.closed ↔
    ∃ before after, moves = before ++ .close :: after ∧ .reopen ∉ after := by
  induction moves using List.reverseRecOn with
  | nil => simp [run]
  | append_singleton earlier move ih =>
    rw [run_append]
    refine (closed_step _ _).trans ?_
    rw [ih]
    constructor
    · rintro (rfl | ⟨other, before, after, rfl, still⟩)
      · exact ⟨earlier, [], rfl, List.not_mem_nil⟩
      · exact ⟨before, after ++ [move], by simp, by simp [still, other.symm]⟩
    · rintro ⟨before, after, shape, still⟩
      rcases List.eq_nil_or_concat after with rfl | ⟨after, last, rfl⟩
      · exact Or.inl (List.cons.inj (List.append_inj' shape rfl).2).1
      · rw [List.concat_eq_append, ← List.cons_append, ← List.append_assoc] at shape
        obtain ⟨rfl, same⟩ := List.append_inj' shape rfl
        obtain ⟨rfl, _⟩ := List.cons.inj same
        rw [List.concat_eq_append, List.mem_append, not_or] at still
        exact Or.inr ⟨fun reopened => still.2 (by simp [reopened]), before, after, rfl, still.1⟩

/-- A request is over and done with. Who took it has given it one outcome and no other, and this has come to the caller. -/
structure Settled (taker : Taker) (p : Queue.Pending) (ticket : Nat) (a : Dispatch.Answer) (w : Intake) : Prop where
  given : taker.Gives p a
  once : w.outcomes ticket = [a]
  arrived : w.Arrived a ticket

private theorem filter_handled {d : Handled} {handled : List Handled} {ticket : Nat}
    (distinct : ((handled.map (·.request)).filterMap (·.ticket?)).Nodup) (member : d ∈ handled)
    (mine : d.request.ticket? = some ticket) : handled.filter (·.request.ticket? = some ticket) = [d] := by
  obtain ⟨before, after, rfl⟩ := List.append_of_mem member
  have others : ∀ e ∈ before ++ after, ¬ e.request.ticket? = some ticket := by
    intro e other same
    have shuffled : ((before ++ d :: after).map (·.request)).Perm ((d :: (before ++ after)).map (·.request)) :=
      List.perm_middle.map _
    have nodup := (shuffled.filterMap _).nodup_iff.mp distinct
    simp only [List.map_cons, List.filterMap_cons, mine] at nodup
    exact (List.nodup_cons.mp nodup).1 (List.mem_filterMap.mpr ⟨_, List.mem_map_of_mem other, same⟩)
  have unmatched : ∀ part ⊆ before ++ after, part.filter (·.request.ticket? = some ticket) = [] := fun part inside =>
    List.filter_eq_nil_iff.mpr fun e there same => others e (inside there) (of_decide_eq_true same)
  rw [List.filter_append, List.filter_cons_of_pos (by simpa using mine), unmatched before (by simp),
    unmatched after (by simp), List.nil_append]

theorem Accounted.settled (accounted : w.Accounted) {b : Batch} (member : b ∈ w.batches) {d : Handled}
    (inside : d ∈ b.handled) {ticket : Nat} (mine : d.request.ticket? = some ticket) :
    w.Settled b.taker d.request ticket d.outcome := by
  have handled : d ∈ w.handled := List.mem_flatMap.mpr ⟨b, member, inside⟩
  refine ⟨accounted.given b member d inside, ?_, accounted.arrived d handled ticket mine⟩
  rw [outcomes, filter_handled accounted.tickets_distinct.of_append_left handled mine, List.map_singleton]

/-- In every run, the accepted requests are, in order, those that ticks and stops have taken and those still
queued, and a request is handed back just if the queue has been closed and not opened again. A request that was taken
and waits for its answer has been given one outcome, by its taker, and this is all that its caller has found in its
slot or can find there; until then the caller waits and finds nothing, as it does while the request is queued. Whole
ticks and whole stops are such runs, at any time, and so is whatever a server does whose hub this is. -/
theorem consumed_once_in_order (moves : List Move) :
    let w := run {} moves
    w.accepted = w.taken ++ w.hub.queue.items ∧
    (∀ p, (w.Refuses p ↔ ∃ before after, moves = before ++ .close :: after ∧ .reopen ∉ after) ∧
      (w.Refuses p ∨ w.Takes p)) ∧
    (∀ b ∈ w.batches, ∀ p ∈ b.requests, ∀ ticket, p.ticket? = some ticket →
      (p ∈ b.left ∧ w.outcomes ticket = [] ∧ w.Awaited ticket) ∨
      ∃ a, ⟨p, a⟩ ∈ b.handled ∧ w.Settled b.taker p ticket a) ∧
    (∀ p ∈ w.hub.queue.items, ∀ ticket, p.ticket? = some ticket → w.outcomes ticket = [] ∧ w.Awaited ticket) ∧
    (∀ registry now, ∃ done, (w.run (w.ticking registry now)).hub = (Tick.tick registry now w.hub).2 ∧
      (w.run (w.ticking registry now)).batches = w.batches ++ [⟨.tick, done, []⟩] ∧
      done.length = (Tick.tick registry now w.hub).1 ∧
      done.map (·.request) = w.hub.queue.items.take (max 1 w.hub.config.maxRequestsPerTick)) ∧
    (∃ done, (w.run w.stopping).hub = w.hub.shutDown ∧
      (w.run w.stopping).batches = w.batches ++ [⟨.stop, done, []⟩] ∧ done.map (·.request) = w.hub.queue.items) ∧
    ∀ s : Server, s.hub = w.hub → w.Idle → ∀ later, ∃ more, (w.run more).hub = (s.run later).hub ∧ (w.run more).Idle := by
  intro w
  have accounted : w.Accounted := Accounted.initial.run_preserves moves
  have pending : ∀ p ∈ w.waiting, ∀ ticket, p.ticket? = some ticket → w.outcomes ticket = [] ∧ w.Awaited ticket := by
    intro p waits ticket mine
    exact ⟨by rw [outcomes, accounted.unhandled waits mine, List.map_nil], accounted.awaited p waits ticket mine⟩
  refine ⟨accounted.order, fun p => ⟨(refuses_iff p w).trans (closed_run moves), refuses_or_takes p w⟩, ?_, ?_,
    fun registry now => w.tick_run registry now, w.shutDown_run, fun s here idle later => s.reaches_run later w here.symm idle⟩
  · intro b member p asked ticket mine
    rcases List.mem_append.mp asked with done | left
    · obtain ⟨d, inside, rfl⟩ := List.mem_map.mp done
      exact Or.inr ⟨d.outcome, inside, accounted.settled member inside mine⟩
    · have waits : p ∈ w.waiting := List.mem_append_left _ (List.mem_flatMap.mpr ⟨b, member, left⟩)
      exact Or.inl ⟨left, pending p waits ticket mine⟩
  · exact fun p queued => pending p (List.mem_append_right _ queued)

/-- Whatever a server does, there is a run of an intake that has the same hub in the end, with no tick and no stop under
way. So what holds of all runs of intakes holds of the queue of a server. -/
theorem server_intake {s : Server} (queue : s.hub.queue = {}) (slots : s.hub.slots = {}) (moves : List Server.Move) :
    ∃ more, (run {} more).hub = (s.run moves).hub ∧ (run {} more).Idle := by
  have here : (run {} [.elsewhere s.hub]).hub = s.hub := by
    change { s.hub with queue := {}, slots := {} } = s.hub
    rw [← queue, ← slots]
  have idle : (run {} [.elsewhere s.hub]).Idle := nofun
  obtain ⟨more, there, ended⟩ := s.reaches_run moves _ here idle
  rw [← run_append] at there ended
  exact ⟨_, there, ended⟩

end Intake

end Server

end ToolBridge

import ToolBridge.Proofs.ParkedConnections

/-! What a hub carries from clients and back to them: the requests in its queue, and the answers in its reply slots. A
property of requests and one of answers are kept by all that adds neither. -/

namespace ToolBridge.Server

/-- Every request in the queue has the one property, and every answer in a slot the other. -/
structure Hub.Carries (waits : Queue.Pending → Prop) (told : Dispatch.Answer → Prop) (h : Hub) : Prop where
  queued : ∀ p ∈ h.queue.items, waits p
  answered : ∀ ticket a, h.slots.slots.get? ticket = some (.answered a) → told a

namespace Hub.Carries
variable {waits : Queue.Pending → Prop} {told : Dispatch.Answer → Prop} {h after : Hub}

theorem mono (carries : h.Carries waits told) {waits' : Queue.Pending → Prop} {told' : Dispatch.Answer → Prop}
    (weaker : ∀ p, waits p → waits' p) (also : ∀ a, told a → told' a) : h.Carries waits' told' :=
  ⟨fun p member => weaker p (carries.queued p member), fun ticket a found => also a (carries.answered ticket a found)⟩

theorem fewer (carries : h.Carries waits told) (queue : after.queue.items ⊆ h.queue.items)
    (slots : ∀ ticket a, after.slots.slots.get? ticket = some (.answered a) →
      h.slots.slots.get? ticket = some (.answered a)) : after.Carries waits told :=
  ⟨fun p member => carries.queued p (queue member), fun ticket a found => carries.answered ticket a (slots ticket a found)⟩

theorem same (carries : h.Carries waits told) (queue : after.queue.items = h.queue.items) (slots : after.slots = h.slots) :
    after.Carries waits told :=
  carries.fewer (queue ▸ List.Subset.refl _) fun _ _ found => slots ▸ found

theorem push (carries : h.Carries waits told) {p : Queue.Pending} {queue : Queue} (fits : waits p)
    (taken : h.queue.push? p = some queue) : Carries waits told { h with queue } := by
  unfold Queue.push? at taken
  split at taken
  · cases taken
  · cases taken
    refine ⟨fun other member => ?_, carries.answered⟩
    rcases List.mem_append.mp member with old | new
    · exact carries.queued other old
    · exact List.mem_singleton.mp new ▸ fits

theorem answer (carries : h.Carries waits told) (ticket : Nat) {a : Dispatch.Answer} (fits : told a) :
    Carries waits told { h with slots := (h.slots.answer ticket a).2 } := by
  refine ⟨carries.queued, fun other b found => ?_⟩
  obtain ⟨_, others, here⟩ := h.slots.answer_cases ticket a
  dsimp only at found
  by_cases same : other = ticket
  · subst same
    rcases here with ⟨_, now⟩ | ⟨_, kept⟩
    · cases now.symm.trans found
      exact fits
    · exact carries.answered other b (kept ▸ found)
  · exact carries.answered other b (others other same ▸ found)

theorem collect (carries : h.Carries waits told) (ticket : Nat) :
    Carries waits told { h with slots := h.slots.collect ticket } := by
  refine carries.fewer (List.Subset.refl _) fun other a found => ?_
  rw [Queue.Slots.get?_collect] at found
  split at found
  · cases found
  · exact found

theorem make (carries : h.Carries waits told) : Carries waits told { h with slots := h.slots.make.2 } := by
  refine carries.fewer (List.Subset.refl _) fun other a found => ?_
  rw [Queue.Slots.get?_make] at found
  split at found
  · cases found
  · exact found

theorem foldl {α : Type} {change : Hub → α → Hub} {items : List α} (carries : h.Carries waits told)
    (kept : ∀ (h : Hub), h.Carries waits told → ∀ item ∈ items, (change h item).Carries waits told) :
    (items.foldl change h).Carries waits told :=
  List.foldlRecOn items change (motive := Hub.Carries waits told) carries kept

theorem sweep (carries : h.Carries waits told) (now : Int) : (h.sweep now).Carries waits told := by
  unfold Hub.sweep
  have swept : Carries waits told { h with sessions := (h.sessions.sweep now h.config.sessionIdle).2 } :=
    carries.same rfl rfl
  refine (swept.foldl fun h carries session _ => ?_).foldl fun h carries session _ => ?_
  · rw [expire_eq]
    exact carries.same rfl rfl
  · unfold discardDead
    split
    · exact carries
    · exact carries.same rfl rfl

theorem perform (carries : h.Carries waits told) (registry : Tool.Registry) (now : Int) (p : Queue.Pending) :
    (Tick.perform registry now p h).2.Carries waits told := by
  rw [Tick.hub_perform]
  exact carries.same rfl rfl

theorem announce (carries : h.Carries waits told) (a : Dispatch.Answer) : (Tick.announce a h).Carries waits told := by
  obtain ⟨news, announced, _⟩ := Tick.announce_eq a h
  exact announced ▸ carries.same rfl rfl

theorem hand (carries : h.Carries waits told) {p : Queue.Pending} {a : Dispatch.Answer}
    (fits : p.route ≠ .stream → told a) : (Tick.hand p a h).Carries waits told := by
  unfold Tick.hand
  split
  next ticket direct => exact carries.answer ticket (fits (by simp [direct]))
  next =>
    split
    · exact carries.same rfl rfl
    · exact carries

theorem process (carries : h.Carries waits told) (registry : Tool.Registry) (now : Int) {p : Queue.Pending}
    (fits : p.route ≠ .stream → told (Tick.perform registry now p h).1) :
    (Tick.process registry now p h).Carries waits told := by
  have performed := carries.perform registry now p
  unfold Tick.process
  generalize Tick.perform registry now p h = outcome at fits performed
  exact (performed.announce outcome.1).hand fits

theorem take (carries : h.Carries waits told) (most : Nat) : Carries waits told { h with queue := (h.queue.take most).2 } :=
  carries.fewer (List.drop_subset _ _) fun _ _ found => found

theorem shutDown (carries : h.Carries waits told)
    (refused : ∀ p, p.route ≠ .stream → waits p → told (Hub.refusal p)) : h.shutDown.Carries waits told := by
  have closed : Carries waits told { h with queue := h.queue.close.2 } :=
    carries.fewer (List.nil_subset _) fun _ _ found => found
  have drained : (h.queue.items.foldl (fun (h : Hub) p => h.refuseQueued p)
      { h with queue := h.queue.close.2 }).Carries waits told := by
    refine closed.foldl fun h' carries' p member => ?_
    unfold refuseQueued
    split
    · exact carries'
    next ticket direct =>
      exact carries'.answer ticket (refused p (by simp [direct]) (carries.queued p member))
  exact drained.same rfl rfl

end Hub.Carries

end ToolBridge.Server

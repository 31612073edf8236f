import ToolBridge.Proofs.HubHistory
import ToolBridge.Proofs.ServerRuns

/-! What observers are told of a server's starts and stops. Only starting and stopping tell of either, and only they
open and close the queue; a closed queue that is empty stays so. -/

namespace ToolBridge.Server

/-- Whether an event tells of a start or of a stop. -/
def Event.turn? : Event → Option Bool
  | .started _ => some true
  | .stopped => some false
  | _ => none

namespace Hub

def turns (h : Hub) : List Bool := h.events.filterMap Event.turn?

/-- Observers hear of no start and no stop, and the queue is as open as it was, and empty if it was closed and empty. -/
structure Abides (before after : Hub) : Prop where
  turns : after.turns = before.turns
  closed : after.queue.closed = before.queue.closed
  empty : before.queue.closed = true → before.queue.items = [] → after.queue.items = []

namespace Abides
variable {before middle after : Hub}

theorem refl (h : Hub) : h.Abides h := ⟨rfl, rfl, fun _ => id⟩

theorem trans (first : before.Abides middle) (second : middle.Abides after) : before.Abides after where
  turns := second.turns.trans first.turns
  closed := second.closed.trans first.closed
  empty := fun closed empty => second.empty (first.closed.trans closed) (first.empty closed empty)

/-- Other things are told, and the queue is as it was. -/
theorem apart {news : List Event} (queue : after.queue = before.queue) (events : after.events = before.events ++ news)
    (aside : ∀ event ∈ news, event.turn? = none) : before.Abides after where
  turns := by
    rw [Hub.turns, events, List.filterMap_append, List.filterMap_eq_nil_iff.mpr aside, List.append_nil, Hub.turns]
  closed := congrArg Queue.closed queue
  empty := fun _ empty => queue ▸ empty

theorem same (queue : after.queue = before.queue) (events : after.events = before.events) : before.Abides after :=
  .apart queue (events.trans (List.append_nil _).symm) (List.forall_mem_nil _)

theorem pushed {p : Queue.Pending} (taken : before.queue.push? p = some after.queue)
    (events : after.events = before.events) : before.Abides after := by
  unfold Queue.push? at taken
  split at taken
  · cases taken
  next open_ =>
    have queue := (Option.some.inj taken).symm
    exact ⟨by rw [Hub.turns, events, Hub.turns], by rw [queue], fun closed => absurd closed open_⟩

end Abides

theorem turn?_closingNotices (sessions : List String) (r : Stream.Registry) :
    ∀ event ∈ closingNotices sessions r, event.turn? = none := by
  induction sessions generalizing r with
  | nil => exact List.forall_mem_nil _
  | cons session rest ih =>
    intro event member
    rcases List.mem_append.mp member with lost | later
    · obtain ⟨_, _, rfl⟩ := List.mem_map.mp lost
      rfl
    · rcases List.mem_cons.mp later with rfl | other
      · rfl
      · exact ih _ event other

theorem abides_sweep (now : Int) (h : Hub) : h.Abides (h.sweep now) :=
  .apart (h.sweep_swept now).queue (h.sweep_swept now).events (turn?_closingNotices _ _)

end Hub

namespace Route

theorem abides_finds {now : Int} {r : Http.Request} {h found : Hub} {session : String}
    (finds : Finds now r h session found) : h.Abides found := by
  cases finds with
  | known _ _ => exact .same rfl rfl
  | minted _ => exact .apart rfl rfl fun event member => by rw [List.mem_singleton.mp member]; rfl

theorem abides_route (now : Int) (c : Config) (r : Http.Request) (connection : Nat) (h : Hub) :
    h.Abides (route now c r connection h).2 := by
  have result := route_result now c r connection h
  generalize route now c r connection h = routed at result ⊢
  obtain ⟨routed, after⟩ := routed
  cases result with
  | told _ _ => exact .refl _
  | queued _ _ _ taken => exact .pushed taken rfl
  | turnedAway _ => exact .same rfl rfl
  | parked taken => exact .pushed taken rfl
  | opened _ finds =>
    refine (abides_finds finds).trans (.apart rfl rfl fun event member => ?_)
    simp only [openingNotices, List.mem_append, List.mem_map, List.mem_singleton] at member
    obtain ⟨_, _, rfl⟩ | rfl := member <;> rfl
  | closed _ _ _ _ => exact .apart rfl rfl fun event member => by rw [List.mem_singleton.mp member]; rfl

end Route

/-- No action of a connection turns the server on or off. -/
theorem Hub.abides_law : Hub.Law (fun _ => True) Hub.Abides where
  refl := .refl
  trans := .trans
  route now c r connection h _ := Route.abides_route now c r connection h
  fail connection session failed outbox h := by
    rw [failStream_eq]
    exact .apart rfl rfl (by simp [Event.turn?])
  ending connection session h := by
    rw [endStream_eq]
    exact .apart rfl rfl (by simp [Event.turn?])
  touch _ _ _ := .same rfl rfl
  receive _ _ := .same rfl rfl
  collect _ _ := .same rfl rfl

namespace Tick
variable (registry : Tool.Registry) (now : Int)

theorem abides_announce (a : Dispatch.Answer) (h : Hub) : h.Abides (announce a h) := by
  obtain ⟨news, announced, told⟩ := announce_eq a h
  rw [announced]
  exact .apart rfl rfl fun event member => by obtain ⟨_, rfl⟩ := told event member; rfl

theorem abides_hand (p : Queue.Pending) (a : Dispatch.Answer) (h : Hub) : h.Abides (hand p a h) := by
  unfold hand
  split
  · exact .same rfl rfl
  · split
    · exact .same rfl rfl
    · exact .refl h

theorem abides_process (p : Queue.Pending) (h : Hub) : h.Abides (process registry now p h) := by
  have performed : h.Abides (perform registry now p h).2 := hub_perform registry now p h ▸ .same rfl rfl
  rw [process_eq]
  exact (performed.trans (abides_announce _ _)).trans (abides_hand p _ _)

theorem abides_tick (h : Hub) : h.Abides (tick registry now h).2 := by
  let batch := h.queue.take (max 1 h.config.maxRequestsPerTick)
  have taken : h.Abides { h with queue := batch.2 } :=
    ⟨rfl, rfl, fun _ empty => by simp [batch, Queue.take, empty]⟩
  exact List.foldlRecOn batch.1 _ (motive := h.Abides) taken fun after held p _ =>
    held.trans (abides_process registry now p after)

/-- There is nothing to do for a tick. -/
theorem tick_empty {h : Hub} (empty : h.queue.items = []) : (tick registry now h).2 = h := by
  have taken : h.queue.take (max 1 h.config.maxRequestsPerTick) = ([], h.queue) := by
    simp [Queue.take, empty]
    rw [← empty]
  simp only [tick, taken, List.foldl_nil]

end Tick

theorem abides_perform (s : Server) {move : Move} (aside : ¬ move.Turns) : s.hub.Abides (s.perform move).hub := by
  by_cases sets : move.Sets
  · cases move <;> first | exact sets.elim | exact .same rfl rfl
  · exact Hub.abides_law.perform Tick.abides_tick Hub.abides_sweep s aside sets

theorem listener_perform (s : Server) {move : Move} (other : ¬ move.Turns) : (s.perform move).listener = s.listener := by
  cases move with
  | connect =>
    simp only [perform, connect]
    split <;> rfl
  | arrive | leave =>
    simp only [perform, modify]
    split <;> rfl
  | act | lapse | tick =>
    simp only [perform]
    split <;> simp only [apply]
  | attach =>
    simp only [perform, attach]
    split <;> rfl
  | sweep now =>
    -- The swept hub stands as a variable, or the kernel would evaluate the sweep.
    obtain ⟨hub, same⟩ : ∃ hub, s.perform (.sweep now) = { s with hub } := ⟨_, rfl⟩
    rw [same]
  | detach | setApiKey | setAllowedOrigins => rfl
  | start | stop => exact absurd trivial other

end ToolBridge.Server

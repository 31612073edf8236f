import Mathlib.Data.List.Infix
import ToolBridge.Proofs.StreamHistory

/-! Event ids of one stream. All that is ever put into its outbox, at once when it opens or reply by
reply, is numbered without gaps from where the client resumed, whatever else happens to the registry.
When the ids are used up the stream ends, and replies wait. -/

namespace ToolBridge.Stream
open EventStream (Frame)

theorem id_numbered {last index : Nat} {waiting : List String} {frame : Frame}
    (found : (numbered last waiting)[index]? = some frame) : frame.id = some ((last + index + 1 : Nat) : Int) := by
  induction waiting generalizing last index with
  | nil => simp [numbered] at found
  | cons data rest ih =>
    cases index with
    | zero =>
      simp only [numbered, List.getElem?_cons_zero, Option.some.injEq] at found
      subst found
      rfl
    | succ index =>
      simp only [numbered, List.getElem?_cons_succ] at found
      rw [ih found]
      congr 2
      omega

namespace Registry
variable {r : Registry}

/-! ## Delivering to a session without a stream -/

/-- Replies for a session that has no stream wait, and nothing else happens. -/
theorem deliver_idle {session : String} (idle : r.stream? session = none) (data : String) :
    (r.deliver session data).1 = .buffered ∧ (r.deliver session data).2 = r.buffer session data := by
  rcases r.deliver_cases session data with ⟨connection, c, ⟨seen, open_, _⟩, _⟩ | ⟨_, result, same⟩
  · simp [stream?, seen, open_] at idle
  · exact ⟨result, by rw [same, withoutStream_idle r idle]⟩

def deliverAll (session : String) (r : Registry) (replies : List String) : Registry :=
  replies.foldl (fun r data => (r.deliver session data).2) r

theorem deliverAll_idle {session : String} (idle : r.stream? session = none) (replies : List String) :
    (r.deliverAll session replies).pendingOf session = r.pendingOf session ++ replies ∧
      (r.deliverAll session replies).stream? session = none ∧
      (r.deliverAll session replies).connections = r.connections ∧
      (r.deliverAll session replies).outboxes = r.outboxes := by
  induction replies generalizing r with
  | nil => exact ⟨(List.append_nil _).symm, idle, rfl, rfl⟩
  | cons data rest ih =>
    have first : r.deliverAll session (data :: rest) = (r.buffer session data).deliverAll session rest := by
      rw [deliverAll, List.foldl_cons, (deliver_idle idle data).2]
      rfl
    obtain ⟨pending, stays, connections, outboxes⟩ := ih (r := r.buffer session data) idle
    rw [first]
    refine ⟨?_, stays, connections, outboxes⟩
    rw [pending, buffer, pendingOf_setPending, if_pos rfl, List.append_assoc, List.singleton_append]

theorem find?_idle {session : String} (idle : r.stream? session = none) : r.find? session = none := by
  unfold find?
  cases seen : r.current.get? session with
  | none => rfl
  | some connection =>
    have absent : r.connections.get? connection = none := by simpa [stream?, seen] using idle
    simp [absent]

/-- What is left of a stream that was not able to take a reply. -/
structure Ended (session : String) (connection box : Nat) (r : Registry) : Prop where
  connections : r.connections.get? connection = none
  stream : r.find? session = none
  fed : ¬ r.outboxes.Fed box

/-- A stream without event ids ends with the next reply, which waits with all that follow. -/
theorem deliverAll_spent {session : String} {connection : Nat} {c : Connection}
    (seen : r.current.get? session = some connection) (open_ : r.connections.get? connection = some c)
    (spent : lastId ≤ c.last) (data : String) (more : List String) :
    (r.deliver session data).1 = .buffered ∧
      (r.deliverAll session (data :: more)).pendingOf session = r.pendingOf session ++ data :: more ∧
      (r.deliverAll session (data :: more)).Ended session connection c.outbox := by
  rcases r.deliver_cases session data with ⟨other, d, ⟨again, found, below, _⟩, _⟩ | ⟨_, result, same⟩
  · obtain rfl : connection = other := Option.some.inj (seen.symm.trans again)
    obtain rfl : c = d := Option.some.inj (open_.symm.trans found)
    omega
  · have removed : r.withoutStream session = (r.remove connection).2 := by simp only [withoutStream, seen]
    have first : r.deliverAll session (data :: more) =
        ((r.remove connection).2.buffer session data).deliverAll session more := by
      rw [deliverAll, List.foldl_cons, same, removed]
      rfl
    have idle : ((r.remove connection).2.buffer session data).stream? session = none :=
      removed ▸ r.stream?_withoutStream session
    obtain ⟨pending, stays, connections, outboxes⟩ := deliverAll_idle idle more
    rw [first]
    refine ⟨result, ?_, ?_, find?_idle stays, ?_⟩
    · rw [pending, ← removed, pendingOf_buffered, if_pos rfl, List.append_assoc, List.singleton_append]
    · rw [connections]
      exact (r.connections_remove connection connection).trans (if_pos rfl)
    · rw [outboxes]
      change ¬ (r.remove connection).2.outboxes.Fed c.outbox
      simp only [remove, open_]
      exact Outboxes.fed_endFeed r.outboxes c.outbox

end Registry

namespace World
variable {w : World}

/-! ## What goes into an outbox -/

/-- What an action adds at the end of an outbox. -/
def added (box : Nat) (w : World) (action : Action) : List Frame :=
  ((w.step action).registry.outboxes.frames box).drop (w.registry.outboxes.frames box).length

def placed (box : Nat) (w : World) : List Action → List Frame
  | [] => []
  | action :: rest => w.added box action ++ placed box (w.step action) rest

/-- Nothing is added to the outbox, and no connection gets hold of it. -/
structure Quiet (box : Nat) (before after : World) : Prop where
  frames : after.registry.outboxes.frames box <:+ before.registry.outboxes.frames box
  connections : ∀ connection c, after.registry.connections.get? connection = some c → c.outbox = box →
    before.registry.connections.get? connection = some c

theorem Quiet.of_reduced {box : Nat} {after : World} (reduced : Reduced w after) : Quiet box w after := by
  refine ⟨?_, fun connection c found _ => reduced.connections connection c found⟩
  rcases reduced.frames box with same | empty
  · rw [same]
  · rw [empty]
    exact List.nil_suffix

theorem Quiet.added {box : Nat} {action : Action} (quiet : Quiet box w (w.step action)) :
    w.added box action = [] :=
  List.drop_eq_nil_of_le quiet.frames.length_le

private theorem stepRegister_quiet (connection : Nat) (session : String) (resume : Option Int) {box : Nat}
    (inside : box ≤ w.registry.outboxes.made) : Quiet box w (w.stepRegister connection session resume) := by
  obtain ⟨_, _, opened⟩ := w.stepRegister_opened connection session resume
  constructor
  · rw [opened.frames, if_neg (by omega)]
  · intro number c found same
    rw [opened.connections] at found
    split at found
    · cases found
      dsimp only at same
      omega
    · split at found
      · cases found
      · exact found

private theorem stepFail_quiet (connection : Nat) (failed : Option Frame) (outbox box : Nat) :
    Quiet box w (w.stepFail connection failed outbox) := by
  constructor
  · cases open_ : w.registry.connections.get? connection with
    | none =>
      rw [w.stepFail_absent failed outbox open_]
    | some c =>
      rw [(w.stepFail_failed failed outbox open_).frames]
      split
      · exact List.nil_suffix
      · exact List.suffix_rfl
  · intro number c found _
    rw [connections_stepFail] at found
    split at found
    · cases found
    · exact found

private theorem stepReceive_quiet (outbox box : Nat) : Quiet box w (w.stepReceive outbox) := by
  refine ⟨?_, fun _ _ found _ => found⟩
  change (w.registry.outboxes.receive outbox).2.frames box <:+ _
  rcases w.registry.outboxes.received outbox with ⟨frame, rest, waiting, _, _, frames⟩ | ⟨_, _, same⟩
  · rw [frames]
    split
    next here =>
      rw [here, waiting]
      exact List.suffix_cons frame rest
    next => exact List.suffix_rfl
  · rw [same]

/-- Only a delivery adds to an outbox that there is, and it adds one frame, under the next id of a
connection that holds the outbox. -/
theorem step_cases (action : Action) {box : Nat} (inside : box ≤ w.registry.outboxes.made) :
    Quiet box w (w.step action) ∨
    ∃ session data connection c, w.registry.Accepts session connection c ∧ c.outbox = box ∧
      w.registry.Streamed connection c data (w.step action).registry ∧
      w.added box action = [.message (c.last + 1) data] ∧ action = .deliver session data := by
  cases action with
  | register connection session resume => exact Or.inl (stepRegister_quiet connection session resume inside)
  | deliver session data =>
    rcases w.registry.deliver_cases session data with ⟨connection, c, accepts, _, streamed⟩ | ⟨_, _, same⟩
    · by_cases here : c.outbox = box
      · refine Or.inr ⟨session, data, connection, c, accepts, here, streamed, ?_, rfl⟩
        change ((w.registry.deliver session data).2.outboxes.frames box).drop _ = _
        rw [streamed.frames, if_pos here.symm, List.drop_left]
      · refine Or.inl ⟨?_, ?_⟩
        · change (w.registry.deliver session data).2.outboxes.frames box <:+ _
          rw [streamed.frames, if_neg (Ne.symm here)]
        · intro number d found holds
          change (w.registry.deliver session data).2.connections.get? number = some d at found
          rw [streamed.connections] at found
          split at found
          · cases found
            exact absurd holds here
          · exact found
    · refine Or.inl ⟨?_, ?_⟩
      · change (w.registry.deliver session data).2.outboxes.frames box <:+ _
        rw [same]
        exact (w.registry.frames_withoutStream session box) ▸ List.suffix_rfl
      · intro number d found _
        change (w.registry.deliver session data).2.connections.get? number = some d at found
        rw [same] at found
        exact w.registry.withoutStream_subset session number found
  | fail connection failed outbox => exact Or.inl (stepFail_quiet connection failed outbox box)
  | receive outbox => exact Or.inl (stepReceive_quiet outbox box)
  | _ => exact Or.inl (.of_reduced (step_reduced (by trivial)))

theorem made_step (action : Action) : w.registry.outboxes.made ≤ (w.step action).registry.outboxes.made := by
  cases action with
  | register connection session resume =>
    obtain ⟨_, _, opened⟩ := w.stepRegister_opened connection session resume
    exact opened.made ▸ Nat.le_succ _
  | _ => exact Nat.le_of_eq (step_narrowed _ (by simp)).made.symm

/-- The frames put into the outbox so far are numbered from `base`, and whoever holds it goes on from
there. -/
structure Counted (base box : Nat) (frames : List Frame) (w : World) : Prop where
  made : box ≤ w.registry.outboxes.made
  consecutive : frames = numbered base (frames.map (·.data))
  within : base + frames.length ≤ lastId
  holder : ∀ connection c, w.registry.connections.get? connection = some c → c.outbox = box →
    c.last = base + frames.length

namespace Counted
variable {base box : Nat} {frames : List Frame}

private theorem quiet_preserves (counted : Counted base box frames w) {action : Action}
    (quiet : Quiet box w (w.step action)) : Counted base box (frames ++ w.added box action) (w.step action) := by
  rw [quiet.added, List.append_nil]
  refine ⟨Nat.le_trans counted.made (made_step action), counted.consecutive, counted.within, ?_⟩
  exact fun connection c found same => counted.holder connection c (quiet.connections connection c found same) same

theorem step_preserves (counted : Counted base box frames w) (traced : w.Traced) (action : Action) :
    Counted base box (frames ++ w.added box action) (w.step action) := by
  rcases step_cases action counted.made with
    quiet | ⟨session, data, connection, c, ⟨_, open_, below, _⟩, here, streamed, added, _⟩
  · exact counted.quiet_preserves quiet
  · have last := counted.holder connection c open_ here
    rw [added]
    refine ⟨Nat.le_trans counted.made (made_step action), ?_, ?_, ?_⟩
    · rw [List.map_append, List.map_singleton, numbered_append, ← counted.consecutive, List.length_map, last]
      rfl
    · rw [List.length_append, List.length_singleton]
      omega
    · -- No other connection holds this outbox, so none is left behind.
      intro number d found holds
      rw [streamed.connections] at found
      rw [List.length_append, List.length_singleton]
      split at found
      · cases found
        dsimp only
        omega
      next different =>
        have owner := traced.owner (traced.opened number d found) (traced.opened connection c open_)
          (holds.trans here.symm)
        exact absurd (congrArg Opening.connection owner) different

theorem run_preserves (counted : Counted base box frames w) (traced : w.Traced) (actions : List Action) :
    Counted base box (frames ++ w.placed box actions) (w.run actions) := by
  induction actions generalizing w frames with
  | nil => simpa [placed, run] using counted
  | cons action rest ih =>
    rw [placed, ← List.append_assoc]
    exact ih (counted.step_preserves traced action) (traced.step_preserves action)

theorem opened (traced : w.Traced) (connection : Nat) (session : String) (resume : Option Int) :
    Counted (Registry.resumePoint resume) (w.registry.outboxes.made + 1)
      (w.added (w.registry.outboxes.made + 1) (.register connection session resume))
      (w.step (.register connection session resume)) := by
  obtain ⟨sent, left, opened⟩ := w.stepRegister_opened connection session resume
  have added : w.added (w.registry.outboxes.made + 1) (.register connection session resume) =
      numbered (Registry.resumePoint resume) sent := by
    change ((w.stepRegister connection session resume).registry.outboxes.frames _).drop _ = _
    rw [opened.frames, if_pos rfl, (traced.unused _ (Nat.lt_succ_self _)).1]
    rfl
  rw [added]
  refine ⟨Nat.le_of_eq opened.made.symm, ?_, ?_, ?_⟩
  · rw [numbered_data]
  · rw [length_numbered]
    exact opened.within
  · intro number c found holds
    change (w.stepRegister connection session resume).registry.connections.get? number = some c at found
    rw [length_numbered]
    rw [opened.connections] at found
    split at found
    · cases found
      rfl
    · split at found
      · cases found
      · have bound := traced.boxes _ (traced.opened number c found)
        dsimp only at bound
        omega

end Counted

end World

/-! ## One registration and what follows it -/

/-- A registration in the middle of a run. -/
structure Registering where
  before : List Action
  connection : Nat
  session : String
  resume : Option Int

namespace Registering

def world (s : Registering) : World := World.run {} s.before

def action (s : Registering) : Action := .register s.connection s.session s.resume

def box (s : Registering) : Nat := (s.world.registry.register s.connection s.session s.resume).1.outbox

/-- The id resumed after, if it is one that another can follow. -/
def base (s : Registering) : Nat := ((s.resume.filter fun id : Int => 0 ≤ id ∧ id < lastId).getD 0).toNat

def after (s : Registering) (later : List Action) : World := s.world.run (s.action :: later)

def placed (s : Registering) (later : List Action) : List Frame := s.world.placed s.box (s.action :: later)

theorem base_eq (s : Registering) : s.base = Registry.resumePoint s.resume := by
  unfold base Registry.resumePoint
  cases s.resume with
  | none => rfl
  | some id =>
    simp only [Option.filter, decide_eq_true_eq]
    split <;> rfl

theorem counted (s : Registering) (later : List Action) :
    World.Counted s.base s.box (s.placed later) (s.after later) := by
  obtain ⟨_, _, opened⟩ := s.world.registry.register_opened s.connection s.session s.resume
  have traced : s.world.Traced := .run_traced s.before
  rw [base_eq, box, opened.outbox, placed, box, opened.outbox]
  exact (World.Counted.opened traced s.connection s.session s.resume).run_preserves
    (traced.step_preserves s.action) later

/-- Whatever happens before and after a registration, the frames put into its outbox carry the ids after
the one resumed after, without gaps and never beyond the last. While the stream is open, the id told
is that of the next frame, and none is told just if all are used up; then replies wait, and the next
one ends the stream. -/
theorem ids_consecutive (s : Registering) (later : List Action) :
    s.placed later = numbered s.base ((s.placed later).map (·.data)) ∧
    s.base + (s.placed later).length ≤ lastId ∧
    ∀ c, (s.after later).registry.connections.get? s.connection = some c → c.outbox = s.box →
      ((s.after later).registry.nextEvent? s.connection = none ↔ s.base + (s.placed later).length = lastId) ∧
      (∀ more frame, (s.placed (later ++ more))[(s.placed later).length]? = some frame →
        frame.id = ((s.after later).registry.nextEvent? s.connection).map Int.ofNat) ∧
      (∀ session data event, ((s.after later).registry.deliver session data).1 = .streamed s.connection event →
        (s.after later).registry.nextEvent? s.connection = some event) ∧
      ((s.after later).registry.nextEvent? s.connection = none →
        ∀ session, (s.after later).registry.current.get? session = some s.connection → ∀ data more,
          ((s.after later).registry.deliver session data).1 = .buffered ∧
          ((s.after later).registry.deliverAll session (data :: more)).pendingOf session =
            (s.after later).registry.pendingOf session ++ data :: more ∧
          ((s.after later).registry.deliverAll session (data :: more)).Ended session s.connection s.box) := by
  have counted := s.counted later
  refine ⟨counted.consecutive, counted.within, ?_⟩
  intro c open_ holds
  have last := counted.holder s.connection c open_ holds
  have next : (s.after later).registry.nextEvent? s.connection =
      if c.last < lastId then some (c.last + 1) else none := by
    simp [Registry.nextEvent?, open_]
  have within := counted.within
  refine ⟨?_, ?_, ?_, ?_⟩
  · rw [next]
    split
    · simp
      omega
    · simp
      omega
  · intro more frame found
    have whole := s.counted (later ++ more)
    rw [whole.consecutive] at found
    have id_ := id_numbered found
    have bound := (List.getElem?_eq_some_iff.mp found).1
    rw [length_numbered, List.length_map] at bound
    have room := whole.within
    rw [next, if_pos (by omega), id_, last]
    rfl
  · intro session data event streamed
    rcases (s.after later).registry.deliver_cases session data with
      ⟨connection, d, ⟨_, found, below, _⟩, result, _⟩ | ⟨_, result, _⟩
    · rw [result] at streamed
      cases streamed
      obtain rfl : c = d := Option.some.inj (open_.symm.trans found)
      rw [next, if_pos below]
    · rw [result] at streamed
      cases streamed
  · intro told session seen data more
    have spent : lastId ≤ c.last := by
      rw [next] at told
      simpa using told
    rw [← holds]
    exact Registry.deliverAll_spent seen open_ spent data more

/-- A stream that is opened two ids before the last, with one reply waiting for it. -/
private def nearlySpent : Registering := ⟨[.deliver "s" "a"], 1, "s", some 2147483645⟩

theorem ids_consecutive_nearlySpent :
    nearlySpent.placed [.deliver "s" "b"] = [.message 2147483646 "a", .message 2147483647 "b"] ∧
      ((nearlySpent.after [.deliver "s" "b"]).registry.deliver "s" "c").1 = .buffered ∧
      ((nearlySpent.after [.deliver "s" "b"]).registry.deliverAll "s" ["c", "d"]).Ended "s" 1 nearlySpent.box := by
  obtain ⟨numbered_, _, told⟩ := ids_consecutive nearlySpent [.deliver "s" "b"]
  have data : (nearlySpent.placed [.deliver "s" "b"]).map (·.data) = ["a", "b"] := by decide
  obtain ⟨spent, _, _, ends⟩ := told { session := "s", last := lastId, outbox := nearlySpent.box } (by decide) rfl
  obtain ⟨buffered, _, ended⟩ := ends (spent.mpr (by decide)) "s" (by decide) "c" ["d"]
  refine ⟨?_, buffered, ended⟩
  rw [numbered_, data]
  decide

end Registering

end ToolBridge.Stream

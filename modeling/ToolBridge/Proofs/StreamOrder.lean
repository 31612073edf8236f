import Mathlib.Data.List.Basic
import ToolBridge.Proofs.StreamHistory

/-! Replies of a session pass through its streams and its buffer exactly once and in order. The open
stream is the newest one, and nothing waits beside it while it has event ids left; so a reply goes
behind all earlier ones, and what a failed writer leaves goes back in front of all later ones. -/

namespace ToolBridge.Stream.World
open EventStream (Frame)

/-- The frames that the writer of an outbox has taken and not handed back. -/
def written (outbox : Nat) (w : World) : List Frame :=
  match w.returned outbox with
  | some _ => (w.taken outbox).dropLast
  | none => w.taken outbox

/-- The data that went into an outbox and stayed: what was written, then what still waits. -/
def passed (outbox : Nat) (w : World) : List String :=
  (w.written outbox ++ w.registry.outboxes.frames outbox).map (·.data)

theorem passed_congr {first last : World} {outbox : Nat} (taken : last.taken outbox = first.taken outbox)
    (returned : last.returned outbox = first.returned outbox)
    (frames : last.registry.outboxes.frames outbox = first.registry.outboxes.frames outbox) :
    last.passed outbox = first.passed outbox := by
  simp only [passed, written, taken, returned, frames]

/-- Actions that leave the session open, under fresh connections and with writers that hold on to
their outboxes and give up once, with the frame they took last or with none. -/
def Undisturbed (session : String) (w : World) : Action → Prop
  | .register connection _ _ => ∀ opening ∈ w.openings, opening.connection ≠ connection
  | .deliver _ _ | .unregister _ | .receive _ => True
  | .fail connection failed outbox =>
    (w.registry.connections.get? connection).map (·.outbox) = some outbox ∧
      (failed = none ∨ failed = (w.taken outbox).getLast?)
  | .closeSession other | .discardPending other => other ≠ session
  | .letGo _ | .closeAll => False

instance (session : String) (w : World) : (action : Action) → Decidable (w.Undisturbed session action)
  | .register connection _ _ => inferInstanceAs (Decidable (∀ opening ∈ w.openings, opening.connection ≠ connection))
  | .deliver .. | .unregister _ | .receive _ => instDecidableTrue
  | .fail _ failed _ => inferInstanceAs (Decidable (_ = _ ∧ (failed = none ∨ failed = _)))
  | .closeSession other | .discardPending other => inferInstanceAs (Decidable (other ≠ session))
  | .letGo _ | .closeAll => instDecidableFalse

theorem Recorded.undisturbed {w : World} (recorded : w.Recorded) {session : String} {action : Action}
    (permitted : w.Undisturbed session action) : w.Sound action := by
  cases action with
  | register connection other resume => exact recorded.free_of_fresh permitted other
  | _ => trivial

/-- Everything delivered for the session is in one place, in order. -/
def Balanced (session : String) (w : World) : Prop :=
  (w.openingsOf session).flatMap (fun opening => w.passed opening.outbox) ++ w.registry.pendingOf session =
    w.delivered session

/-- The outbox is empty, and nothing feeds it any more. -/
def Spent (w : World) (outbox : Nat) : Prop :=
  outbox ≤ w.registry.outboxes.made ∧ w.registry.outboxes.frames outbox = [] ∧
    ∀ connection c, w.registry.connections.get? connection = some c → c.outbox ≠ outbox

structure Orderly (session : String) (w : World) : Prop where
  recorded : w.Recorded
  returned : ∀ outbox, w.returned outbox ≠ none → w.Spent outbox
  balanced : w.Balanced session

namespace Orderly
variable {w : World} {session : String}

theorem initial : Orderly session {} :=
  ⟨.initial, by simp, rfl⟩

private theorem still (orderly : w.Orderly session) {after : World}
    (openings : after.openingsOf session = w.openingsOf session)
    (passed : ∀ opening ∈ w.openingsOf session, after.passed opening.outbox = w.passed opening.outbox)
    (pending : after.registry.pendingOf session = w.registry.pendingOf session)
    (delivered : after.delivered session = w.delivered session) : after.Balanced session := by
  rw [Balanced, openings, pending, delivered, List.flatMap_congr passed]
  exact orderly.balanced

private theorem elsewhere (orderly : w.Orderly session) {connection : Nat} {c : Connection}
    (open_ : w.registry.connections.get? connection = some c) (different : c.session ≠ session)
    {opening : Opening} (member : opening ∈ w.openingsOf session) : opening.outbox ≠ c.outbox := by
  intro same
  obtain ⟨inside, belongs⟩ := mem_openingsOf.mp member
  have owner := orderly.recorded.owner inside (orderly.recorded.opened _ _ open_) same
  exact different (by rw [← belongs, owner])

private theorem earlier_elsewhere (orderly : w.Orderly session) {newest : Opening} {earlier : List Opening}
    (shape : w.openingsOf session = earlier ++ [newest]) :
    ∀ opening ∈ earlier, opening.outbox ≠ newest.outbox := by
  have distinct : ((w.openingsOf session).map (·.outbox)).Nodup :=
    orderly.recorded.distinct.sublist (List.filter_sublist.map _)
  rw [shape, List.map_append, List.nodup_append] at distinct
  intro opening member
  exact distinct.2.2 _ (List.mem_map.mpr ⟨opening, member, rfl⟩) _ (by simp)

/-- What changes in the newest stream of the session changes at the end of its streams. -/
private theorem newest_changes (orderly : w.Orderly session) {after : World} {newest : Opening}
    {earlier : List Opening} (shape : w.openingsOf session = earlier ++ [newest])
    (passed : ∀ outbox, outbox ≠ newest.outbox → after.passed outbox = w.passed outbox)
    (openings : after.openings = w.openings) :
    (after.openingsOf session).flatMap (fun opening => after.passed opening.outbox) =
      earlier.flatMap (fun opening => w.passed opening.outbox) ++ after.passed newest.outbox := by
  have same : ∀ opening ∈ earlier, after.passed opening.outbox = w.passed opening.outbox := by
    intro opening member
    apply passed
    exact orderly.earlier_elsewhere shape opening member
  rw [openingsOf, openings, ← openingsOf, shape, List.flatMap_append, List.flatMap_congr same]
  simp

private theorem stepRegister_balanced (orderly : w.Orderly session) (connection : Nat) (other : String)
    (resume : Option Int) : (w.stepRegister connection other resume).Balanced session := by
  obtain ⟨sent, left, opened⟩ := w.stepRegister_opened connection other resume
  have kept : ∀ opening ∈ w.openingsOf session,
      (w.stepRegister connection other resume).passed opening.outbox = w.passed opening.outbox := by
    intro opening member
    have inside := orderly.recorded.boxes opening (mem_openingsOf.mp member).1
    refine passed_congr rfl rfl ?_
    rw [opened.frames, if_neg (by omega)]
  by_cases same : session = other
  · subst same
    -- The new outbox begins with what waited, and what is left waits on behind it.
    have fresh : (w.stepRegister connection session resume).passed (w.registry.outboxes.made + 1) = sent := by
      have untaken : (w.stepRegister connection session resume).taken (w.registry.outboxes.made + 1) = [] :=
        (orderly.recorded.unused _ (Nat.lt_succ_self _)).2
      have unwritten : (w.stepRegister connection session resume).written (w.registry.outboxes.made + 1) = [] := by
        rw [written, untaken]
        split <;> rfl
      rw [passed, unwritten, opened.frames, if_pos rfl, List.nil_append, numbered_data]
    rw [Balanced, openingsOf_opened, List.flatMap_append, List.flatMap_congr kept, opened.pendingOf, if_pos rfl]
    simp only [List.flatMap_cons, List.flatMap_nil, List.append_nil, fresh, List.append_assoc]
    rw [← opened.divided]
    exact orderly.balanced
  · refine orderly.still (openingsOf_beside _ _ same) kept ?_ rfl
    rw [opened.pendingOf, if_neg same]

/-- A reply that a stream takes goes behind all that passed the session's streams, and none waits. -/
private theorem carries_balanced (orderly : w.Orderly session) {other data : String} {connection : Nat} {c : Connection}
    (carries : w.Carries other data connection c) : (w.stepDeliver other data).Balanced session := by
  have kept : ∀ outbox, outbox ≠ c.outbox → (w.stepDeliver other data).passed outbox = w.passed outbox :=
    fun outbox beside => passed_congr rfl rfl (carries.frames_beside beside)
  by_cases same : session = other
  · subst same
    have grown : (w.stepDeliver session data).passed c.outbox = w.passed c.outbox ++ [data] := by
      rw [passed, carries.frames_own, ← List.append_assoc, List.map_append]
      rfl
    obtain ⟨earlier, shape⟩ := orderly.recorded.newest connection c carries.open_
    rw [carries.belongs] at shape
    have balanced := orderly.balanced
    rw [Balanced, shape, carries.idle, List.flatMap_append] at balanced
    rw [Balanced, orderly.newest_changes shape kept rfl, carries.pending, carries.idle, grown]
    simp only [List.flatMap_cons, List.flatMap_nil, List.append_nil] at balanced ⊢
    rw [← List.append_assoc, balanced]
    simp [stepDeliver]
  · refine orderly.still rfl ?_ (carries.pending session) ?_
    · intro opening member
      exact kept _ (orderly.elsewhere carries.open_ (fun equal => same (equal.symm.trans carries.belongs)) member)
    · simp [stepDeliver, same]

private theorem shelves_balanced (orderly : w.Orderly session) {other data : String} (shelves : w.Shelves other data) :
    (w.stepDeliver other data).Balanced session := by
  have kept : ∀ outbox, (w.stepDeliver other data).passed outbox = w.passed outbox :=
    fun outbox => passed_congr rfl rfl (shelves.frames outbox)
  by_cases same : session = other
  · subst same
    have balanced := orderly.balanced
    rw [Balanced] at balanced ⊢
    simp only [kept, shelves.pending, if_true, ← List.append_assoc]
    change (w.openingsOf session).flatMap _ ++ _ ++ [data] = _
    rw [balanced]
    simp [stepDeliver]
  · refine orderly.still rfl (fun opening _ => kept opening.outbox) ?_ ?_
    · rw [shelves.pending, if_neg same]
    · simp [stepDeliver, same]

private theorem stepDeliver_balanced (orderly : w.Orderly session) (other data : String) :
    (w.stepDeliver other data).Balanced session := by
  rcases orderly.recorded.carries_or_shelves other data with ⟨_, _, carries⟩ | shelves
  · exact orderly.carries_balanced carries
  · exact orderly.shelves_balanced shelves

private theorem unreturned (orderly : w.Orderly session) {connection : Nat} {c : Connection}
    (open_ : w.registry.connections.get? connection = some c) : w.returned c.outbox = none := by
  apply Classical.byContradiction
  intro given
  exact (orderly.returned c.outbox given).2.2 connection c open_ rfl

private theorem replies_messages {frames : List Frame} (messages : ∀ frame ∈ frames, frame.event = some "message") :
    Registry.replies frames = frames.map (·.data) := by
  rw [Registry.replies, List.filter_eq_self.mpr]
  simpa using messages

/-- Handing back the frame taken last, and all that still waits, moves them and loses none. -/
private theorem handed_back {taken frames : List Frame} {failed : Option Frame}
    (last : failed = none ∨ failed = taken.getLast?)
    (messages : ∀ frame ∈ taken ++ frames, frame.event = some "message") :
    (match failed with | some _ => taken.dropLast | none => taken).map Frame.data ++
      Registry.replies (failed.toList ++ frames) = (taken ++ frames).map Frame.data := by
  cases failed with
  | none =>
    have waiting : ∀ frame ∈ frames, frame.event = some "message" :=
      fun frame inside => messages frame (List.mem_append_right _ inside)
    simp only [Option.toList_none, List.nil_append, replies_messages waiting, List.map_append]
  | some frame =>
    have final : taken.getLast? = some frame := by simpa [eq_comm] using last
    have whole := List.dropLast_append_getLast? frame final
    rw [replies_messages]
    · rw [← List.map_append, ← List.append_assoc]
      simp only [Option.toList_some, whole]
    · intro other inside
      rcases List.mem_append.mp inside with given | waiting
      · have member : other ∈ taken := by
          rw [← whole]
          exact List.mem_append_right _ given
        exact messages other (List.mem_append_left _ member)
      · exact messages other (List.mem_append_right _ waiting)

private theorem stepFail_balanced (orderly : w.Orderly session) {connection : Nat} {c : Connection}
    (failed : Option Frame) (open_ : w.registry.connections.get? connection = some c)
    (last : failed = none ∨ failed = (w.taken c.outbox).getLast?) :
    (w.stepFail connection failed c.outbox).Balanced session := by
  have gone := w.stepFail_failed failed c.outbox open_
  have kept : ∀ outbox, outbox ≠ c.outbox →
      (w.stepFail connection failed c.outbox).passed outbox = w.passed outbox := by
    intro outbox different
    refine passed_congr rfl ?_ ?_
    · simp [stepFail, different]
    · rw [gone.frames, if_neg different]
  by_cases same : session = c.session
  · subst same
    have emptied : (w.stepFail connection failed c.outbox).passed c.outbox ++
        Registry.replies (failed.toList ++ w.registry.outboxes.frames c.outbox) = w.passed c.outbox := by
      have none_ := orderly.unreturned open_
      have messages := orderly.recorded.messages c.outbox
      have back := handed_back last messages
      simp only [passed, written, none_]
      rw [← back]
      rw [gone.frames, if_pos rfl]
      simp [stepFail]
    obtain ⟨earlier, shape⟩ := orderly.recorded.newest connection c open_
    have balanced := orderly.balanced
    rw [Balanced, shape, List.flatMap_append] at balanced
    rw [Balanced, orderly.newest_changes shape kept rfl, gone.pendingOf, if_pos rfl]
    simp only [List.flatMap_cons, List.flatMap_nil, List.append_nil] at balanced
    rw [← emptied] at balanced
    rw [← List.append_assoc, List.append_assoc _ _ (Registry.replies _)]
    exact balanced
  · refine orderly.still rfl ?_ ?_ rfl
    · intro opening member
      exact kept _ (orderly.elsewhere open_ (Ne.symm same) member)
    · rw [gone.pendingOf, if_neg same]

private theorem stepReceive_passed (orderly : w.Orderly session) (outbox other : Nat) :
    (w.stepReceive outbox).passed other = w.passed other := by
  rcases w.registry.outboxes.received outbox with ⟨frame, rest, waiting, found, _, frames⟩ | ⟨_, found, same⟩
  · have none_ : w.returned outbox = none := by
      apply Classical.byContradiction
      intro given
      simpa [waiting] using (orderly.returned outbox given).2.1
    by_cases mine : other = outbox
    · subst mine
      have taken : (w.stepReceive other).taken other = w.taken other ++ [frame] := by
        simp [stepReceive, found]
      have moved : (w.stepReceive other).registry.outboxes.frames other = rest := by
        change (w.registry.outboxes.receive other).2.frames other = rest
        rw [frames, if_pos rfl]
      have kept : (w.stepReceive other).returned other = none := none_
      simp only [passed, written, kept, none_, taken, moved, waiting]
      simp
    · refine passed_congr ?_ rfl ?_
      · simp [stepReceive, found, mine]
      · change (w.registry.outboxes.receive outbox).2.frames other = _
        rw [frames, if_neg mine]
  · refine passed_congr ?_ rfl ?_
    · simp only [stepReceive]
    · change (w.registry.outboxes.receive outbox).2.frames other = _
      rw [same]

theorem step_balanced (orderly : w.Orderly session) (action : Action)
    (permitted : w.Undisturbed session action) : (w.step action).Balanced session := by
  cases action with
  | register connection other resume => exact orderly.stepRegister_balanced connection other resume
  | deliver other data => exact orderly.stepDeliver_balanced other data
  | fail connection failed outbox =>
    obtain ⟨given, last⟩ := permitted
    obtain ⟨c, open_, rfl⟩ := Option.map_eq_some_iff.mp given
    exact orderly.stepFail_balanced failed open_ last
  | receive outbox =>
    exact orderly.still rfl (fun opening _ => orderly.stepReceive_passed outbox opening.outbox) rfl rfl
  | unregister connection =>
    refine orderly.still rfl ?_ (Registry.pendingOf_congr (Registry.pending_remove ..) session) rfl
    exact fun opening _ => passed_congr rfl rfl (Registry.frames_remove ..)
  | closeSession other =>
    have after := w.registry.closeSession_after other
    refine orderly.still rfl ?_ ?_ rfl
    · intro opening _
      refine passed_congr rfl rfl ?_
      change (w.registry.closeSession other).2.outboxes.frames opening.outbox = _
      rw [after, Registry.frames_withoutStream]
      rfl
    · change (w.registry.closeSession other).2.pendingOf session = _
      rw [after, Registry.pendingOf_congr (Registry.pending_withoutStream ..), Registry.pendingOf_setPending,
        if_neg (Ne.symm permitted)]
  | discardPending other =>
    refine orderly.still rfl (fun opening _ => passed_congr rfl rfl rfl) ?_ rfl
    exact (Registry.pendingOf_setPending ..).trans (if_neg (Ne.symm permitted))
  | letGo _ | closeAll => exact permitted.elim

private theorem narrowed_spent {after : World} (narrowed : Narrowed w after) {outbox : Nat}
    (spent : w.Spent outbox) : after.Spent outbox := by
  obtain ⟨inside, empty, unused⟩ := spent
  refine ⟨narrowed.made ▸ inside, ?_, ?_⟩
  · apply List.eq_nil_iff_forall_not_mem.mpr
    intro frame member
    rcases narrowed.frames outbox frame member with old | ⟨_, number, c, open_, same⟩
    · simp [empty] at old
    · exact unused number c open_ same
  · intro number c found
    obtain ⟨d, old, _, same⟩ := narrowed.connections number c found
    exact same ▸ unused number d old

private theorem stepRegister_spent (orderly : w.Orderly session) (connection : Nat) (other : String)
    (resume : Option Int) {outbox : Nat} (spent : w.Spent outbox) :
    (w.stepRegister connection other resume).Spent outbox := by
  obtain ⟨inside, empty, unused⟩ := spent
  obtain ⟨sent, left, opened⟩ := w.stepRegister_opened connection other resume
  rw [Spent, opened.made, opened.frames, if_neg (by omega)]
  refine ⟨by omega, empty, ?_⟩
  intro number c found
  rcases orderly.recorded.consistent.open_after opened found with ⟨_, rfl⟩ | ⟨_, old, _⟩
  · dsimp only
    omega
  · exact unused number c old

private theorem stepFail_spent (orderly : w.Orderly session) {connection : Nat} {c : Connection}
    (failed : Option Frame) (open_ : w.registry.connections.get? connection = some c) :
    (w.stepFail connection failed c.outbox).Spent c.outbox := by
  have gone := w.stepFail_failed failed c.outbox open_
  refine ⟨?_, ?_, ?_⟩
  · rw [gone.made]
    exact orderly.recorded.consistent.boxes connection c open_
  · rw [gone.frames, if_pos rfl]
  · -- A second connection with this outbox would be the very one that was taken out.
    intro number d found same
    rw [connections_stepFail] at found
    split at found
    · cases found
    next different =>
      have owner := orderly.recorded.owner (orderly.recorded.opened _ _ found) (orderly.recorded.opened _ _ open_) same
      exact different (congrArg Opening.connection owner)

theorem step_spent (orderly : w.Orderly session) (action : Action)
    (permitted : w.Undisturbed session action) (outbox : Nat) (given : (w.step action).returned outbox ≠ none) :
    (w.step action).Spent outbox := by
  cases action with
  | register connection other resume =>
    exact orderly.stepRegister_spent connection other resume (orderly.returned outbox given)
  | fail connection failed other =>
    obtain ⟨c, open_, rfl⟩ := Option.map_eq_some_iff.mp permitted.1
    by_cases mine : outbox = c.outbox
    · subst mine
      exact orderly.stepFail_spent failed open_
    · have earlier : w.returned outbox ≠ none := by simpa [step, stepFail, mine] using given
      exact narrowed_spent (stepFail_narrowed ..) (orderly.returned outbox earlier)
  | _ => exact narrowed_spent (step_narrowed _ (by simp)) (orderly.returned outbox given)

theorem step_preserves (orderly : w.Orderly session) (action : Action)
    (permitted : w.Undisturbed session action) : (w.step action).Orderly session :=
  ⟨orderly.recorded.step_preserves action (orderly.recorded.undisturbed permitted),
    orderly.step_spent action permitted, orderly.step_balanced action permitted⟩

end Orderly

/-- At every point of an undisturbed run, what passed through the streams of the session, in the order
in which they were opened, and what still waits for one is what was delivered for it, in order. -/
theorem exactly_once_in_order (session : String) (actions : List Action)
    (lawful : Lawful (Undisturbed session) {} actions) :
    (((run {} actions).openingsOf session).flatMap fun opening => (run {} actions).passed opening.outbox) ++
      (run {} actions).registry.pendingOf session = (run {} actions).delivered session := by
  have orderly : Orderly session (run {} actions) :=
    run_preserves (fun _ action held permitted => held.step_preserves action permitted) .initial lawful
  exact orderly.balanced

/-- Ids run out, the stream is opened again, and its writer fails with replies in its outbox. -/
private def reopened : List Action :=
  [.register 1 "s" (some 2147483645), .deliver "s" "a", .deliver "s" "b", .deliver "s" "c", .receive 1,
    .register 2 "s" none, .deliver "s" "d", .receive 2, .fail 2 (some (.message 1 "c")) 2]

theorem exactly_once_in_order_reopened :
    Lawful (Undisturbed "s") {} reopened ∧
      (((run {} reopened).openingsOf "s").flatMap fun opening => (run {} reopened).passed opening.outbox) ++
        (run {} reopened).registry.pendingOf "s" = ["a", "b", "c", "d"] :=
  have lawful : Lawful (Undisturbed "s") {} reopened := by decide
  ⟨lawful, (exactly_once_in_order "s" reopened lawful).trans (by decide)⟩

end ToolBridge.Stream.World

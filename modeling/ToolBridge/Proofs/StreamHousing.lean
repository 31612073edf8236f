import ToolBridge.Proofs.HubHistory

/-! Streams are open only for sessions that the table knows. A stream is opened for a known session, and what takes
a session out of the table ends its stream with it; a sweep then drops what waits for sessions that are gone. -/

namespace ToolBridge.Stream

namespace World
variable {w : World}

/-- Where no stream is opened, the open ones were open before, and none of their sessions was closed. -/
theorem run_open (recorded : w.Recorded) {actions : List Action}
    (unopened : ∀ connection session resume, .register connection session resume ∉ actions) {connection : Nat}
    {c : Connection} (open_ : (w.run actions).registry.connections.get? connection = some c) :
    (∃ d, w.registry.connections.get? connection = some d ∧ c.session = d.session) ∧
      .closeSession c.session ∉ actions := by
  induction actions generalizing w with
  | nil => exact ⟨⟨c, open_, rfl⟩, List.not_mem_nil⟩
  | cons action rest ih =>
    have other : ∀ connection session resume, action ≠ .register connection session resume := by
      rintro connection session resume rfl
      exact unopened connection session resume List.mem_cons_self
    have sound : w.Sound action := by
      cases action with
      | register connection session resume => exact absurd rfl (other connection session resume)
      | _ => trivial
    obtain ⟨⟨d, held, same⟩, unclosed⟩ := ih (recorded.step_preserves action sound)
      (fun connection session resume member => unopened connection session resume (List.mem_cons_of_mem _ member))
      open_
    obtain ⟨e, old, earlier, _⟩ := (step_narrowed action other).connections connection d held
    refine ⟨⟨e, old, same.trans earlier⟩, ?_⟩
    rw [List.mem_cons, not_or]
    refine ⟨?_, unclosed⟩
    rintro rfl
    have after : (w.step (.closeSession c.session)).registry = _ := w.registry.closeSession_after c.session
    rw [after] at held
    exact (recorded.consistent.setPending_preserves c.session [] (by simp)).streamless held same.symm

end World

end ToolBridge.Stream

namespace ToolBridge.Server

theorem Hub.pending_sweep (now : Int) (h : Hub) {session : String}
    (waits : (h.sweep now).streams.pendingOf session ≠ []) : (h.sweep now).sessions.contains session = true := by
  obtain ⟨replies, found⟩ : ∃ replies, (h.sweep now).streams.pending.get? session = some replies :=
    Option.ne_none_iff_exists'.mp fun absent => waits (by rw [Stream.Registry.pendingOf, absent]; rfl)
  have member := Entries.mem_of_get? found
  rw [h.pending_swept now] at member
  exact (List.mem_filter.mp member).2

theorem Tick.contains_perform {registry : Tool.Registry} {now : Int} {p : Queue.Pending} {h : Hub} {session : String}
    (known : h.sessions.contains session = true) :
    (perform registry now p h).2.sessions.contains session = true := by
  rw [hub_perform]
  unfold Dispatch.dispatch
  split
  · exact known
  next call _ =>
    change (Dispatch.answer registry h.info now call p.session h.sessions).2.contains session = true
    unfold Dispatch.answer
    cases Dispatch.Method.ofName call.method with
    | handshake => exact SessionTable.contains_ensure known
    | toolsList | toolsCall | ping | notification | unknown => exact known

theorem Route.Finds.known_session {now : Int} {r : Http.Request} {h found : Hub} {session : String}
    (finds : Finds now r h session found) : found.sessions.contains session = true := by
  cases finds with
  | known named known => exact contains_seen.trans known
  | minted unnamed => exact SessionTable.contains_create.mpr (Or.inr rfl)

theorem Route.Finds.keeps_known {now : Int} {r : Http.Request} {h found : Hub} {session other : String}
    (finds : Finds now r h session found) (known : h.sessions.contains other = true) :
    found.sessions.contains other = true := by
  cases finds with
  | known _ _ => exact contains_seen.trans known
  | minted _ => exact SessionTable.contains_create.mpr (Or.inl known)

theorem Route.sessions_route {now : Int} {c : Config} {r : Http.Request} {connection : Nat} {h : Hub}
    {session : String} (known : h.sessions.contains session = true)
    (unclosed : .closeSession session ∉ (route now c r connection h).1.actions r connection) :
    (route now c r connection h).2.sessions.contains session = true := by
  have result := route_result now c r connection h
  generalize route now c r connection h = routed at result unclosed ⊢
  obtain ⟨routed, after⟩ := routed
  cases result with
  | told => exact known
  | queued | turnedAway | parked => exact contains_seen.trans known
  | opened method finds => exact finds.keeps_known known
  | @closed closed response _ named _ method status =>
    refine SessionTable.contains_close.mpr ⟨known, ?_⟩
    rintro rfl
    simp [Routed.actions, method, status, named] at unclosed

namespace Deed
variable (h : Hub) (d : Desk) (deed : Deed)

/-- A session stays in the table unless its stream is closed with it. -/
theorem sessions_perform {session : String} (known : h.sessions.contains session = true)
    (unclosed : .closeSession session ∉ deed.actions h d) :
    (deed.perform h d).1.sessions.contains session = true := by
  cases deed with
  | serve now config r connection => exact Route.sessions_route known unclosed
  | touch now other => exact SessionTable.contains_touch.trans known
  | fail stream failed =>
    rw [perform, Hub.failStream_eq]
    exact known
  | unregister stream =>
    rw [perform, Hub.endStream_eq]
    exact known
  | sweep now =>
    rw [perform, (h.sweep_swept now).sessions]
    refine SessionTable.contains_sweep known fun expired => unclosed ?_
    exact List.mem_append_left _ (List.mem_map_of_mem expired)
  | dispatch registry now =>
    rw [perform]
    rcases d.dispatch_cases h registry now with ⟨w, _, _, _, _, _, _, same⟩ | same <;> rw [same]
    · dsimp only
      exact Tick.contains_perform known
    · exact known
  | check =>
    rw [perform]
    rcases d.check_cases h with ⟨_, _, _, _, _, _, same⟩ | ⟨_, _, _, same⟩ | same <;> rw [same] <;> exact known
  | deliver =>
    rw [perform]
    rcases d.deliver_cases h with ⟨_, _, _, _, same⟩ | ⟨_, same⟩ <;> rw [same] <;> exact known
  | refuse =>
    obtain ⟨slots, refused⟩ := Hub.refuseAll_eq h.queue.items { h with queue := h.queue.close.2 }
    rw [perform, refused]
    exact known
  | receive _ | take | configure _ | collect _ | reopen _ | closeAll | halt => exact known

/-- A stream is opened for a session that the table knows, and nothing else is done to the streams by then. -/
theorem opens_known {connection : Nat} {session : String} {resume : Option Int}
    (opens : .register connection session resume ∈ deed.actions h d) :
    deed.actions h d = [.register connection session resume] ∧
      (deed.perform h d).1.sessions.contains session = true := by
  cases deed with
  | serve now config r number =>
    have result := Route.route_result now config r number h
    simp only [actions, perform] at opens ⊢
    generalize Route.route now config r number h = routed at result opens ⊢
    obtain ⟨routed, after⟩ := routed
    cases result with
    | opened method finds =>
      obtain ⟨rfl, rfl, rfl⟩ : connection = number ∧ session = _ ∧ resume = _ := by
        simpa [Routed.actions] using opens
      exact ⟨rfl, finds.known_session⟩
    | told | queued | turnedAway | closed =>
      simp only [Routed.actions] at opens
      split at opens <;> simp at opens
    | parked => simp [Routed.actions] at opens
  | sweep now => simp [actions, Hub.sweepActions, Hub.sweptActions] at opens
  | deliver =>
    simp only [actions] at opens
    split at opens <;> simp at opens
  | _ => simp [actions] at opens

end Deed

namespace Chronicle
variable {c : Chronicle}

structure Housed (c : Chronicle) : Prop extends Faithful c where
  housed : ∀ connection stream, c.hub.streams.connections.get? connection = some stream →
    c.hub.sessions.contains stream.session = true

namespace Housed

theorem initial (config : Config) (info : ServerInfo) : (start config info).Housed :=
  ⟨.initial config info, by simp [start, Entries.get?]⟩

theorem step_preserves (housed : c.Housed) (deed : Deed) (fresh : c.Fresh deed) : (c.step deed).Housed := by
  have faithful := housed.toFaithful.step_preserves deed fresh
  refine ⟨faithful, ?_⟩
  intro connection stream open_
  rw [← faithful.mirrored] at open_
  have kept : ∀ session, c.hub.sessions.contains session = true → .closeSession session ∉ deed.actions c.hub c.desk →
      (c.step deed).hub.sessions.contains session = true :=
    fun session known unclosed => deed.sessions_perform c.hub c.desk known unclosed
  by_cases opens : ∃ number session resume, .register number session resume ∈ deed.actions c.hub c.desk
  · obtain ⟨number, session, resume, member⟩ := opens
    obtain ⟨alone, known⟩ := deed.opens_known c.hub c.desk member
    have registered : (c.step deed).streams = c.streams.stepRegister number session resume := by
      simp only [step, alone]
      rfl
    obtain ⟨sent, left, opened⟩ := c.streams.registry.register_opened number session resume
    rw [registered] at open_
    rcases housed.recorded.consistent.open_after opened open_ with ⟨_, rfl⟩ | ⟨_, old, _⟩
    · exact known
    · rw [housed.mirrored] at old
      exact kept _ (housed.housed connection stream old) (by simp [alone])
  · simp only [not_exists] at opens
    obtain ⟨⟨before, old, same⟩, unclosed⟩ := Stream.World.run_open housed.recorded opens open_
    rw [housed.mirrored] at old
    exact kept _ (same ▸ housed.housed connection before old) unclosed

end Housed

/-- However requests, writers, sweeps and the executor take turns, every open stream belongs to a session that
the table knows, so no reply goes to a stream whose session is gone; and after a sweep replies wait for known
sessions only. -/
theorem streams_housed (config : Config) (info : ServerInfo) (deeds : List Deed)
    (lawful : Lawful Fresh (start config info) deeds) :
    (∀ connection stream, ((start config info).run deeds).hub.streams.connections.get? connection = some stream →
      ((start config info).run deeds).hub.sessions.contains stream.session = true) ∧
    (∀ session data connection event,
      (((start config info).run deeds).hub.streams.deliver session data).1 = .streamed connection event →
        ((start config info).run deeds).hub.sessions.contains session = true) ∧
    ∀ now session, (((start config info).run deeds).step (.sweep now)).hub.streams.pendingOf session ≠ [] →
      (((start config info).run deeds).step (.sweep now)).hub.sessions.contains session = true := by
  have housed : ((start config info).run deeds).Housed :=
    run_preserves (fun _ deed held fresh => held.step_preserves deed fresh) (.initial config info) lawful
  refine ⟨housed.housed, ?_, fun now session waits => Hub.pending_sweep now _ waits⟩
  intro session data connection event streamed
  rcases Stream.Registry.deliver_cases _ session data with ⟨other, stream, accepts, _, _⟩ | ⟨_, buffered, _⟩
  · obtain ⟨seen, open_, _⟩ := accepts
    obtain ⟨again, found, rfl⟩ := housed.consistent.found seen
    exact housed.housed other again found
  · rw [buffered] at streamed
    cases streamed

private def first : String := "00000000000000000000000000000001"

private def subscribe : Http.Request :=
  { method := "GET", path := "/", version := "HTTP/1.1", headers := [("accept", "text/event-stream")] }

private def ask : Http.Request :=
  { method := "POST", path := "/", version := "HTTP/1.1", query := [("sessionId", first)]
    body := Text.utf8 "\x7b\"jsonrpc\":\"2.0\",\"id\":7,\"method\":\"ping\"\x7d" }

private def depart : Http.Request :=
  { method := "DELETE", path := "/", version := "HTTP/1.1", headers := [("mcp-session-id", first)] }

/-- The session is deleted after the executor has looked it up, and before the reply is delivered. -/
private def deletedMeanwhile : List Deed :=
  [.serve 0 {} subscribe 1, .serve 1 {} ask 2, .take, .dispatch ⟨.ok [], fun _ _ => .text ""⟩ 2, .check,
    .serve 3 {} depart 3, .deliver]

theorem streams_housed_deleted : Lawful Fresh (start {} {}) deletedMeanwhile ∧
    ((start {} {}).run deletedMeanwhile).hub.streams.pendingOf first =
      ["\x7b\"jsonrpc\":\"2.0\",\"id\":7,\"result\":\x7b\x7d\x7d"] ∧
    (((start {} {}).run deletedMeanwhile).step (.sweep 4)).hub.streams.pendingOf first = [] := by
  have lawful : Lawful Fresh (start {} {}) deletedMeanwhile := by decide +kernel
  have gone : (((start {} {}).run deletedMeanwhile).step (.sweep 4)).hub.sessions.contains first = false := by
    decide +kernel
  refine ⟨lawful, by decide +kernel, ?_⟩
  by_contra waits
  have known := (streams_housed {} {} deletedMeanwhile lawful).2.2 4 first waits
  rw [gone] at known
  cases known

end Chronicle

end ToolBridge.Server

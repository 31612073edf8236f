import ToolBridge.Proofs.HubHistory
import ToolBridge.Proofs.SessionTable

/-! What a sweep leaves behind. The sessions that have expired go, with their streams and all that waits for them, and
so does what waits for sessions that have gone before. The sessions that stay notice nothing. -/

namespace ToolBridge.Stream

namespace Registry
variable {r : Registry}

/-- The maps of a registry agree, and no two streams share an outbox. -/
structure Whole (r : Registry) : Prop extends Consistent r where
  unshared : ∀ first last c d, r.connections.get? first = some c → r.connections.get? last = some d →
    c.outbox = d.outbox → first = last

/-- Some sessions lose their streams and what waits for them. The streams of all others keep their counters and their
outboxes, and what waits for them waits in the same order. -/
structure Sheds (gone : List String) (before after : Registry) : Prop where
  connections : ∀ connection c, after.connections.get? connection = some c ↔
    before.connections.get? connection = some c ∧ c.session ∉ gone
  current : ∀ session, after.current.get? session = if session ∈ gone then none else before.current.get? session
  pending : after.pending = before.pending.filter fun entry => entry.1 ∉ gone
  boxes : ∀ connection c, after.connections.get? connection = some c →
    after.outboxes.boxes.get? c.outbox = before.outboxes.boxes.get? c.outbox

theorem Sheds.refl (r : Registry) : Sheds [] r r where
  connections connection c := by simp
  current session := by simp
  pending := by simp
  boxes _ _ _ := rfl

theorem Sheds.append {first last : List String} {before middle after : Registry} (earlier : Sheds first before middle)
    (later : Sheds last middle after) : Sheds (first ++ last) before after where
  connections connection c := by
    rw [later.connections, earlier.connections, and_assoc, List.mem_append, not_or]
  current session := by
    rw [later.current, earlier.current, ← ite_or]
    exact if_congr (or_comm.trans List.mem_append.symm) rfl rfl
  pending := by
    rw [later.pending, earlier.pending, List.filter_filter]
    exact List.filter_congr fun entry _ => by simp [Bool.and_comm]
  boxes connection c found := by
    rw [later.boxes connection c found, earlier.boxes connection c ((later.connections connection c).mp found).1]

namespace Consistent

theorem current_withoutStream (valid : r.Consistent) (session other : String) :
    (r.withoutStream session).current.get? other = if other = session then none else r.current.get? other := by
  unfold withoutStream
  split
  next connection seen =>
    rw [valid.current_remove]
    by_cases same : other = session
    · rw [if_pos same, if_pos (same ▸ seen)]
    · rw [if_neg same, ite_eq_right_iff]
      intro named
      obtain ⟨c, found, rfl⟩ := valid.found seen
      obtain ⟨d, again, rfl⟩ := valid.found named
      cases found.symm.trans again
      exact absurd rfl same
  next absent =>
    split
    next same => exact same ▸ absent
    next => rfl

/-- What is ended is the stream that a search for the session finds. -/
theorem closeSession_found (valid : r.Consistent) (session : String) :
    (r.closeSession session).1 = r.find? session := by
  ext connection
  rw [closed_iff, valid.found_current, and_iff_left_iff_imp]
  intro seen
  obtain ⟨c, found, _⟩ := valid.found seen
  exact Option.isSome_iff_exists.mpr ⟨c, found⟩

end Consistent

namespace Whole

theorem closeSession_sheds (whole : r.Whole) (session : String) : Sheds [session] r (r.closeSession session).2 := by
  have after := r.closeSession_after session
  have connections : ∀ connection c, (r.closeSession session).2.connections.get? connection = some c ↔
      r.connections.get? connection = some c ∧ c.session ∉ [session] := by
    intro connection c
    rw [after, connections_withoutStream, current_setPending, connections_setPending, List.mem_singleton]
    split
    next named =>
      refine iff_of_false (Option.some_ne_none c).symm ?_
      rintro ⟨found, other⟩
      obtain ⟨d, again, same⟩ := whole.found named
      cases found.symm.trans again
      exact other same
    next unnamed =>
      rw [iff_self_and]
      rintro found rfl
      exact unnamed (whole.named found)
  refine ⟨connections, fun other => ?_, ?_, fun connection c found => ?_⟩
  · rw [after, (whole.setPending_preserves session [] (by simp)).current_withoutStream, current_setPending]
    exact if_congr List.mem_singleton.symm rfl rfl
  · rw [after, pending_withoutStream]
    exact List.filter_congr fun entry _ => by simp
  · obtain ⟨old, other⟩ := (connections connection c).mp found
    rw [after, boxes_withoutStream, outboxes_setPending]
    intro ended d seen open_ same
    obtain rfl := whole.unshared connection ended c d old open_ same
    obtain ⟨e, again, belongs⟩ := whole.found seen
    cases old.symm.trans again
    exact other (List.mem_singleton.mpr belongs)

theorem closeSession_preserves (whole : r.Whole) (session : String) : (r.closeSession session).2.Whole := by
  have sheds := whole.closeSession_sheds session
  refine ⟨whole.toConsistent.closeSession_preserves session, fun first last c d open₁ open₂ => ?_⟩
  exact whole.unshared first last c d ((sheds.connections first c).mp open₁).1 ((sheds.connections last d).mp open₂).1

theorem closeSessions_sheds (whole : r.Whole) (sessions : List String) :
    Sheds sessions r ((sessions.map Action.closeSession).foldl Action.perform r) := by
  induction sessions generalizing r with
  | nil => exact .refl r
  | cons session rest ih =>
    exact (whole.closeSession_sheds session).append (ih (whole.closeSession_preserves session))

end Whole

end Registry

/-- However streams are opened and ended, each gets an outbox of its own. -/
theorem World.Recorded.whole {w : World} (recorded : w.Recorded) : w.registry.Whole := by
  refine ⟨recorded.consistent, fun first last c d open₁ open₂ shared => ?_⟩
  have same := List.inj_on_of_nodup_map recorded.distinct (recorded.opened first c open₁) (recorded.opened last d open₂)
    shared
  exact congrArg Opening.connection same

end ToolBridge.Stream

namespace ToolBridge.Server

theorem Chronicle.Faithful.whole {c : Chronicle} (faithful : c.Faithful) : c.hub.streams.Whole :=
  faithful.mirrored ▸ faithful.recorded.whole

namespace Hub

/-- What observers are told of a session that ends, first of all its stream. -/
def partingNotices (streams : Stream.Registry) (session : String) : List Event :=
  (streams.find? session).toList.map (.streamClosed session) ++ [.sessionClosed session]

/-- Where no session ends twice, none changes what is told of the next. -/
theorem closingNotices_eq {r : Stream.Registry} (whole : r.Whole) {sessions : List String} (distinct : sessions.Nodup) :
    closingNotices sessions r = sessions.flatMap (partingNotices r) := by
  induction sessions generalizing r with
  | nil => rfl
  | cons session rest ih =>
    obtain ⟨once, others⟩ := List.nodup_cons.mp distinct
    have later : ∀ other ∈ rest, partingNotices (r.closeSession session).2 other = partingNotices r other := by
      intro other member
      have apart : other ∉ [session] := fun same => once (List.mem_singleton.mp same ▸ member)
      rw [partingNotices, partingNotices, (whole.closeSession_preserves session).found_current, whole.found_current,
        (whole.closeSession_sheds session).current, if_neg apart]
    rw [closingNotices, ih (whole.closeSession_preserves session) others, List.flatMap_congr later, List.flatMap_cons,
      whole.closeSession_found, partingNotices, List.append_assoc, List.singleton_append]

def dead (now : Int) (h : Hub) : List String :=
  (h.sessions.sessions.filter (SessionTable.Expired now h.config.sessionIdle)).map (·.id)

/-- After a sweep the table is the old one without the sessions that have expired. None of those has a stream any
more, and the streams of all others are what they were, down to the counter and the outbox of each. Replies wait just
for sessions of the table, as they did before and in the same order. Observers have been told of each session that
ended, after its stream if it had one, and of nothing else. -/
theorem sweep_removes_the_dead (now : Int) (h : Hub) (distinct : h.sessions.ids.Nodup) (whole : h.streams.Whole) :
    (h.sweep now).sessions = { h.sessions with
      sessions := h.sessions.sessions.filter fun s => ¬ SessionTable.Expired now h.config.sessionIdle s } ∧
    (∀ session ∈ h.dead now, (h.sweep now).sessions.contains session = false) ∧
    (∀ connection c, (h.sweep now).streams.connections.get? connection = some c ↔
      h.streams.connections.get? connection = some c ∧ c.session ∉ h.dead now) ∧
    (∀ session, (h.sweep now).streams.current.get? session =
      if session ∈ h.dead now then none else h.streams.current.get? session) ∧
    (∀ connection c, (h.sweep now).streams.connections.get? connection = some c →
      (h.sweep now).streams.outboxes.boxes.get? c.outbox = h.streams.outboxes.boxes.get? c.outbox) ∧
    (h.sweep now).streams.pending =
      h.streams.pending.filter (fun entry => (h.sweep now).sessions.contains entry.1) ∧
    (h.sweep now).events = h.events ++ (h.dead now).flatMap (partingNotices h.streams) := by
  have swept := h.sweep_swept now
  have ended : (h.sessions.sweep now h.config.sessionIdle).1 = h.dead now := by rw [SessionTable.sweep_eq, dead]
  have gone : ∀ session ∈ h.dead now, (h.sweep now).sessions.contains session = false := by
    intro session member
    rw [swept.sessions]
    exact SessionTable.contains_swept distinct (ended ▸ member)
  -- The droppings at the end change nothing but what waits.
  obtain ⟨pending, dropped⟩ : ∃ pending, (h.sweep now).streams =
      { ((h.dead now).map Stream.Action.closeSession).foldl Stream.Action.perform h.streams with pending } := by
    rw [swept.streams, sweptActions, List.foldl_append, Stream.Registry.discardAll_eq, ended]
    exact ⟨_, rfl⟩
  have sheds := whole.closeSessions_sheds (h.dead now)
  refine ⟨?_, gone, ?_, ?_, ?_, ?_, ?_⟩
  · rw [swept.sessions, SessionTable.sweep_eq]
  · rw [dropped]
    exact sheds.connections
  · rw [dropped]
    exact sheds.current
  · rw [dropped]
    exact sheds.boxes
  · rw [h.pending_swept now, ended, sheds.pending, List.filter_filter]
    refine List.filter_congr fun entry _ => ?_
    by_cases member : entry.1 ∈ h.dead now <;> simp [member, gone]
  · rw [swept.events, ended, closingNotices_eq whole (ended ▸ distinct.sublist SessionTable.swept_sublist)]

private def ask (session : String) : Http.Request :=
  { method := "POST", path := "/", version := "HTTP/1.1", query := [("sessionId", session)]
    body := Text.utf8 "\x7b\"jsonrpc\":\"2.0\",\"id\":7,\"method\":\"ping\"\x7d" }

private def follow : Http.Request :=
  { method := "GET", path := "/", version := "HTTP/1.1", headers := [("accept", "text/event-stream")] }

private def leave (session : String) : Http.Request :=
  { method := "DELETE", path := "/", version := "HTTP/1.1", headers := [("mcp-session-id", session)] }

private def idOf (n : Char) : String := .ofList (List.replicate 31 '0' ++ [n])

private def worked : List Deed := [.take, .dispatch ⟨.ok [], fun _ _ => .text ""⟩ 0, .check]

/-- The first session goes idle; the second is deleted while its reply is on the way; the third comes later, loses its
stream, and has a reply waiting; the fourth has its stream. -/
private def visits : List Deed :=
  [.serve 0 {} follow 1, .serve 0 {} follow 2, .serve 0 {} (ask (idOf '2')) 3] ++ worked ++
    [.serve 0 {} (leave (idOf '2')) 4, .deliver, .serve 9 {} follow 5, .unregister ⟨5, idOf '3', 3⟩,
      .serve 9 {} (ask (idOf '3')) 6] ++ worked ++ [.deliver, .serve 9 {} follow 7]

private def visited : Hub := ((Chronicle.start { sessionIdleTimeoutSecs := 0 } {}).run visits).hub

theorem sweep_removes_the_dead_mixed : (visited.sweep 9).sessions.ids = [idOf '3', idOf '4'] ∧
    visited.streams.pendingSessions = [idOf '2', idOf '3'] ∧ (visited.sweep 9).streams.pendingSessions = [idOf '3'] ∧
    (visited.sweep 9).streams.current.get? (idOf '4') = some 7 ∧
    (visited.sweep 9).events = visited.events ++ [.streamClosed (idOf '1') 1, .sessionClosed (idOf '1')] := by
  have faithful : ((Chronicle.start { sessionIdleTimeoutSecs := 0 } {}).run visits).Faithful :=
    Chronicle.run_preserves (fun _ deed held fresh => held.step_preserves deed fresh) (.initial _ _)
      (show Chronicle.Lawful Chronicle.Fresh _ visits by decide +kernel)
  obtain ⟨sessions, _, _, current, _, pending, events⟩ :=
    sweep_removes_the_dead 9 visited (by decide +kernel) faithful.whole
  rw [current, events, Stream.Registry.pendingSessions, Stream.Registry.pendingSessions, pending, sessions]
  decide +kernel

end Hub

end ToolBridge.Server

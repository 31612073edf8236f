import ToolBridge.Proofs.Refusals
import ToolBridge.Proofs.SessionTable

/-! All that routing one request can do to a hub. It answers and changes nothing, or refreshes a session and
queues the request, or opens a stream, or closes a session; later proofs look at routing through these
cases only. -/

namespace ToolBridge.Server.Route

/-- The sessions once a request has named one, or none. -/
def seen (now : Int) (named : Option String) (t : SessionTable) : SessionTable :=
  match named with
  | some session => (t.touch now session).2
  | none => t

theorem contains_seen {now : Int} {named : Option String} {t : SessionTable} {session : String} :
    (seen now named t).contains session = t.contains session := by
  cases named with
  | none => rfl
  | some id => exact SessionTable.contains_touch

theorem seen_known {now : Int} {session : String} {t : SessionTable} (known : t.contains session = true) :
    seen now (some session) t = t.refresh now session := by
  simp [seen, SessionTable.touch, known]

/-- The session that a stream is opened for, and the hub by then. -/
inductive Finds (now : Int) (r : Http.Request) (h : Hub) : String → Hub → Prop where
  | known {session : String} (named : r.header? Access.sessionHeader = some session)
      (known : h.sessions.contains session = true) :
      Finds now r h session { h with sessions := seen now (some session) h.sessions }
  | minted (unnamed : r.header? Access.sessionHeader = none) :
      Finds now r h (h.sessions.create now).1.id
        { h with
          sessions := (h.sessions.create now).2
          events := h.events ++ [.sessionOpened (h.sessions.create now).1.id] }

/-- What observers are told when a stream is opened. -/
def openingNotices (session : String) (connection : Nat) (superseded : Option Nat) : List Event :=
  superseded.toList.map (.streamClosed session) ++ [.streamOpened session connection]

/-- What becomes of a request, and of the hub. -/
inductive Result (now : Int) (r : Http.Request) (connection : Nat) (h : Hub) : Routed → Hub → Prop where
  | told {response : Http.Response} {close : Bool} (unqueued : response.status ≠ 202)
      (unclosed : r.method = "DELETE" → response.status ≠ 204) : Result now r connection h (.respond response close) h
  /-- The request waits for the executor, and its reply will go to the stream of its session. -/
  | queued {session : String} {queue : Queue} {response : Http.Response} {close : Bool}
      (status : response.status = 202) (named : r.query.get? sessionParameter = some session)
      (known : h.sessions.contains session = true)
      (taken : h.queue.push? (pending r connection (some session) .stream) = some queue) :
      Result now r connection h (.respond response close)
        { h with sessions := seen now (some session) h.sessions, queue }
  | turnedAway {named : Option String} {response : Http.Response} {close : Bool} (status : response.status = 503) :
      Result now r connection h (.respond response close) { h with sessions := seen now named h.sessions }
  /-- The request waits for the executor, and its caller for the answer. -/
  | parked {queue : Queue} {headers : List (String × String)}
      (taken : h.queue.push? (pending r connection (r.header? Access.sessionHeader) (.direct h.slots.make.1)) = some queue) :
      Result now r connection h (.park h.slots.make.1 headers)
        { h with sessions := seen now (r.header? Access.sessionHeader) h.sessions, queue, slots := h.slots.make.2 }
  | opened {session preamble : String} {found : Hub} (method : r.method = "GET") (finds : Finds now r h session found) :
      Result now r connection h
        (.stream session (found.streams.register connection session (resumeAfter r)).1.outbox preamble)
        { found with
          streams := (found.streams.register connection session (resumeAfter r)).2
          events := found.events ++ openingNotices session connection
            (found.streams.register connection session (resumeAfter r)).1.superseded }
  | closed {session : String} {response : Http.Response} {close : Bool}
      (named : r.header? Access.sessionHeader = some session) (known : h.sessions.contains session = true)
      (method : r.method = "DELETE") (status : response.status = 204) :
      Result now r connection h (.respond response close)
        { h with
          sessions := (h.sessions.close session).2
          streams := (h.streams.closeSession session).2
          events := h.events ++ [.sessionClosed session] }

section Results
variable (now : Int) (c : Config) (r : Http.Request) (connection : Nat) (headers : List (String × String)) (h : Hub)

theorem reject_result (rejection : Rejection) : Result now r connection h (reject rejection) h := by
  have refused := rejection.status_mem
  simp only [List.mem_cons, List.not_mem_nil, or_false] at refused
  refine .told ?_ fun _ => ?_
  · rw [Rejection.status_response]
    omega
  · rw [Rejection.status_response]
    omega

theorem postOnStream_result {session : String} (named : r.query.get? sessionParameter = some session) :
    Result now r connection h (post now r connection headers h).1 (post now r connection headers h).2 := by
  simp only [post, named, postOnStream]
  cases known : h.sessions.contains session with
  | false =>
    simp only [Hub.touch_unknown known, Bool.not_false, if_true]
    exact reject_result ..
  | true =>
    simp only [Hub.touch_known known, Bool.not_true, Bool.false_eq_true, if_false, ← seen_known known]
    cases taken : h.queue.push? (pending r connection (some session) .stream) with
    | some queue => exact .queued rfl named known taken
    | none => exact .turnedAway rfl

theorem recognise_seen (session : Option String) :
    (recognise now r session h).2 = { h with sessions := seen now session h.sessions } := by
  cases session <;> rfl

theorem postDirect_result : Result now r connection h (postDirect now r connection headers h).1
    (postDirect now r connection headers h).2 := by
  simp only [postDirect]
  have sessions := recognise_seen now r h (r.header? Access.sessionHeader)
  rcases recognise_judged now r h (r.header? Access.sessionHeader) with known | refused
  · generalize recognise now r (r.header? Access.sessionHeader) h = recognised at known sessions ⊢
    obtain ⟨_, after⟩ := recognised
    cases known
    cases sessions
    dsimp only
    cases taken : h.queue.push? (pending r connection (r.header? Access.sessionHeader) (.direct h.slots.make.1)) with
    | some queue => exact .parked taken
    | none => exact .turnedAway rfl
  · rw [refused]
    exact reject_result ..

theorem post_result : Result now r connection h (post now r connection headers h).1
    (post now r connection headers h).2 := by
  cases named : r.query.get? sessionParameter with
  | some session => exact postOnStream_result now r connection headers h named
  | none =>
    simp only [post, named]
    exact postDirect_result ..

theorem streamSession_finds : (∃ session endpoint found, streamSession now c r h = (.ok (session, endpoint), found) ∧
    Finds now r h session found) ∨ ∃ rejection, streamSession now c r h = (.error rejection, h) := by
  unfold streamSession
  cases named : r.header? Access.sessionHeader with
  | none => exact Or.inl ⟨_, _, _, rfl, .minted named⟩
  | some session =>
    cases known : h.sessions.contains session with
    | true =>
      refine Or.inl ⟨session, none, _, ?_, .known named known⟩
      simp only [Hub.touch_known known, if_true, seen_known known]
    | false => exact Or.inr ⟨.sessionNotFound, by simp [Hub.touch_unknown known]⟩

theorem openStream_result (method : r.method = "GET") :
    Result now r connection h (openStream now c r connection headers h).1
      (openStream now c r connection headers h).2 := by
  unfold openStream
  rcases streamSession_finds now c r h with ⟨session, endpoint, found, same, finds⟩ | ⟨rejection, same⟩
  · have result : Result now r connection h (.stream session _ (EventStream.head
        ((Access.sessionHeader, session) :: headers) ++ endpoint.elim "" EventStream.Frame.encode)) _ :=
      .opened method finds
    simp only [same]
    generalize found.streams.register connection session (resumeAfter r) = registered at result ⊢
    obtain ⟨⟨outbox, superseded, flushed⟩, streams⟩ := registered
    cases superseded with
    | none => exact result
    | some old => simpa [Hub.emit, openingNotices] using result
  · rw [same]
    exact reject_result ..

theorem closeSession_result (method : r.method = "DELETE") :
    (∃ response, closeSession r h = (.ok response, (closeSession r h).2) ∧
      ∀ headers close, Result now r connection h (.respond (withHeaders headers response) close) (closeSession r h).2) ∨
    ∃ rejection, closeSession r h = (.error rejection, h) := by
  unfold closeSession
  cases named : r.header? Access.sessionHeader with
  | none => exact Or.inr ⟨.missingSession, rfl⟩
  | some session =>
    cases known : h.sessions.contains session with
    | true =>
      have closed : (h.sessions.close session).1 = true := known
      simp only [closed, if_true]
      exact Or.inl ⟨_, rfl, fun headers close => .closed named known method rfl⟩
    | false => exact Or.inr ⟨.sessionNotFound, by simp [SessionTable.close_unknown known]⟩

theorem preflight_result (asks : r.method = "OPTIONS") : Result now r connection h (preflight c r) h := by
  unfold preflight
  split
  · exact reject_result ..
  · exact .told (by decide +kernel : 204 ≠ 202) fun deletes => absurd (asks.symm.trans deletes) (by decide)

theorem route_result : Result now r connection h (route now c r connection h).1 (route now c r connection h).2 := by
  simp only [route]
  split
  next asks => exact preflight_result now c r connection h asks
  split
  · exact reject_result ..
  split
  next asked =>
    refine .told (by decide +kernel : 200 ≠ 202) fun deletes => ?_
    exact absurd (asked.2.symm.trans deletes) (by decide)
  split
  · exact reject_result ..
  split
  · exact post_result ..
  split
  next asked => exact openStream_result now c r connection _ h asked.1
  split
  next method =>
    rcases closeSession_result now r connection h method with ⟨response, same, results⟩ | ⟨rejection, same⟩
    · rw [same]
      exact results ..
    · rw [same]
      exact reject_result ..
  · exact reject_result ..

end Results

end ToolBridge.Server.Route

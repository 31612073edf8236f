import ToolBridge.Proofs.Answers
import ToolBridge.Proofs.LateRequests
import ToolBridge.Proofs.ReadJson
import ToolBridge.Proofs.Refusals
import ToolBridge.Proofs.SessionNotices

/-! What a request can do under a session that is not known. Only a body that asks to be set up is let in. That is told
from its octets, and what the body asks for when it is run is read from its lossy text, with more checks; but octets
that are read at all are text, so the two never differ on the method. -/

namespace ToolBridge

namespace Rpc.Request

/-- The body is read, and names the method by which a client asks to be set up. -/
def AsksHandshake (body : String) : Prop :=
  ∃ value, Json.parse body = .ok value ∧ (value.member? "method").bind Json.asString? = some "initialize"

/-- The reply to a call of another version. -/
def versionRefusal (id : Json) : Reply := .invalidRequest id "jsonrpc must be '2.0'"

/-- Such a body is a well-formed call with that method, or is refused for its version. -/
theorem AsksHandshake.cases {body : String} (asks : AsksHandshake body) :
    (∃ call, parse body = .ok call ∧ call.method = "initialize") ∨ ∃ id, parse body = .error (versionRefusal id) := by
  obtain ⟨value, read, named⟩ := asks
  have solid : Text.trim body ≠ "" := by
    intro nothing
    obtain ⟨fault, unread⟩ := Json.parse_blank nothing
    cases read.symm.trans unread
  have shaped : value.isObject = true := by
    cases value with
    | obj members => rfl
    | null | bool _ | num _ | str _ | arr _ => cases named
  rw [parse, if_neg solid, read]
  simp only [ofJson, shaped, named, Bool.not_true, Bool.false_eq_true, if_false]
  split
  · exact Or.inr ⟨_, rfl⟩
  · exact Or.inl ⟨_, rfl, rfl⟩

theorem asksHandshake_of_parse {body : String} {call : Request} (called : parse body = .ok call)
    (handshake : call.method = "initialize") : AsksHandshake body := by
  unfold parse at called
  split at called
  · cases called
  split at called
  · cases called
  next value read =>
    refine ⟨value, read, ?_⟩
    unfold ofJson at called
    split at called
    · cases called
    split at called
    · cases called
    split at called
    · cases called
    next method named =>
      cases called
      exact named.trans (congrArg some handshake)

end Rpc.Request

open Rpc.Request (AsksHandshake)

/-- What one call may do to the sessions: refresh one, or mint one. -/
inductive SessionTable.Moves (now : Int) (t : SessionTable) : SessionTable → Prop where
  | kept : t.Moves now t
  | refreshed (session : String) : t.Moves now (t.refresh now session)
  | minted : t.Moves now (t.create now).2

theorem SessionTable.moves_ensure (now : Int) (t : SessionTable) (named : Option String) :
    t.Moves now (t.ensure now named).2.2 := by
  rcases t.ensure_cases named with ⟨session, same⟩ | minted
  · rw [same]
    exact .refreshed session
  · rw [minted]
    exact .minted

theorem Dispatch.dispatch_refused {body : String} {refusal : Rpc.Reply} (refused : Rpc.Request.parse body = .error refusal)
    (registry : Tool.Registry) (info : ServerInfo) (now : Int) (session : Option String) (sessions : SessionTable) :
    dispatch registry info now body session sessions = (.ok ⟨some refusal, session, false⟩, sessions) := by
  simp only [dispatch, refused]

namespace Server

namespace Route
variable {r : Http.Request}

theorem asksHandshake_of_isHandshake (loose : isHandshake r = true) : AsksHandshake r.bodyText := by
  unfold isHandshake at loose
  split at loose
  next value given => exact ⟨value, Json.parse_lossy given, eq_of_beq loose⟩
  next => cases loose

theorem isHandshake_of_asks {body : String} (octets : r.body = Text.utf8 body) (asks : AsksHandshake body) :
    isHandshake r = true := by
  obtain ⟨value, read, named⟩ := asks
  have given : Json.ofBytes r.body = .ok value := octets ▸ read
  simp only [isHandshake, given, named, beq_self_eq_true]

end Route

/-! ## Without tools -/

namespace Tick
open Dispatch

/-- What a run leaves behind: the answer in the slot of its caller, and at most one session refreshed, or one minted
and observers told of it. -/
inductive Leaves (now : Int) (ticket : Nat) (h : Hub) : Hub → Prop where
  | answered (a : Answer) : Leaves now ticket h { h with slots := (h.slots.answer ticket a).2 }
  | refreshed (session : String) (a : Answer) : Leaves now ticket h
      { h with sessions := h.sessions.refresh now session, slots := (h.slots.answer ticket a).2 }
  | minted (a : Answer) : Leaves now ticket h
      { h with
        sessions := (h.sessions.create now).2
        events := h.events ++ [.sessionOpened (h.sessions.create now).1.id]
        slots := (h.slots.answer ticket a).2 }

/-- Running a request asks for no tools, in whatever state the server is by then. All comes out the same whatever the
tools are, dispatching changes nothing but the sessions, and no more is left behind in the end than the answer. -/
structure Toolless (p : Queue.Pending) (ticket : Nat) : Prop where
  untouched : ∀ (registry other : Tool.Registry) (now : Int) (h : Hub),
    perform registry now p h = perform other now p h ∧ process registry now p h = process other now p h
  dispatched : ∀ (registry : Tool.Registry) (now : Int) (h : Hub), ∃ t, h.sessions.Moves now t ∧
    (perform registry now p h).2 = { h with sessions := t }
  processed : ∀ (registry : Tool.Registry) (now : Int) (h : Hub), Leaves now ticket h (process registry now p h)

theorem perform_refused (registry : Tool.Registry) (now : Int) {p : Queue.Pending} (h : Hub) {refusal : Rpc.Reply}
    (refused : Rpc.Request.parse p.body = .error refusal) :
    perform registry now p h = (⟨some refusal, p.session, false⟩, h) := by
  simp only [perform, dispatch_refused refused]

theorem toolless_of_asksHandshake {p : Queue.Pending} {ticket : Nat} (asks : AsksHandshake p.body)
    (direct : p.route = .direct ticket) : Toolless p ticket := by
  rcases asks.cases with ⟨call, read, handshake⟩ | ⟨id, refused⟩
  · constructor
    · intro registry other now h
      simp only [process, perform_handshake _ now h read handshake, and_self]
    · intro registry now h
      exact ⟨_, h.sessions.moves_ensure now p.session, by rw [perform_handshake registry now h read handshake]⟩
    · intro registry now h
      have performed := perform_handshake registry now h read handshake
      have ensured : _ ∨ h.sessions.ensure now p.session = _ := h.sessions.ensure_cases p.session
      rcases ensured with ⟨session, kept⟩ | minted
      · rw [kept] at performed
        simp only [process, performed, announce, hand, direct]
        exact .refreshed session _
      · rw [minted] at performed
        simp only [process, performed, announce, hand, direct, Hub.emit]
        exact .minted _
  · constructor
    · intro registry other now h
      simp only [process, perform_refused _ now h refused, and_self]
    · intro registry now h
      exact ⟨h.sessions, .kept, by rw [perform_refused registry now h refused]⟩
    · intro registry now h
      simp only [process, perform_refused registry now h refused, announce, hand, direct]
      exact .answered _

end Tick

/-! ## At the door -/

namespace Route
variable (now : Int) (c : Config) (r : Http.Request) (connection : Nat) (h : Hub)

/-- The request as it waits for the executor, its caller for the answer in a new slot. -/
def ownRequest : Queue.Pending := pending r connection (r.header? Access.sessionHeader) (.direct h.slots.make.1)

/-- The request is put behind all others, and nothing else is touched. -/
def Parked : Prop := ∃ headers, route now c r connection h = (.park h.slots.make.1 headers,
  { h with queue := { h.queue with items := h.queue.items ++ [ownRequest r connection h] }, slots := h.slots.make.2 })

/-- The request is answered that there is no such thing, and nothing at all is touched. -/
def NotFound : Prop := ∃ response close, route now c r connection h = (.respond response close, h) ∧ response.status = 404

section
variable {now c r connection h} {id : String}

theorem postDirect_stranger (named : r.header? Access.sessionHeader = some id) (unknown : h.sessions.contains id = false)
    (other : isHandshake r = false) (headers : List (String × String)) :
    postDirect now r connection headers h = (reject .sessionNotFound, h) := by
  simp only [postDirect, named, recognise, Hub.touch_unknown unknown, other, Bool.or_self, Bool.false_eq_true, if_false]

/-- Only requests under known sessions wait for an answer, and those that ask to be set up. -/
theorem parks_recognised {ticket : Nat} {headers : List (String × String)}
    (parks : (route now c r connection h).1 = .park ticket headers) (named : r.header? Access.sessionHeader = some id) :
    h.sessions.contains id = true ∨ isHandshake r = true := by
  by_contra stranger
  rw [not_or, Bool.not_eq_true, Bool.not_eq_true] at stranger
  simp only [route] at parks
  split at parks
  · unfold preflight at parks
    split at parks <;> cases parks
  split at parks
  · cases parks
  split at parks
  · cases parks
  split at parks
  · cases parks
  split at parks
  · unfold Route.post at parks
    split at parks
    · split at parks <;> cases parks
    · rw [postDirect_stranger named stranger.1 stranger.2] at parks
      cases parks
  split at parks
  · unfold openStream at parks
    split at parks <;> cases parks
  split at parks
  · split at parks <;> cases parks
  · cases parks

/-- Past the checks, a request under an unknown session is let in or not by what its octets ask for. -/
theorem route_unknown (post : r.method = "POST") (path : r.path = c.path) (allowed : Access.check c r = .ok ())
    (plain : r.query.get? sessionParameter = none) (named : r.header? Access.sessionHeader = some id)
    (unknown : h.sessions.contains id = false) (opened : h.queue.closed = false) :
    (isHandshake r = true → Parked now c r connection h) ∧ (isHandshake r = false → NotFound now c r connection h) := by
  have routed : route now c r connection h = postDirect now r connection (Access.originHeaders c r) h := by
    simp [route, Route.post, post, path, allowed, plain]
  constructor
  · intro loose
    have recognised : recognise now r (some id) h = (none, h) := by
      simp only [recognise, Hub.touch_unknown unknown, loose, Bool.or_true, if_true]
    refine ⟨Access.originHeaders c r, ?_⟩
    rw [routed, postDirect, named, recognised]
    simp [Queue.push?, opened, ownRequest, named]
  · intro other
    refine ⟨_, Rejection.sessionNotFound.closes, ?_, Rejection.status_response .sessionNotFound⟩
    rw [routed, postDirect_stranger named unknown other]
    rfl

/-- An unknown session never reaches a tool. A request under it that passes the checks, while the queue is open, is
either told that there is no such session, and nothing changes, or it is queued; and then running it, in whatever state
the server is by then, asks for no tools and changes nothing but the sessions, by minting or refreshing one. A
well-formed request to be set up is always queued. -/
theorem unknown_session_toolless (post : r.method = "POST") (path : r.path = c.path)
    (allowed : Access.check c r = .ok ()) (plain : r.query.get? sessionParameter = none)
    (named : r.header? Access.sessionHeader = some id) (unknown : h.sessions.contains id = false)
    (opened : h.queue.closed = false) :
    (NotFound now c r connection h ∨
      Parked now c r connection h ∧ Tick.Toolless (ownRequest r connection h) h.slots.make.1) ∧
    ∀ body call, r.body = Text.utf8 body → Rpc.Request.parse body = .ok call → call.method = "initialize" →
      Parked now c r connection h := by
  obtain ⟨parked, refused⟩ : (isHandshake r = true → Parked now c r connection h) ∧
    (isHandshake r = false → NotFound now c r connection h) := route_unknown post path allowed plain named unknown opened
  constructor
  · cases loose : isHandshake r with
    | true => exact Or.inr ⟨parked loose, Tick.toolless_of_asksHandshake (asksHandshake_of_isHandshake loose) rfl⟩
    | false => exact Or.inl (refused loose)
  · intro body call octets called handshake
    exact parked (isHandshake_of_asks octets (Rpc.Request.asksHandshake_of_parse called handshake))

end

private def handshakeText : String := "\x7b\"jsonrpc\":\"2.0\",\"id\":1,\"method\":\"initialize\"\x7d"

private def stale : Http.Request :=
  { method := "POST", path := "/", headers := [("mcp-session-id", "gone")], body := Text.utf8 handshakeText }

theorem unknown_session_toolless_stale : Parked 0 {} stale 1 {} ∧ Tick.Toolless (ownRequest stale 1 {}) 1 := by
  have method : (Rpc.Request.parse handshakeText).toOption.map (·.method) = some "initialize" := by decide +kernel
  have named : stale.header? Access.sessionHeader = some "gone" := by decide +kernel
  obtain ⟨outcome, queued⟩ : (NotFound 0 {} stale 1 {} ∨ Parked 0 {} stale 1 {} ∧ Tick.Toolless (ownRequest stale 1 {}) 1) ∧ _ :=
    unknown_session_toolless rfl rfl (by decide +kernel) rfl named rfl rfl
  have parked : Parked 0 {} stale 1 {} := by
    cases read : Rpc.Request.parse handshakeText with
    | error refusal => simp [read, Except.toOption] at method
    | ok call =>
      rw [read] at method
      exact queued handshakeText call rfl read (Option.some.inj method)
  refine ⟨parked, ?_⟩
  rcases outcome with ⟨response, close, refused, _⟩ | ⟨_, toolless⟩
  · obtain ⟨headers, waits⟩ := parked
    cases refused.symm.trans waits
  · exact toolless

end Route

end Server

end ToolBridge

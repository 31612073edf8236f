import ToolBridge.Proofs.Answers
import ToolBridge.Proofs.QueueHistory
import ToolBridge.Proofs.SessionTable

/-! What running a request does to the sessions, and what becomes of a request of the older transport whose session
has ended while it was queued. It leaves no trace, unless it is a handshake: then another session is set up, and the
reply goes there. -/

namespace ToolBridge

namespace Dispatch

theorem ofName_handshake (name : String) : Method.ofName name = .handshake ↔ name = "initialize" := by
  simp [ofName_named]

section
variable (registry : Tool.Registry) (info : ServerInfo) (now : Int) (session : Option String) (sessions : SessionTable)

theorem answer_plain {call : Rpc.Request} (plain : call.method ≠ "initialize") :
    ∃ result : Except Tool.Crash (Option Rpc.Reply),
      answer registry info now call session sessions = (result.map (⟨·, session, false⟩), sessions) := by
  unfold answer
  cases kind : Method.ofName call.method with
  | handshake => exact absurd ((ofName_handshake _).mp kind) plain
  | toolsList =>
    refine ⟨(listTools registry call.idOrNull).map some, ?_⟩
    dsimp only
    cases listTools registry call.idOrNull <;> rfl
  | toolsCall =>
    refine ⟨(callTool registry call.idOrNull call.params).map some, ?_⟩
    dsimp only
    cases callTool registry call.idOrNull call.params <;> rfl
  | ping => exact ⟨.ok (some _), rfl⟩
  | notification => exact ⟨.ok none, rfl⟩
  | unknown => exact ⟨.ok (some _), rfl⟩

theorem dispatch_plain {body : String}
    (plain : ∀ call, Rpc.Request.parse body = .ok call → call.method ≠ "initialize") :
    ∃ result : Except Tool.Crash (Option Rpc.Reply),
      dispatch registry info now body session sessions = (result.map (⟨·, session, false⟩), sessions) := by
  unfold dispatch
  cases read : Rpc.Request.parse body with
  | error refusal => exact ⟨.ok (some refusal), rfl⟩
  | ok call =>
    obtain ⟨result, answered⟩ := answer_plain registry info now session sessions (plain call read)
    refine ⟨result.map fun reply => if call.isNotification then none else reply, ?_⟩
    simp only [answered]
    cases result with
    | error crash => rfl
    | ok reply => cases call.isNotification <;> rfl

theorem dispatch_handshake {body : String} {call : Rpc.Request} (read : Rpc.Request.parse body = .ok call)
    (handshake : call.method = "initialize") :
    dispatch registry info now body session sessions =
      (.ok ⟨if call.isNotification then none
          else some (.success call.idOrNull (handshakeResult info call.params (sessions.ensure now session).1.id)),
          some (sessions.ensure now session).1.id, (sessions.ensure now session).2.1⟩,
        (sessions.ensure now session).2.2) := by
  simp only [dispatch, read, answer, (ofName_handshake _).mpr handshake]
  cases call.isNotification <;> rfl

end

end Dispatch

namespace Server.Tick
open Dispatch

section
variable (registry : Tool.Registry) (now : Int) {p : Queue.Pending} (h : Hub)

theorem perform_plain (plain : ∀ call, Rpc.Request.parse p.body = .ok call → call.method ≠ "initialize") :
    ∃ reply, perform registry now p h = (⟨reply, p.session, false⟩, h) := by
  obtain ⟨result, dispatched⟩ := dispatch_plain registry h.info now p.session h.sessions plain
  simp only [perform, dispatched]
  cases result <;> exact ⟨_, rfl⟩

theorem perform_handshake {call : Rpc.Request} (read : Rpc.Request.parse p.body = .ok call)
    (handshake : call.method = "initialize") :
    perform registry now p h =
      (⟨if call.isNotification then none
          else some (.success call.idOrNull (handshakeResult h.info call.params (h.sessions.ensure now p.session).1.id)),
          some (h.sessions.ensure now p.session).1.id, (h.sessions.ensure now p.session).2.1⟩,
        { h with sessions := (h.sessions.ensure now p.session).2.2 }) := by
  simp only [perform, dispatch_handshake registry h.info now p.session h.sessions read handshake]

/-- A request stays under the session it came under while the table knows that. -/
theorem perform_known {session : String} (named : p.session = some session)
    (known : h.sessions.contains session = true) : (perform registry now p h).1.session = some session := by
  by_cases handshake : ∃ call, Rpc.Request.parse p.body = .ok call ∧ call.method = "initialize"
  · obtain ⟨call, read, method⟩ := handshake
    obtain ⟨found, same, ensured⟩ : ∃ s, s.id = session ∧
        h.sessions.ensure now (some session) = (s, false, h.sessions.refresh now session) :=
      SessionTable.ensure_known known
    rw [perform_handshake registry now h read method, named, ensured, same]
  · obtain ⟨reply, performed⟩ := perform_plain registry now h fun call read method => handshake ⟨call, read, method⟩
    rw [performed, named]

/-- Where the session of a request of the older transport has ended by the time the request is run, nothing at all
changes, unless the request is a handshake. A handshake sets up another session, which observers are told of, and
its reply, if it wants one, is delivered for that session. -/
theorem late_request_traceless {session : String} (route : p.route = .stream) (named : p.session = some session)
    (gone : h.sessions.contains session = false) :
    ((∀ call, Rpc.Request.parse p.body = .ok call → call.method ≠ "initialize") → process registry now p h = h) ∧
    ∀ call, Rpc.Request.parse p.body = .ok call → call.method = "initialize" → process registry now p h =
      { h with
        sessions := (h.sessions.create now).2
        events := h.events ++ [.sessionOpened (h.sessions.create now).1.id]
        streams :=
          if call.isNotification then h.streams
          else (h.streams.deliver (h.sessions.create now).1.id (Rpc.Reply.success call.idOrNull
            (handshakeResult h.info call.params (h.sessions.create now).1.id)).text).2 } := by
  constructor
  · intro plain
    obtain ⟨reply, performed⟩ := perform_plain registry now h plain
    have uncollected : collectible? ⟨reply, some session, false⟩ h = none := by
      cases reply <;> simp [collectible?, gone]
    simp only [process, performed, named, announce, hand, route, uncollected]
  · intro call read handshake
    have minted : (h.sessions.create now).2.contains (h.sessions.create now).1.id = true :=
      SessionTable.contains_create.mpr (Or.inr rfl)
    have performed := perform_handshake registry now h read handshake
    rw [named, SessionTable.ensure_unknown gone] at performed
    simp only [process, performed, announce, hand, route, collectible?, Hub.emit]
    cases call.isNotification with
    | true => rfl
    | false => simp only [Bool.false_eq_true, if_false, minted, if_true]

end

private def late (body : String) : Queue.Pending :=
  { connection := 1, path := "/", headers := [], body, session := some "gone", route := .stream }

private def latePing : Queue.Pending := late "\x7b\"jsonrpc\":\"2.0\",\"id\":1,\"method\":\"ping\"\x7d"

private def lateHandshake : Queue.Pending :=
  late "\x7b\"jsonrpc\":\"2.0\",\"id\":1,\"method\":\"initialize\"\x7d"

private def idle : Tool.Registry := ⟨.ok [], fun _ _ => .text ""⟩

theorem late_request_traceless_handshake : process idle 0 latePing {} = {} ∧
    (process idle 0 lateHandshake {}).events = [.sessionOpened "00000000000000000000000000000001"] ∧
    (process idle 0 lateHandshake {}).streams.pendingSessions = ["00000000000000000000000000000001"] := by
  have ping : (Rpc.Request.parse latePing.body).toOption.map (·.method) = some "ping" := by decide +kernel
  have handshake : (Rpc.Request.parse lateHandshake.body).toOption.map (fun call => (call.method, call.isNotification)) =
      some ("initialize", false) := by decide +kernel
  constructor
  · refine (late_request_traceless idle 0 {} rfl rfl rfl).1 ?_
    intro call read same
    rw [read] at ping
    exact absurd (same.symm.trans (Option.some.inj ping)) (by decide)
  · cases read : Rpc.Request.parse lateHandshake.body with
    | error refusal => simp [read, Except.toOption] at handshake
    | ok call =>
      rw [read] at handshake
      obtain ⟨named, loud⟩ := Prod.mk.inj (Option.some.inj handshake)
      rw [(late_request_traceless idle 0 {} rfl rfl rfl).2 call read named, loud]
      exact ⟨rfl, rfl⟩

end Server.Tick

end ToolBridge

import ToolBridge.Proofs.MintedSessions

/-! What the dispatcher owes a body: whether it replies, under which id and with what, and what may become of the
sessions. The checks come in an order, and a body that fails one is refused whatever the tools and the sessions are. -/

namespace ToolBridge

theorem Json.asString?_eq_some {j : Json} {s : String} : j.asString? = some s ↔ j = .str s := by
  cases j <;> simp [asString?]

namespace Rpc

def Reply.code? (r : Reply) : Option Int :=
  match r.outcome with
  | .result _ => none
  | .error e => some e.code

namespace Request
variable {body : String}

/-- The value is a well-formed call: an object of the right version whose method is that string. -/
def Calls (value : Json) (method : String) : Prop :=
  ∃ members, value = .obj members ∧ members.lookup "jsonrpc" = some (.str "2.0") ∧
    members.lookup "method" = some (.str method)

theorem method?_eq_some {method : String} :
    method? body = some method ↔ ∃ value, Json.parse body = .ok value ∧ Calls value method := by
  unfold method? Calls
  cases Json.parse body with
  | error fault => simp [Except.toOption]
  | ok value =>
    cases value with
    | obj members => simp [Except.toOption, Json.member?, Option.bind_eq_some_iff, Json.asString?_eq_some]
    | null | bool _ | num _ | str _ | arr _ => simp [Except.toOption, Json.member?]

theorem method?_eq_none {value : Json} (read : Json.parse body = .ok value)
    (shapeless : ∀ method, ¬ Calls value method) : method? body = none := by
  refine Option.eq_none_iff_forall_ne_some.mpr fun method called => ?_
  obtain ⟨other, same, calls⟩ := method?_eq_some.mp called
  cases read.symm.trans same
  exact shapeless method calls

theorem holds_of_parse {call : Request} (read : parse body = .ok call) : Holds body call := by
  rcases parse_cases body with ⟨other, same, holds⟩ | ⟨refusal, refused, _⟩
  · cases read.symm.trans same
    exact holds
  · cases read.symm.trans refused

theorem parse_of_method {method : String} (called : method? body = some method) :
    ∃ call, parse body = .ok call ∧ call.method = method := by
  rcases parse_cases body with ⟨call, read, holds⟩ | ⟨refusal, _, refuses⟩
  · exact ⟨call, read, Option.some.inj (holds.method.symm.trans called)⟩
  · cases refuses.malformed.symm.trans called

theorem parse_of_malformed (malformed : method? body = none) : ∃ refusal, parse body = .error refusal := by
  rcases parse_cases body with ⟨call, _, holds⟩ | ⟨refusal, refused, _⟩
  · cases holds.method.symm.trans malformed
  · exact ⟨refusal, refused⟩

theorem parse_of_blank (blank : Text.trim body = "") :
    parse body = .error (.invalidRequest .null "empty request body") := if_pos blank

theorem parse_of_unread (solid : Text.trim body ≠ "") {fault : Json.Fault} (unread : Json.parse body = .error fault) :
    parse body = .error (.parseError .null (fault.message (Text.utf8 body))) := by
  rw [parse, if_neg solid, unread]

theorem parse_of_misshapen {value : Json} (read : Json.parse body = .ok value) (malformed : method? body = none) :
    ∃ id details, parse body = .error (.invalidRequest id details) := by
  obtain ⟨refusal, refused⟩ := parse_of_malformed malformed
  have solid : Text.trim body ≠ "" := by
    intro blank
    obtain ⟨fault, unread⟩ := Json.parse_blank blank
    cases read.symm.trans unread
  rw [refused]
  simp only [parse, if_neg solid, read, ofJson] at refused
  split at refused
  · exact ⟨_, _, refused.symm⟩
  split at refused
  · exact ⟨_, _, refused.symm⟩
  split at refused
  · exact ⟨_, _, refused.symm⟩
  · cases refused

end Request

end Rpc

namespace Dispatch
open Rpc.Request

theorem ofName_ping (name : String) : Method.ofName name = .ping ↔ name = "ping" := by
  simp [ofName_named]

theorem ofName_unknown {name : String} (other : name ∉ ["initialize", "tools/list", "tools/call", "ping"])
    (noteless : ¬ "notifications/".toList <+: name.toList) : Method.ofName name = .unknown := by
  simp only [List.mem_cons, List.not_mem_nil, or_false, not_or] at other
  cases kind : Method.ofName name with
  | handshake => exact absurd ((ofName_handshake name).mp kind) other.1
  | toolsList => exact absurd ((ofName_tools name).1.mp kind) other.2.1
  | toolsCall => exact absurd ((ofName_tools name).2.mp kind) other.2.2.1
  | ping => exact absurd ((ofName_ping name).mp kind) other.2.2.2
  | notification => exact absurd ((ofName_notification name).mp kind) noteless
  | unknown => rfl

/-! ## Replies -/

namespace Answer

def Refuses (a : Answer) (code : Int) : Prop := ∃ reply, a.reply = some reply ∧ reply.code? = some code

def Succeeds (a : Answer) : Prop := ∃ reply, a.reply = some reply ∧ reply.isError = false

/-- The answer that is owed to a body. -/
structure Honours (body : String) (a : Answer) : Prop where
  silent : a.reply = none ↔ WantsNone body
  id : ∀ reply, a.reply = some reply → reply.id = statedId body
  blank : Text.trim body = "" → a.Refuses (-32600)
  unread : Text.trim body ≠ "" → ∀ fault, Json.parse body = .error fault → a.Refuses (-32700)
  misshapen : ∀ value, Json.parse body = .ok value → (∀ method, ¬ Calls value method) → a.Refuses (-32600)
  unknown : ∀ value method, Json.parse body = .ok value → Calls value method →
    method ∉ ["initialize", "tools/list", "tools/call", "ping"] → ¬ WantsNone body → a.Refuses (-32601)
  success : ∀ value method, Json.parse body = .ok value → Calls value method →
    method ∈ ["initialize", "tools/list", "ping"] → ¬ WantsNone body → a.Succeeds

end Answer

section
variable (registry : Tool.Registry) (info : ServerInfo) (now : Int) (session : Option String) (sessions : SessionTable)

theorem answer_unknown {call : Rpc.Request} (kind : Method.ofName call.method = .unknown) :
    answer registry info now call session sessions =
      (.ok ⟨some (.methodNotFound call.idOrNull call.method), session, false⟩, sessions) := by
  simp only [answer, kind]

theorem answer_succeeds {call : Rpc.Request} (kind : call.method ∈ ["initialize", "tools/list", "ping"]) {a : Answer}
    (answered : (answer registry info now call session sessions).1 = .ok a) : a.Succeeds := by
  simp only [List.mem_cons, List.not_mem_nil, or_false] at kind
  rcases kind with handshake | list | ping
  · simp only [answer, (ofName_handshake _).mpr handshake] at answered
    cases answered
    exact ⟨_, rfl, rfl⟩
  · simp only [answer, (ofName_tools _).1.mpr list] at answered
    obtain ⟨reply, replied, rfl⟩ := map_ok_iff.mp answered
    obtain ⟨listed, _, rfl⟩ := map_ok_iff.mp replied
    exact ⟨_, rfl, rfl⟩
  · simp only [answer, (ofName_ping _).mpr ping] at answered
    cases answered
    exact ⟨_, rfl, rfl⟩

theorem dispatch_loud {body : String} {call : Rpc.Request} (read : parse body = .ok call)
    (loud : ¬ call.isNotification = true) :
    dispatch registry info now body session sessions = answer registry info now call session sessions := by
  simp only [dispatch, read, if_neg loud]
  cases answered : answer registry info now call session sessions with
  | mk result after => cases result <;> rfl

theorem dispatch_honours {body : String} {a : Answer}
    (answered : (dispatch registry info now body session sessions).1 = .ok a) : a.Honours body := by
  have suits := dispatch_suits registry info now session sessions body answered
  have refused {refusal : Rpc.Reply} (same : parse body = .error refusal) : a.reply = some refusal := by
    rw [dispatch_refused same] at answered
    cases answered
    rfl
  have loud {method : String} (called : method? body = some method) (loud : ¬ WantsNone body) :
      ∃ call, call.method = method ∧ ¬ "notifications/".toList <+: method.toList ∧
        (answer registry info now call session sessions).1 = .ok a := by
    obtain ⟨call, read, rfl⟩ := parse_of_method called
    obtain ⟨stated, noteless⟩ := not_or.mp ((holds_of_parse read).wantsNone_iff.not.mp loud)
    rw [dispatch_loud registry info now session sessions read stated] at answered
    exact ⟨call, rfl, noteless, answered⟩
  refine ⟨suits.silent, suits.id, ?blank, ?unread, ?misshapen, ?unknown, ?success⟩
  case blank => exact fun blank => ⟨_, refused (parse_of_blank blank), rfl⟩
  case unread => exact fun solid fault unread => ⟨_, refused (parse_of_unread solid unread), rfl⟩
  case misshapen =>
    intro value read shapeless
    obtain ⟨id, details, same⟩ := parse_of_misshapen read (method?_eq_none read shapeless)
    exact ⟨_, refused same, rfl⟩
  case unknown =>
    intro value method read calls other wanted
    obtain ⟨call, rfl, noteless, answered⟩ := loud (method?_eq_some.mpr ⟨value, read, calls⟩) wanted
    rw [answer_unknown _ _ _ _ _ (ofName_unknown other noteless)] at answered
    cases answered
    exact ⟨_, rfl, rfl⟩
  case success =>
    intro value method read calls kind wanted
    obtain ⟨call, rfl, _, answered⟩ := loud (method?_eq_some.mpr ⟨value, read, calls⟩) wanted
    exact answer_succeeds _ _ _ _ _ kind answered

end

/-! ## Sessions -/

/-- What a handshake does to the sessions: it stays in the one it names, which is refreshed, or gets a new one. -/
inductive Answer.Housed (now : Int) (named : Option String) (sessions : SessionTable) (a : Answer) :
    SessionTable → Prop where
  | known (id : String) (names : named = some id) (known : sessions.contains id = true) (kept : a.session = some id)
      (old : a.created = false) : Housed now named sessions a (sessions.refresh now id)
  | minted (new : Session) (after : SessionTable) (unknown : ∀ id, named = some id → sessions.contains id = false)
      (added : after.sessions = sessions.sessions ++ [new]) (fresh : sessions.Minted → new.id ∉ sessions.ids)
      (given : a.session = some new.id) (young : a.created = true) : Housed now named sessions a after

section
variable (info : ServerInfo) (now : Int) (session : Option String) (sessions : SessionTable)

theorem ensure_houses {a : Answer} (given : a.session = some (sessions.ensure now session).1.id)
    (flagged : a.created = (sessions.ensure now session).2.1) :
    a.Housed now session sessions (sessions.ensure now session).2.2 := by
  by_cases known : ∃ id, session = some id ∧ sessions.contains id = true
  · obtain ⟨id, rfl, known⟩ := known
    obtain ⟨s, same, ensured⟩ : ∃ s, s.id = id ∧ sessions.ensure now (some id) = (s, false, sessions.refresh now id) :=
      SessionTable.ensure_known known
    rw [ensured] at given flagged ⊢
    exact .known id rfl known (same ▸ given) flagged
  · have unknown : ∀ id, session = some id → sessions.contains id = false :=
      fun id names => Bool.eq_false_iff.mpr fun found => known ⟨id, names, found⟩
    have ensured : sessions.ensure now session = ((sessions.create now).1, true, (sessions.create now).2) := by
      cases session with
      | none => rfl
      | some id => exact SessionTable.ensure_unknown (unknown id rfl)
    rw [ensured] at given flagged ⊢
    exact .minted _ _ unknown rfl (SessionTable.Minted.fresh now) given flagged

theorem dispatch_houses {body : String} (handshake : method? body = some "initialize") (registry : Tool.Registry) :
    ∃ a t, dispatch registry info now body session sessions = (.ok a, t) ∧ a.Housed now session sessions t ∧
      ∀ reply, a.reply = some reply → ∃ result, reply.outcome = .result result ∧
        result.member? "sessionId" = a.session.map .str := by
  obtain ⟨call, read, method⟩ := parse_of_method handshake
  refine ⟨_, _, dispatch_handshake registry info now session sessions read method, ?_, ?_⟩
  · exact ensure_houses now session sessions rfl rfl
  · intro reply given
    split at given <;> cases given
    exact ⟨_, rfl, rfl⟩

/-- The dispatcher answers every body for which the tools can be listed, with what is owed to it. If the body is no
well-formed call, neither the tools nor the sessions matter. No call but a handshake changes a session or leaves its
own; a handshake stays in a known session or gets a new one, and a reply to it names that session. -/
theorem dispatch_answers {registry : Tool.Registry} {listed : List Tool.Descriptor} (lists : registry.list = .ok listed)
    (body : String) :
    ∃ a t, dispatch registry info now body session sessions = (.ok a, t) ∧ a.Honours body ∧
      (method? body = none → ∀ other clock others,
        dispatch other info clock body session others = (.ok a, others)) ∧
      (method? body ≠ some "initialize" → t = sessions ∧ a.session = session ∧ a.created = false) ∧
      (method? body = some "initialize" → a.Housed now session sessions t ∧
        ∀ reply, a.reply = some reply → ∃ result, reply.outcome = .result result ∧
          result.member? "sessionId" = a.session.map .str) := by
  cases dispatched : dispatch registry info now body session sessions with
  | mk result t =>
    cases result with
    | error crash =>
      obtain ⟨_, unlisted⟩ :=
        (dispatch_crashes registry info now session sessions body crash).mp (congrArg Prod.fst dispatched)
      cases lists.symm.trans unlisted
    | ok a =>
      refine ⟨a, t, rfl, dispatch_honours registry info now session sessions (congrArg Prod.fst dispatched), ?_, ?_, ?_⟩
      · intro malformed other clock others
        obtain ⟨refusal, refused⟩ := parse_of_malformed malformed
        rw [dispatch_refused refused] at dispatched ⊢
        cases dispatched
        rfl
      · intro plain
        have plain : ∀ call, parse body = .ok call → call.method ≠ "initialize" := fun call read same =>
          plain (same ▸ (holds_of_parse read).method)
        obtain ⟨result, same⟩ := dispatch_plain registry info now session sessions plain
        rw [same] at dispatched
        cases result <;> cases dispatched
        exact ⟨rfl, rfl, rfl⟩
      · intro handshake
        obtain ⟨other, after, same, housed⟩ := dispatch_houses info now session sessions handshake registry
        cases dispatched.symm.trans same
        exact housed

end

private def toolless : Tool.Registry := ⟨.ok [], fun _ _ => .text ""⟩

private def strayCall : String := "\x7b\"jsonrpc\":\"2.0\",\"id\":7,\"method\":\"Ping\"\x7d"

theorem dispatch_answers_stray : ∃ a, dispatch toolless {} 0 strayCall (some "made-up") {} = (.ok a, {}) ∧
    a.session = some "made-up" ∧ a.Refuses (-32601) := by
  obtain ⟨a, t, dispatched, honours, _, plain, _⟩ :=
    dispatch_answers {} 0 (some "made-up") {} (rfl : toolless.list = .ok []) strayCall
  have called : method? strayCall = some "Ping" := by decide +kernel
  have loud : ¬ WantsNone strayCall := by
    rintro ⟨method, same, unstated | note⟩
    · exact absurd (congrArg Json.text unstated) (by decide +kernel)
    · cases called.symm.trans same
      exact absurd note (by decide +kernel)
  obtain ⟨rfl, kept, _⟩ := plain (by rw [called]; decide)
  obtain ⟨value, read, calls⟩ := method?_eq_some.mp called
  exact ⟨a, dispatched, kept, honours.unknown value "Ping" read calls (by decide) loud⟩

end Dispatch

end ToolBridge

import ToolBridge.Proofs.HubContents
import ToolBridge.Proofs.HubLaws
import ToolBridge.Proofs.ReadFields
import ToolBridge.Proofs.ServerInvariants
import ToolBridge.Proofs.WrittenResponses

/-! What clients bring into the fields that a server writes. The names are the server's own, and every value that comes
from a client was a field of a request before: it has been on a line, so it fits on one. A session that was named in
the target of a request, where any text can stand, goes no further than the queue. -/

namespace ToolBridge

/-! ## Responses with fields of the server's own -/

namespace Http

/-- The names of all fields that a server puts into its answers. -/
def ownNames : List String :=
  ["Content-Type", "Connection", "WWW-Authenticate", "Allow", "Access-Control-Allow-Methods",
    "Access-Control-Allow-Headers", "Access-Control-Allow-Origin", "Access-Control-Expose-Headers", "Vary",
    Access.sessionHeader]

/-- Fields with names of the server's own, and with values that fit on lines. -/
def Plain (fields : List (String × String)) : Prop :=
  ∀ field ∈ fields, field.1 ∈ ownNames ∧ Text.Unbroken field.2

theorem Plain.append {first last : List (String × String)} (plain : Plain first) (also : Plain last) :
    Plain (first ++ last) := fun field member =>
  (List.mem_append.mp member).elim (plain field) (also field)

theorem plain_one {name value : String} (own : name ∈ ownNames) (single : Text.Unbroken value) :
    Plain [(name, value)] := by
  intro field member
  obtain rfl := List.mem_singleton.mp member
  exact ⟨own, single⟩

theorem plain_stock : Plain Response.stockFields := by
  have stock : ∀ field ∈ Response.stockFields, field.1 ∈ ownNames ∧ Text.Unbroken field.2 := by decide +kernel
  exact stock

theorem named_own {name : String} (own : name ∈ ownNames) :
    Response.Named name ∧ Response.isFraming name = false := by
  have names : ∀ name ∈ ownNames, ':' ∉ name.toList ∧ Text.Crlfless name ∧ Text.trim name = name ∧
      Response.isFraming name = false := by decide +kernel
  obtain ⟨plain, single, trimmed, other⟩ := names name own
  exact ⟨⟨plain, single, trimmed⟩, other⟩

namespace Response

/-- Nothing in the head is of a client's making but values that fit on lines. -/
structure Tame (r : Response) : Prop where
  status : r.status < 1000
  reason : r.reason = reasonPhrase r.status
  plain : Plain r.headers

variable {r : Response}

theorem Stock.tame (stock : r.Stock) : r.Tame :=
  ⟨stock.status, stock.reason, fun field member => plain_stock field (stock.fields member)⟩

theorem Tame.append (tame : r.Tame) {more : List (String × String)} (plain : Plain more) :
    Tame { r with headers := r.headers ++ more } :=
  ⟨tame.status, tame.reason, tame.plain.append plain⟩

theorem Tame.closing (tame : r.Tame) (close : Bool) : (r.closing close).Tame := by
  cases close with
  | false => exact tame
  | true => exact tame.append (plain_one (by decide +kernel) (by decide))

theorem crlfless_reasonPhrase (status : Nat) : Text.Crlfless (reasonPhrase status) := by
  unfold reasonPhrase
  split <;> decide

theorem Tame.fits (tame : r.Tame) : r.Fits where
  status := Nat.lt_trans tame.status (by decide)
  reason := tame.reason ▸ crlfless_reasonPhrase r.status
  names := fun field member => (named_own (tame.plain field member).1).1
  values := fun field member => (tame.plain field member).2.crlfless

/-- Such a response is read back with its status, its body and the names of its fields. -/
theorem Tame.read_back (tame : r.Tame) : ∃ read, ofBytes r.toBytes = .ok read ∧ read.status = r.status ∧
    read.body = r.body ∧ read.headers.map (·.1) = r.headers.map (·.1) := by
  have own : r.ownFields = r.headers := List.filter_eq_self.mpr fun field member => by
    simp [(named_own (tame.plain field member).1).2]
  have read := ofBytes_toBytes tame.fits (Or.inr rfl)
  rw [List.append_nil, own] at read
  exact ⟨_, read, rfl, rfl, by simp⟩

end Response

end Http

theorem Session.unbroken_idOf (n : Nat) : Text.Unbroken (Session.idOf n) := by
  intro member
  rw [Session.idOf, String.toList_ofList] at member
  rcases List.mem_append.mp member with zero | digit
  · exact absurd (List.eq_of_mem_replicate zero) (by decide)
  · have spelled := Text.spells_toDigits (by decide) (Nat.le_refl 16) n
    have digits := spelled.digits (by decide) (Nat.le_refl 16) '\n' (by rwa [String.toList_ofList])
    exact absurd digits (by decide)

theorem Http.Fields.Unbroken.get? {fields : Http.Fields} (unbroken : fields.Unbroken) {name value : String}
    (found : fields.get? name = some value) : Text.Unbroken value :=
  unbroken _ (Entries.mem_of_get? found)

theorem Access.plain_originHeaders (c : Config) {r : Http.Request} (unbroken : Http.Fields.Unbroken r.headers) :
    Http.Plain (Access.originHeaders c r) := by
  unfold Access.originHeaders
  split
  next origin named =>
    split
    · have allowed : Http.Plain [("Access-Control-Allow-Origin", origin)] :=
        Http.plain_one (by decide +kernel) (unbroken.get? named)
      have others : Http.Plain [("Access-Control-Expose-Headers", sessionHeader), ("Vary", "Origin")] := by
        have fields : ∀ field ∈ [("Access-Control-Expose-Headers", sessionHeader), ("Vary", "Origin")],
            field.1 ∈ Http.ownNames ∧ Text.Unbroken field.2 := by decide +kernel
        exact fields
      exact allowed.append others
    · exact List.forall_mem_nil _
  · exact List.forall_mem_nil _

/-! ## What waits for an answer -/

/-- The session that an answer names fits on a line. -/
def Dispatch.Answer.Unbroken (a : Answer) : Prop := ∀ session, a.session = some session → Text.Unbroken session

/-- The session of a request whose answer goes back on its connection fits on a line. -/
def Queue.Pending.Unbroken (p : Pending) : Prop :=
  p.route ≠ .stream → ∀ session, p.session = some session → Text.Unbroken session

theorem SessionTable.unbroken_ensure (now : Int) {named : Option String} (t : SessionTable)
    (single : ∀ id, named = some id → Text.Unbroken id) : Text.Unbroken (t.ensure now named).1.id := by
  unfold ensure
  split
  next known found =>
    obtain ⟨id, name, there⟩ := Option.bind_eq_some_iff.mp found
    have same : known.id = id := by simpa using List.find?_some there
    exact same ▸ single id name
  next => exact Session.unbroken_idOf _

namespace Server

theorem Tick.unbroken_perform (registry : Tool.Registry) (now : Int) {p : Queue.Pending} (h : Hub)
    (single : ∀ session, p.session = some session → Text.Unbroken session) :
    (perform registry now p h).1.Unbroken := by
  by_cases handshake : ∃ call, Rpc.Request.parse p.body = .ok call ∧ call.method = "initialize"
  · obtain ⟨call, read, method⟩ := handshake
    rw [perform_handshake registry now h read method]
    rintro _ ⟨⟩
    exact h.sessions.unbroken_ensure now single
  · obtain ⟨reply, performed⟩ := perform_plain registry now h fun call read method => handshake ⟨call, read, method⟩
    rw [performed]
    exact single

/-- What clients named fits on lines wherever it is yet to be sent back. -/
structure Hub.Unbroken (h : Hub) : Prop where
  queued : ∀ p ∈ h.queue.items, p.Unbroken
  answered : ∀ ticket a, h.slots.slots.get? ticket = some (.answered a) → a.Unbroken

namespace Hub.Unbroken
variable {h after : Hub}

theorem iff_carries : h.Unbroken ↔ h.Carries Queue.Pending.Unbroken Dispatch.Answer.Unbroken :=
  ⟨fun unbroken => ⟨unbroken.queued, unbroken.answered⟩, fun carries => ⟨carries.queued, carries.answered⟩⟩

theorem same (unbroken : h.Unbroken) (queue : after.queue.items = h.queue.items) (slots : after.slots = h.slots) :
    after.Unbroken :=
  iff_carries.mpr ((iff_carries.mp unbroken).same queue slots)

theorem collect (unbroken : h.Unbroken) (ticket : Nat) : Hub.Unbroken { h with slots := h.slots.collect ticket } :=
  iff_carries.mpr ((iff_carries.mp unbroken).collect ticket)

theorem tick (unbroken : h.Unbroken) (registry : Tool.Registry) (now : Int) : (Tick.tick registry now h).2.Unbroken := by
  have carries := iff_carries.mp unbroken
  refine iff_carries.mpr ((carries.take _).foldl fun h' carries' p member => ?_)
  have single := carries.queued p (List.take_subset _ _ member)
  exact carries'.process registry now fun direct => Tick.unbroken_perform registry now h' (single direct)

theorem shutDown (unbroken : h.Unbroken) : h.shutDown.Unbroken :=
  iff_carries.mpr ((iff_carries.mp unbroken).shutDown fun _ direct single => single direct)

theorem route (unbroken : h.Unbroken) (now : Int) (c : Config) {r : Http.Request}
    (single : Http.Fields.Unbroken r.headers) (connection : Nat) : (Route.route now c r connection h).2.Unbroken := by
  have carries := iff_carries.mp unbroken
  have result := Route.route_result now c r connection h
  generalize Route.route now c r connection h = routed at result ⊢
  obtain ⟨routed, after⟩ := routed
  refine iff_carries.mpr ?_
  cases result with
  | told _ _ => exact carries
  | queued _ _ _ taken => exact (carries.push (fun direct => absurd rfl direct) taken).same rfl rfl
  | turnedAway _ => exact carries.same rfl rfl
  | parked taken => exact ((carries.push (fun _ _ named => single.get? named) taken).make).same rfl rfl
  | opened _ finds => cases finds <;> exact carries.same rfl rfl
  | closed _ _ _ _ => exact carries.same rfl rfl

end Hub.Unbroken

/-! ## What is said -/

/-- What a connection says is in one piece: the values of its fields fit on lines, and a response is read back with its
status, its body and the names of its fields. -/
def Utterance.Whole : Utterance → Prop
  | .response r => (∀ field ∈ r.headers, Text.Unbroken field.2) ∧
      ∃ read, Http.Response.ofBytes r.toBytes = .ok read ∧ read.status = r.status ∧ read.body = r.body ∧
        read.headers.map (·.1) = r.headers.map (·.1)
  | .opening headers _ => ∀ field ∈ headers, Text.Unbroken field.2
  | .silence | .frame _ | .comment => True

theorem Utterance.whole_response {r : Http.Response} (tame : r.Tame) : (Utterance.response r).Whole :=
  ⟨fun field member => (tame.plain field member).2, tame.read_back⟩

theorem Route.tame_slotResponse {slot : Queue.Slot} (single : ∀ a, slot = .answered a → a.Unbroken) :
    (slotResponse slot).Tame := by
  have down : shuttingDown.Tame := stock_shuttingDown.tame
  cases slot with
  | answered a =>
    have session := single a rfl
    obtain ⟨reply, named, created⟩ := a
    have plain : (answerResponse ⟨reply, none, created⟩).Tame := by
      cases reply with
      | none => exact (Http.Response.stock_ofStatus (by decide)).tame
      | some reply => exact (Http.Response.stock_json (by decide) _).tame
    cases named with
    | none => exact plain
    | some id => exact plain.append (Http.plain_one (by decide +kernel) (session id rfl))
  | waiting => exact down
  | closed => exact down

namespace Connection
variable {c : Connection} {h : Hub} {config : Config} {now : Int} {id : Nat}

/-- What waits to be sent with an answer is plain. -/
def Unbroken (c : Connection) : Prop :=
  ∀ ticket keepAlive headers, c.phase = .parked ticket keepAlive headers → Http.Plain headers

theorem found_unbroken {limit : Nat} {r : Http.Request} {rest : Bytes} (found : c.found? limit = some (.request r rest)) :
    Http.Fields.Unbroken r.headers := by
  have given := (Http.readRequest_gives limit c.inbox).value
  unfold found? at found
  split at found
  next read =>
    cases found
    exact given _ (by rw [read]; rfl) r rfl
  · cases found
  · cases found
  next read =>
    split at found
    · cases found
    · split at found <;> cases found
      exact given _ (by rw [read]; rfl) r rfl

theorem found_of_next {limit : Nat} {r : Http.Request} {rest : Bytes} (next : c.nextRequest? limit = some (r, rest)) :
    c.found? limit = some (.request r rest) := by
  obtain ⟨_, read | ⟨read, ended, rfl⟩⟩ := nextRequest?_eq_some next
  · simp only [found?, read]
  · simp only [found?, read, if_neg ended]

theorem routed_whole {r : Http.Request} (single : Http.Fields.Unbroken r.headers) :
    ((Route.route now config r id h).1.utterance config r).Whole := by
  have worded := Route.route_worded now config r id h
  have origin := Access.plain_originHeaders config single
  generalize (Route.route now config r id h).1 = routed at worded ⊢
  cases worded with
  | rejected rejection => exact Utterance.whole_response (rejection.stock.tame.closing _)
  | told _ stock _ => exact Utterance.whole_response ((stock.tame.append origin).closing _)
  | turnedAway _ =>
    have down : (Route.slotResponse .closed).Tame := Route.tame_slotResponse fun _ same => by cases same
    exact Utterance.whole_response ((down.append origin).closing _)
  | parked _ => trivial
  | @opened session _ _ owned =>
    have named : Text.Unbroken session := by
      rcases owned with header | ⟨n, rfl⟩
      · exact single.get? header
      · exact Session.unbroken_idOf n
    intro field member
    rcases List.mem_cons.mp member with rfl | later
    · exact named
    · exact (origin field later).2

theorem found_whole {limit : Nat} {found : Found} (here : c.found? limit = some found) :
    (found.utterance now id config h).Whole := by
  cases found with
  | request r rest => exact routed_whole (found_unbroken here)
  | fault flaw =>
    simp only [Found.utterance]
    cases told : flaw.response? with
    | none => trivial
    | some response => exact Utterance.whole_response (Http.Fault.stock_response? told).tame
  | nothing => trivial

theorem slot_whole {ticket : Nat} {keepAlive : Bool} {headers : List (String × String)} (plain : c.Unbroken)
    (single : h.Unbroken) (phase : c.phase = .parked ticket keepAlive headers) :
    (Utterance.response ((Route.withHeaders headers (Route.slotResponse (h.slots.poll ticket).1)).closing
      (!keepAlive))).Whole := by
  have slot : (Route.slotResponse (h.slots.poll ticket).1).Tame := Route.tame_slotResponse fun a same => by
    unfold Queue.Slots.poll at same
    split at same <;> cases same
    exact single.answered ticket a (by assumption)
  exact Utterance.whole_response ((slot.append (plain ticket keepAlive headers phase)).closing _)

theorem utterance_whole (plain : c.Unbroken) (single : h.Unbroken) : (c.utterance now id h).Whole := by
  unfold utterance
  split
  next config _ =>
    cases here : c.found? config.maxBodyBytes with
    | none => trivial
    | some found => exact found_whole here
  next ticket keepAlive headers phase =>
    have whole := slot_whole plain single phase
    split
    · trivial
    · exact whole
  · split <;> trivial
  · trivial

theorem overtime_whole (plain : c.Unbroken) (timer : Timer) : (c.overtime timer).Whole := by
  unfold overtime
  split
  next ticket keepAlive headers phase =>
    exact Utterance.whole_response ((Route.stock_timedOut.tame.append (plain ticket keepAlive headers phase)).closing _)
  · trivial
  · trivial

theorem parting_whole (plain : c.Unbroken) (single : h.Unbroken) : (c.parting h).Whole := by
  unfold parting
  split
  next phase => exact slot_whole plain single phase
  · trivial

end Connection

structure Unbroken (s : Server) : Prop where
  hub : s.hub.Unbroken
  connections : ∀ entry ∈ s.connections, entry.2.Unbroken

theorem Hub.Unbroken.law : Hub.Law (fun r => Http.Fields.Unbroken r.headers)
    (fun before after => before.Unbroken → after.Unbroken) where
  refl _ := id
  trans first second := second ∘ first
  route now c r connection h fields single := single.route now c fields connection
  fail connection session failed outbox h single := by
    rw [failStream_eq]
    exact single.same rfl rfl
  ending connection session h single := by
    rw [endStream_eq]
    exact single.same rfl rfl
  touch _ _ _ single := single.same rfl rfl
  receive _ _ single := single.same rfl rfl
  collect _ ticket single := single.collect ticket

theorem Hub.Unbroken.invariant : Invariant Hub.Unbroken Connection.Unbroken where
  begun _ := Connection.parks_of_ticket? rfl
  phase _ _ same plain := Connection.Parks.phase plain same
  moves single plain moves :=
    ⟨law.moves moves (fun _ _ _ next => Connection.found_unbroken (Connection.found_of_next next)) single,
      Connection.parks_moves plain moves fun _ _ _ next config =>
        Access.plain_originHeaders config (Connection.found_unbroken (Connection.found_of_next next))⟩
  finish id c _ single := law.finish id c _ single
  tick registry now _ single := single.tick registry now
  sweep now _ single := iff_carries.mpr ((iff_carries.mp single).sweep now)
  shutDown _ single := single.shutDown
  reopen _ single := single.same rfl rfl
  emit _ _ single := single.same rfl rfl
  configure _ _ single := single.same rfl rfl

/-- All that connections of a stopping server are told is responses, each in one piece. -/
theorem finishAll_whole {connections : List (Nat × Connection)} (plain : ∀ entry ∈ connections, entry.2.Unbroken)
    {h : Hub} (single : h.Unbroken) : (finishAll connections h).2.Unbroken ∧
      ∀ id data, .data id data ∈ (finishAll connections h).1 →
        ∃ response, (Utterance.response response).Whole ∧ data = response.toBytes := by
  refine ⟨Hub.Unbroken.invariant.finishAll connections single, fun id data member => ?_⟩
  obtain ⟨c, after, inside, single', spoken, rfl⟩ := finishAll_data Hub.Unbroken.invariant.finish single member
  have whole := Connection.parting_whole (plain _ inside) single'
  obtain ⟨response, parting⟩ := (c.parting_cases after).resolve_left spoken
  exact ⟨response, parting ▸ whole, by rw [parting, Utterance.bytes]⟩

namespace Unbroken
variable {s : Server}

theorem initial (config : Config) (info : ServerInfo) : (ofConfig config info).Unbroken :=
  ⟨⟨List.forall_mem_nil _, fun _ _ found => by cases found⟩, List.forall_mem_nil _⟩

theorem run (unbroken : s.Unbroken) (moves : List Move) : (s.run moves).Unbroken :=
  have kept := Hub.Unbroken.invariant.run ⟨unbroken.hub, unbroken.connections⟩ moves
  ⟨kept.hub, kept.connections⟩

end Unbroken

/-- No client can split an answer. Whatever has happened to a server, what a connection is sent when it acts, when it has
waited for too long, and when the server stops, is said in one piece. -/
theorem answers_unsplit (config : Config) (info : ServerInfo) (moves : List Move) :
    (∀ id now c step, ((ofConfig config info).run moves).connections.get? id = some c →
      c.step? now id ((ofConfig config info).run moves).hub = some step →
      (c.utterance now id ((ofConfig config info).run moves).hub).Whole ∧
        step.sent = if c.heard then (c.utterance now id ((ofConfig config info).run moves).hub).bytes else []) ∧
    (∀ timer id now c step, ((ofConfig config info).run moves).connections.get? id = some c →
      c.lapse? timer now id ((ofConfig config info).run moves).hub = some step →
      (c.overtime timer).Whole ∧ step.sent = if c.heard then (c.overtime timer).bytes else []) ∧
    ∀ id data, .data id data ∈ ((ofConfig config info).run moves).stop.1 →
      ∃ response, (Utterance.response response).Whole ∧ data = response.toBytes := by
  have unbroken := (Unbroken.initial config info).run moves
  refine ⟨?_, ?_, ?_⟩
  · intro id now c step found taken
    exact ⟨Connection.utterance_whole (unbroken.connections _ (Entries.mem_of_get? found)) unbroken.hub,
      Connection.sent_step taken⟩
  · intro timer id now c step found lapsed
    exact ⟨Connection.overtime_whole (unbroken.connections _ (Entries.mem_of_get? found)) timer,
      Connection.sent_lapse lapsed⟩
  · unfold stop
    split
    · exact (finishAll_whole unbroken.connections unbroken.hub.shutDown).2
    · exact fun _ _ member => absurd member List.not_mem_nil

end Server

end ToolBridge

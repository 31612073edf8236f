import ToolBridge.Proofs.RoutedRequests
import ToolBridge.Proofs.ServerActions

/-! What a connection has to say when it acts, before that becomes octets: nothing, a response, the head of an event
stream or a frame. This is what is sent as long as the other side reads, and all responses are put together from stock
ones, from what a page of another origin is told, and from the id of a session. -/

namespace ToolBridge

namespace Http

/-- The response that is the last on its connection says so. -/
def Response.closing (close : Bool) (r : Response) : Response := if close then r.withHeader "Connection" "close" else r

/-- What input that is no request is answered by. -/
def Fault.response? (fault : Fault) : Option Response :=
  fault.status?.map fun status =>
    (Response.json status (Rejection.errorBody fault.message)).withHeader "Connection" "close"

namespace Response

/-- The fields that say the same in every response that has them. -/
def stockFields : List (String × String) :=
  [("Content-Type", "application/json"), ("Connection", "close"), ("WWW-Authenticate", "Bearer"),
    ("Allow", Access.allowedMethods), ("Access-Control-Allow-Methods", Access.allowedMethods),
    ("Access-Control-Allow-Headers",
      "Content-Type, Authorization, X-API-Key, Mcp-Session-Id, MCP-Protocol-Version, Last-Event-ID")]

/-- Nothing but the status and the body is the response's own. -/
structure Stock (r : Response) : Prop where
  status : r.status < 1000
  reason : r.reason = reasonPhrase r.status
  fields : r.headers ⊆ stockFields

theorem stock_ofStatus {status : Nat} (small : status < 1000) : (ofStatus status).Stock :=
  ⟨small, rfl, List.nil_subset _⟩

theorem stock_json {status : Nat} (small : status < 1000) (body : String) : (json status body).Stock :=
  ⟨small, rfl, by simp [json, withBody, ofStatus, stockFields]⟩

theorem Stock.withHeader {r : Response} (stock : r.Stock) {name value : String} (field : (name, value) ∈ stockFields) :
    (r.withHeader name value).Stock :=
  ⟨stock.status, stock.reason, List.append_subset.mpr ⟨stock.fields, by simpa using field⟩⟩

/-- The response does not say that the connection will be closed. -/
def Persistent (r : Response) : Prop := r.header? "Connection" = none

theorem persistent_iff {r : Response} :
    r.Persistent ↔ ∀ field ∈ r.headers, Text.sameLetters field.1 "Connection" = false := by
  simp [Persistent, header?]

theorem persistent_json (status : Nat) (body : String) : (json status body).Persistent := by
  rw [persistent_iff]
  intro field member
  obtain rfl := List.mem_singleton.mp member
  decide +kernel

theorem persistent_ofStatus (status : Nat) : (ofStatus status).Persistent := rfl

theorem Persistent.append {r : Response} (persistent : r.Persistent) {more : List (String × String)}
    (others : ∀ field ∈ more, Text.sameLetters field.1 "Connection" = false) :
    Persistent { r with headers := r.headers ++ more } := by
  rw [persistent_iff] at persistent ⊢
  intro field member
  exact (List.mem_append.mp member).elim (persistent field) (others field)

theorem Persistent.withHeader {r : Response} (persistent : r.Persistent) {name : String} (value : String)
    (other : Text.sameLetters name "Connection" = false) : (r.withHeader name value).Persistent :=
  persistent.append (by simpa using other)

/-- A response that is made the last one says that the connection will be closed. -/
theorem header?_closing {r : Response} (persistent : r.Persistent) (close : Bool) :
    (r.closing close).header? "Connection" = if close then some "close" else none := by
  cases close with
  | false => exact persistent
  | true =>
    have last : Text.sameLetters "Connection" "Connection" = true := by decide +kernel
    have absent : r.headers.find? (fun field => Text.sameLetters field.1 "Connection") = none := by
      simpa [Persistent, header?] using persistent
    simp [closing, Response.withHeader, header?, List.find?_append, absent, last]

theorem header?_closing_closing {r : Response} (said : r.header? "Connection" = some "close") (close : Bool) :
    (r.closing close).header? "Connection" = some "close" := by
  cases close with
  | false => exact said
  | true =>
    obtain ⟨field, found, value⟩ := Option.map_eq_some_iff.mp said
    simp [closing, Response.withHeader, header?, List.find?_append, found, value]

end Response

theorem Fault.stock_response? {fault : Fault} {response : Response} (told : fault.response? = some response) :
    response.Stock := by
  obtain ⟨status, found, rfl⟩ := Option.map_eq_some_iff.mp told
  have small : status < 1000 := by
    cases fault <;> cases found <;> decide
  exact (Response.stock_json small _).withHeader (by decide +kernel)

theorem Fault.header?_response? {fault : Fault} {response : Response} (told : fault.response? = some response) :
    response.header? "Connection" = some "close" := by
  obtain ⟨status, _, rfl⟩ := Option.map_eq_some_iff.mp told
  exact Response.header?_closing (Response.persistent_json status _) true

end Http

theorem Access.originHeaders_names (c : Config) (r : Http.Request) : ∀ field ∈ Access.originHeaders c r,
    field.1 ∈ ["Access-Control-Allow-Origin", "Access-Control-Expose-Headers", "Vary"] := by
  intro field member
  unfold Access.originHeaders at member
  split at member
  · split at member
    · simp only [List.mem_cons, List.not_mem_nil, or_false] at member
      rcases member with rfl | rfl | rfl <;> simp
    · cases member
  · cases member

theorem Access.originHeaders_others (c : Config) (r : Http.Request) :
    ∀ field ∈ Access.originHeaders c r, Text.sameLetters field.1 "Connection" = false := by
  have others : ∀ name ∈ ["Access-Control-Allow-Origin", "Access-Control-Expose-Headers", "Vary"],
      Text.sameLetters name "Connection" = false := by decide +kernel
  exact fun field member => others field.1 (Access.originHeaders_names c r field member)

theorem Rejection.stock (rejection : Rejection) : rejection.response.Stock := by
  have small : rejection.status < 1000 := by
    have known := rejection.status_mem
    simp only [List.mem_cons, List.not_mem_nil, or_false] at known
    omega
  have plain := Http.Response.stock_json small (Rejection.errorBody rejection.message)
  cases rejection with
  | unauthorized => exact (plain.withHeader (by decide +kernel)).withHeader (by decide +kernel)
  | methodNotAllowed => exact plain.withHeader (by decide +kernel)
  | _ => exact plain

theorem Rejection.header?_connection (rejection : Rejection) :
    rejection.response.header? "Connection" = if rejection.closes then some "close" else none := by
  have plain := Http.Response.persistent_json rejection.status (Rejection.errorBody rejection.message)
  cases rejection with
  | unauthorized => exact Http.Response.header?_closing (plain.withHeader "Bearer" (by decide +kernel)) true
  | methodNotAllowed => exact plain.withHeader _ (by decide +kernel)
  | _ => exact plain

namespace Server

inductive Utterance where
  | silence
  | response (response : Http.Response)
  /-- The head of an event stream, and where a client without a session is to send its requests. -/
  | opening (headers : List (String × String)) (endpoint : Option EventStream.Frame)
  | frame (frame : EventStream.Frame)
  /-- The comment of a stream that nothing else is written to. -/
  | comment

def Utterance.bytes : Utterance → Bytes
  | .silence => []
  | .response r => r.toBytes
  | .opening headers endpoint =>
    Text.utf8 (EventStream.head headers ++ endpoint.elim "" EventStream.Frame.encode)
  | .frame f => Text.utf8 f.encode
  | .comment => Text.utf8 EventStream.keepAliveComment

namespace Route

def openingHeaders (c : Config) (r : Http.Request) (session : String) : List (String × String) :=
  (Access.sessionHeader, session) :: Access.originHeaders c r

def openingFrame? (c : Config) (r : Http.Request) (session : String) : Option EventStream.Frame :=
  if (r.header? Access.sessionHeader).isSome then none else some (.endpoint (endpointUrl c session))

end Route

/-- What is said about a request as soon as it is routed. -/
def Routed.utterance (c : Config) (r : Http.Request) : Routed → Utterance
  | .respond response close => .response (response.closing (close || !r.keepsAlive))
  | .park _ _ => .silence
  | .stream session _ _ => .opening (Route.openingHeaders c r session) (Route.openingFrame? c r session)

/-! ## How requests are answered -/

namespace Route

theorem stock_shuttingDown : shuttingDown.Stock :=
  (Http.Response.stock_json (by decide) _).withHeader (by decide +kernel)

theorem stock_timedOut : timedOut.Stock := Http.Response.stock_json (by decide) _

/-- All that can be said about a request as soon as it is routed; it is turned away where the queue is closed. -/
inductive Worded (c : Config) (r : Http.Request) (shut : Bool) : Routed → Prop where
  | rejected (rejection : Rejection) : Worded c r shut (reject rejection)
  | told {response : Http.Response} (accepted : response.status < 400) (stock : response.Stock)
      (persistent : response.Persistent) :
      Worded c r shut (.respond (withHeaders (Access.originHeaders c r) response) false)
  | turnedAway (closed : shut = true) :
      Worded c r shut (.respond (withHeaders (Access.originHeaders c r) shuttingDown) false)
  | parked (ticket : Nat) : Worded c r shut (.park ticket (Access.originHeaders c r))
  | opened {session : String} (outbox : Nat) (asks : r.method = "GET")
      (owned : r.header? Access.sessionHeader = some session ∨ ∃ n, session = Session.idOf n) :
      Worded c r shut (.stream session outbox (EventStream.head (openingHeaders c r session) ++
        (openingFrame? c r session).elim "" EventStream.Frame.encode))

theorem shut_of_push? {p : Queue.Pending} {queue : Queue} (full : queue.push? p = none) : queue.closed = true := by
  unfold Queue.push? at full
  split at full
  · assumption
  · cases full

section
variable (now : Int) (c : Config) (r : Http.Request) (connection : Nat) (h : Hub)

theorem preflight_worded (shut : Bool) : Worded c r shut (preflight c r) := by
  unfold preflight
  split
  · exact .rejected _
  · refine .told (by decide) (((Http.Response.stock_ofStatus (by decide)).withHeader ?_).withHeader ?_)
      (((Http.Response.persistent_ofStatus 204).withHeader _ ?_).withHeader _ ?_) <;> decide +kernel

theorem post_worded : Worded c r h.queue.closed (post now r connection (Access.originHeaders c r) h).1 := by
  unfold post
  split
  next session _ =>
    simp only [postOnStream]
    cases known : h.sessions.contains session with
    | false =>
      simp only [Hub.touch_unknown known, Bool.not_false, if_true]
      exact .rejected _
    | true =>
      simp only [Hub.touch_known known, Bool.not_true, Bool.false_eq_true, if_false]
      cases taken : h.queue.push? (pending r connection (some session) .stream) with
      | some queue => exact .told (by decide) (Http.Response.stock_ofStatus (by decide)) (Http.Response.persistent_ofStatus 202)
      | none => exact .turnedAway (shut_of_push? taken)
  next =>
    have queue : (recognise now r (r.header? Access.sessionHeader) h).2.queue = h.queue := by
      rw [recognise_seen]
    simp only [postDirect]
    split
    · exact .rejected _
    next after same =>
      rw [same] at queue
      dsimp only at queue
      split
      · exact .parked _
      next taken => exact .turnedAway (queue ▸ shut_of_push? taken)

theorem openStream_worded (asks : r.method = "GET") (shut : Bool) :
    Worded c r shut (openStream now c r connection (Access.originHeaders c r) h).1 := by
  unfold openStream streamSession
  cases named : r.header? Access.sessionHeader with
  | none =>
    have worded : Worded c r shut (.stream (h.sessions.create now).1.id
        (h.streams.register connection (h.sessions.create now).1.id (resumeAfter r)).1.outbox _) :=
      .opened _ asks (Or.inr ⟨_, rfl⟩)
    simp only [openingFrame?, named, Option.isSome_none, Bool.false_eq_true, if_false] at worded
    exact worded
  | some session =>
    cases known : h.sessions.contains session with
    | false =>
      simp only [Hub.touch_unknown known, Bool.false_eq_true, if_false]
      exact .rejected _
    | true =>
      have worded : Worded c r shut (.stream session
          (h.streams.register connection session (resumeAfter r)).1.outbox _) := .opened _ asks (Or.inl named)
      simp only [openingFrame?, named, Option.isSome_some, if_true] at worded
      simp only [Hub.touch_known known, if_true]
      exact worded

theorem route_worded : Worded c r h.queue.closed (route now c r connection h).1 := by
  simp only [route]
  split
  · exact preflight_worded c r _
  split
  · exact .rejected _
  split
  · exact .told (show 200 < 400 by decide) (Http.Response.stock_json (by decide) _) (Http.Response.persistent_json 200 _)
  split
  · exact .rejected _
  split
  · exact post_worded now c r connection h
  split
  next asks => exact openStream_worded now c r connection h asks.1 _
  split
  · unfold closeSession
    cases r.header? Access.sessionHeader with
    | none => exact .rejected _
    | some session =>
      dsimp only
      cases (h.sessions.close session).1 with
      | true => exact .told (by decide) (Http.Response.stock_ofStatus (by decide)) (Http.Response.persistent_ofStatus 204)
      | false => exact .rejected _
  · exact .rejected _

end

theorem persistent_answerResponse (a : Dispatch.Answer) : (answerResponse a).Persistent := by
  have other : Text.sameLetters Access.sessionHeader "Connection" = false := by decide +kernel
  obtain ⟨reply, session, created⟩ := a
  cases reply with
  | none => cases session with
    | none => exact Http.Response.persistent_ofStatus 202
    | some session => exact (Http.Response.persistent_ofStatus 202).withHeader session other
  | some reply => cases session with
    | none => exact Http.Response.persistent_json 200 _
    | some session => exact (Http.Response.persistent_json 200 _).withHeader session other

/-- What the caller of a queued request is answered. -/
def slotResponse : Queue.Slot → Http.Response
  | .answered answer => answerResponse answer
  | _ => shuttingDown

end Route

/-! ## What connections say -/

namespace Connection

/-- What is written reaches the other side. -/
def heard (c : Connection) : Bool := c.peer = .present || c.peer = .finished

/-- What a waiting connection finds in what has arrived. -/
inductive Found where
  | request (request : Http.Request) (rest : Bytes)
  | fault (fault : Http.Fault)
  /-- The other side sends no more, and has not begun another request. -/
  | nothing

def found? (limit : Nat) (c : Connection) : Option Found :=
  match Http.readRequest limit c.inbox with
  | .done (some r) rest => some (.request r rest)
  | .done none _ => some .nothing
  | .refused fault => some (.fault fault)
  | .more atEnd =>
    if c.peer = .present then none
    else match atEnd with
      | .ok (some r) => some (.request r [])
      | .ok none => some .nothing
      | .error fault => some (.fault fault)

def Found.step (now : Int) (id : Nat) (config : Config) (c : Connection) (h : Hub) : Found → Step
  | .request r rest => ({ c with inbox := rest } : Connection).serve now id config r h
  | .fault flaw => c.refuse flaw h
  | .nothing => ⟨c.closed, h, []⟩

def Found.utterance (now : Int) (id : Nat) (config : Config) (h : Hub) : Found → Utterance
  | .request r _ => (Route.route now config r id h).1.utterance config r
  | .fault flaw => flaw.response?.elim .silence .response
  | .nothing => .silence

/-- What the next action says. -/
def utterance (now : Int) (id : Nat) (c : Connection) (h : Hub) : Utterance :=
  match c.phase with
  | .reading config => (c.found? config.maxBodyBytes).elim .silence (·.utterance now id config h)
  | .parked ticket keepAlive headers => match (h.slots.poll ticket).1 with
    | .waiting => .silence
    | slot => .response ((Route.withHeaders headers (Route.slotResponse slot)).closing (!keepAlive))
  | .streaming _ outbox => match (h.streams.outboxes.receive outbox).1 with
    | .frame frame => .frame frame
    | _ => .silence
  | .closed => .silence

/-- What is said when a time is over, if that matters. -/
def overtime (timer : Timer) (c : Connection) : Utterance :=
  match timer, c.phase with
  | .patience, .parked _ keepAlive headers =>
    .response ((Route.withHeaders headers Route.timedOut).closing (!keepAlive))
  | .keepAlive, .streaming _ _ => .comment
  | _, _ => .silence

/-- What the last action says when the server stops. -/
def parting (c : Connection) (h : Hub) : Utterance :=
  match c.phase with
  | .parked ticket keepAlive headers =>
    .response ((Route.withHeaders headers (Route.slotResponse (h.slots.poll ticket).1)).closing (!keepAlive))
  | _ => .silence

theorem parting_cases (c : Connection) (h : Hub) : c.parting h = .silence ∨ ∃ response, c.parting h = .response response := by
  unfold parting
  split
  · exact Or.inr ⟨_, rfl⟩
  · exact Or.inl rfl

section
variable {now : Int} {id : Nat} {config : Config} {c : Connection} {h : Hub} {step : Step}

theorem write_heard (heard : c.heard = true) (data : Bytes) : c.write data = (true, data, c) := by
  unfold write
  simp only [Connection.heard, Bool.or_eq_true, decide_eq_true_eq] at heard
  rcases heard with present | finished
  · rw [present]
  · rw [finished]

theorem sent_write (data : Bytes) (c : Connection) : (c.write data).2.1 = if c.heard then data else [] := by
  unfold write Connection.heard
  cases c.peer <;> rfl

theorem respond_heard (heard : c.heard = true) (response : Http.Response) (close : Bool) :
    c.respond response close h = ⟨if close then c.closed else { c with phase := .reading h.config }, h,
      (response.closing close).toBytes⟩ := by
  simp only [respond, write_heard heard, Http.Response.closing]
  cases close <;> rfl

theorem sent_respond (response : Http.Response) (close : Bool) :
    (c.respond response close h).sent = if c.heard then (response.closing close).toBytes else [] := by
  rw [← sent_write]
  unfold respond Http.Response.closing
  generalize (if close then response.withHeader "Connection" "close" else response) = response
  simp only
  split <;> rfl

theorem sent_serve (r : Http.Request) :
    (c.serve now id config r h).sent =
      if c.heard then ((Route.route now config r id h).1.utterance config r).bytes else [] := by
  have worded := Route.route_worded now config r id h
  unfold serve
  split
  next routed =>
    rw [routed]
    exact sent_respond ..
  next routed =>
    rw [routed]
    exact (ite_self _).symm
  next session outbox preamble after routed =>
    rw [routed] at worded ⊢
    cases worded
    simp only [Routed.utterance, Utterance.bytes]
    rw [← sent_write]
    split <;> rfl

theorem sent_refuse (fault : Http.Fault) :
    (c.refuse fault h).sent = if c.heard then (fault.response?.elim .silence Utterance.response).bytes else [] := by
  unfold refuse Http.Fault.response?
  cases fault.status? with
  | none => exact (ite_self _).symm
  | some status => exact sent_write ..

theorem refuse_inbox (fault : Http.Fault) (rest : Bytes) :
    ({ c with inbox := rest } : Connection).refuse fault h = c.refuse fault h := by
  obtain ⟨inbox, peer, phase⟩ := c
  unfold refuse
  cases fault.status? with
  | none => rfl
  | some status => cases peer <;> rfl

/-- A waiting connection acts on what it finds. -/
theorem stepReading_eq (reached : c.peer ≠ .lost) :
    c.stepReading now id config h = (c.found? config.maxBodyBytes).map (·.step now id config c h) := by
  unfold stepReading found?
  rw [if_neg reached]
  cases Http.readRequest config.maxBodyBytes c.inbox with
  | done found rest => cases found <;> rfl
  | refused fault => exact congrArg some (refuse_inbox fault [])
  | more atEnd =>
    dsimp only
    split
    · rfl
    · rcases atEnd with fault | _ | r
      · exact congrArg some (refuse_inbox fault [])
      · rfl
      · rfl

theorem sent_stepReading (taken : c.stepReading now id config h = some step) :
    step.sent =
      if c.heard then ((c.found? config.maxBodyBytes).elim .silence (·.utterance now id config h)).bytes else [] := by
  by_cases lost : c.peer = .lost
  · have unheard : c.heard = false := by simp [heard, lost]
    rw [stepReading, if_pos lost] at taken
    cases taken
    simp [unheard]
  · rw [stepReading_eq lost] at taken
    obtain ⟨found, same, rfl⟩ := Option.map_eq_some_iff.mp taken
    rw [same, Option.elim_some]
    cases found with
    | request r rest => exact sent_serve r
    | fault flaw => exact sent_refuse flaw
    | nothing => exact (ite_self _).symm

theorem answered_eq (slot : Queue.Slot) (keepAlive : Bool) (headers : List (String × String)) :
    c.answered slot keepAlive headers h =
      c.respond (Route.withHeaders headers (Route.slotResponse slot)) (!keepAlive) h := by
  cases slot <;> rfl

/-- What is sent is what the connection has to say. -/
theorem sent_step (taken : c.step? now id h = some step) :
    step.sent = if c.heard then (c.utterance now id h).bytes else [] := by
  rcases step?_cases taken with ⟨config, phase, taken⟩ | ⟨ticket, keepAlive, headers, phase, taken⟩ |
    ⟨session, outbox, phase, taken⟩
  · rw [utterance, phase]
    exact sent_stepReading taken
  · obtain ⟨slot, slots, ready, polled, rfl⟩ := stepParked_cases taken
    rw [answered_eq, sent_respond, utterance, phase]
    simp only [polled]
    cases slot with
    | waiting => exact (ready rfl).elim
    | answered a => rfl
    | closed => rfl
  · have unsaid : (if c.heard then Utterance.silence.bytes else []) = [] := ite_self _
    rw [utterance, phase]
    cases stepStreaming_cases taken with
    | writes received | fails received =>
      simp only [received]
      exact sent_write ..
    | ends received | gives received | drops received =>
      simp only [received]
      exact unsaid.symm

theorem sent_lapse {timer : Timer} (lapsed : c.lapse? timer now id h = some step) :
    step.sent = if c.heard then (c.overtime timer).bytes else [] := by
  cases lapse?_cases lapsed with
  | leaves phase =>
    simp only [overtime, phase]
    exact (ite_self _).symm
  | excuses phase =>
    simp only [overtime, phase]
    exact sent_respond ..
  | comments phase | fails phase =>
    simp only [overtime, phase]
    exact sent_write ..

theorem sent_finish (id : Nat) :
    (c.finish id h).sent = if c.heard then (c.parting h).bytes else [] := by
  unfold finish parting
  split
  next phase =>
    rw [phase]
    exact (ite_self _).symm
  next phase =>
    rw [phase]
    exact (ite_self _).symm
  next phase =>
    rw [phase]
    dsimp only
    rw [answered_eq]
    exact sent_respond ..
  next phase =>
    rw [phase]
    exact (ite_self _).symm

end

end Connection

end Server

end ToolBridge

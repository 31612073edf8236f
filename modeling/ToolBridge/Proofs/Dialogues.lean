import ToolBridge.Proofs.ParkedConnections
import ToolBridge.Proofs.ReadFields
import ToolBridge.Proofs.SingleConnection
import ToolBridge.Proofs.Utterances

/-! One connection of a running server, from its beginning. A record stands beside the server: what has arrived on the
connection, which requests have been read off it, and what it has said. It decides nothing. Every request is answered
once and in its turn, up to one that ends the exchange, and what comes after that is not so much as read. -/

namespace ToolBridge.Server

namespace Connection

def Found.request? : Found → Option Http.Request
  | .request r _ => some r
  | _ => none

def request? (c : Connection) : Option Http.Request :=
  match c.phase with
  | .reading config => (c.found? config.maxBodyBytes).bind Found.request?
  | _ => none

end Connection

def Utterance.spoken : Utterance → List Utterance
  | .silence => []
  | said => [said]

/-- What is said on a stream once it is open. -/
def Utterance.Streamed : Utterance → Prop
  | .frame _ | .comment => True
  | _ => False

structure Dialogue where
  server : Server
  /-- What the other side has sent, whether or not anyone has read it. -/
  heard : Bytes := []
  /-- The other side has said that it sends no more. -/
  complete : Bool := false
  /-- The requests read so far. -/
  served : List Http.Request := []
  /-- What the connection has said. -/
  said : List Utterance := []
  /-- The octets that have been sent. -/
  wrote : Bytes := []

namespace Dialogue

def act (id : Nat) (now : Int) (d : Dialogue) : Dialogue :=
  match d.server.connections.get? id, d.server.stepOf? now id with
  | some c, some step =>
    { d with
      served := d.served ++ c.request?.toList
      said := d.said ++ (c.utterance now id d.server.hub).spoken
      wrote := d.wrote ++ step.sent }
  | _, _ => d

def lapse (id : Nat) (timer : Timer) (now : Int) (d : Dialogue) : Dialogue :=
  match d.server.connections.get? id, d.server.lapseOf? timer now id with
  | some c, some step => { d with said := d.said ++ (c.overtime timer).spoken, wrote := d.wrote ++ step.sent }
  | _, _ => d

def step (id : Nat) (d : Dialogue) (move : Move) : Dialogue :=
  let after : Dialogue := match move with
    | .arrive other data => if other = id ∧ d.complete = false then { d with heard := d.heard ++ data } else d
    | .leave other _ => if other = id then { d with complete := true } else d
    | .act other now => if other = id then d.act id now else d
    | .lapse timer other now => if other = id then d.lapse id timer now else d
    | _ => d
  { after with server := d.server.perform move }

def run (id : Nat) (d : Dialogue) (moves : List Move) : Dialogue := moves.foldl (step id) d

theorem server_run (id : Nat) (d : Dialogue) (moves : List Move) : (d.run id moves).server = d.server.run moves := by
  induction moves generalizing d with
  | nil => rfl
  | cons move rest ih => exact ih (d.step id move)

end Dialogue

/-- The server goes on running, the other side of the connection goes on reading, and neither makes the other wait for
too long. -/
def Move.Spares (id : Nat) : Move → Prop
  | .stop => False
  | .leave other peer => other = id → peer = .finished
  | .lapse timer other _ => other = id → timer = .keepAlive
  | _ => True

structure Exchange where
  request : Http.Request
  response : Http.Response

namespace Exchange

/-- The connection ends here: the other side does not want to go on, or has not shown who it is. -/
def last (e : Exchange) : Bool := !e.request.keepsAlive || e.response.status == 401

/-- The response tells whether the connection ends here. -/
def Frank (e : Exchange) : Prop := e.response.header? "Connection" = if e.last then some "close" else none

def requests (done : List Exchange) : List Http.Request := done.map (·.request)

def responses (done : List Exchange) : List Utterance := done.map fun e => .response e.response

/-- The connection goes on after each of them. -/
def GoOn (done : List Exchange) : Prop := ∀ e ∈ done, e.Frank ∧ e.last = false

end Exchange

/-- Whatever may still come, these are the requests of the input and what is wrong with its end. -/
def Settled (limit : Nat) (complete : Bool) (heard : Bytes) (found : List Http.Request × Option Http.Fault) : Prop :=
  ∀ more, (complete → more = []) → Http.requestsOf limit (heard ++ more) = found

open Exchange in
/-- How a connection can stand on which `heard` has been sent, which has read the requests `served` and has said `said`.
Each response answers the request that was read before it. -/
inductive Standing (limit : Nat) (complete : Bool) (heard : Bytes) :
    List Http.Request → List Utterance → Option Connection → Prop where
  /-- All requests read so far have been answered, and the next one is read from what is left. -/
  | waiting {done : List Exchange} {c : Connection} {config : Config} (phase : c.phase = .reading config)
      (goOn : GoOn done) (taken : Http.Taken limit complete heard (requests done) c.inbox) :
      Standing limit complete heard (requests done) (responses done) (some c)
  /-- The last request waits for the executor. -/
  | parked {done : List Exchange} {r : Http.Request} {c : Connection} {ticket : Nat} {headers : List (String × String)}
      (phase : c.phase = .parked ticket r.keepsAlive headers)
      (others : ∀ field ∈ headers, Text.sameLetters field.1 "Connection" = false) (goOn : GoOn done)
      (taken : Http.Taken limit complete heard (requests done ++ [r]) c.inbox) :
      Standing limit complete heard (requests done ++ [r]) (responses done) (some c)
  /-- The last request has opened a stream, which may have ended since. -/
  | streaming {done : List Exchange} {r : Http.Request} {headers : List (String × String)}
      {endpoint : Option EventStream.Frame} {streamed : List Utterance} {current : Option Connection} {left : Bytes}
      (asks : r.method = "GET") (phase : ∀ c, current = some c → ∃ session outbox, c.phase = .streaming session outbox)
      (pieces : ∀ said ∈ streamed, said.Streamed) (goOn : GoOn done)
      (taken : Http.Taken limit complete heard (requests done ++ [r]) left) :
      Standing limit complete heard (requests done ++ [r]) (responses done ++ .opening headers endpoint :: streamed) current
  /-- The last request has been answered as one that ends the connection, and it is closed. -/
  | closed {done : List Exchange} {e : Exchange} {left : Bytes} (goOn : GoOn done) (frank : e.Frank) (last : e.last)
      (taken : Http.Taken limit complete heard (requests done ++ [e.request]) left) :
      Standing limit complete heard (requests done ++ [e.request]) (responses done ++ [.response e.response]) none
  /-- All requests have been answered, and then what is no request, and the connection is closed. -/
  | refused {done : List Exchange} {fault : Http.Fault} {response : Http.Response} (goOn : GoOn done)
      (told : fault.response? = some response) (found : Settled limit complete heard (requests done, some fault)) :
      Standing limit complete heard (requests done) (responses done ++ [.response response]) none
  /-- All requests have been answered, and no more will come. -/
  | ended {done : List Exchange} (goOn : GoOn done) (ended : complete)
      (found : Settled limit complete heard (requests done, none)) :
      Standing limit complete heard (requests done) (responses done) none

section
variable {limit : Nat} {complete : Bool} {heard : Bytes} {found : List Http.Request × Option Http.Fault}

namespace Settled

theorem longer (settled : Settled limit complete heard found) {more : Bytes} (open_ : complete = false) :
    Settled limit complete (heard ++ more) found := by
  intro later closed
  rw [List.append_assoc]
  exact settled (more ++ later) fun ended => by rw [open_] at ended; cases ended

theorem finish (settled : Settled limit complete heard found) : Settled limit true heard found :=
  fun more closed => settled more fun _ => closed rfl

theorem of_taken {requests : List Http.Request} {left : Bytes} {fault : Option Http.Fault}
    (taken : Http.Taken limit complete heard requests left)
    (ends : ∀ more, (complete → more = []) → Http.requestsOf limit (left ++ more) = ([], fault)) :
    Settled limit complete heard (requests, fault) := by
  intro more closed
  have whole : Http.Taken limit complete (heard ++ more) requests (left ++ more) := by
    cases complete with
    | true =>
      rw [closed rfl, List.append_nil, List.append_nil]
      exact taken
    | false => exact taken.longer Bool.false_ne_true more
  rw [whole.requestsOf_eq, ends more closed, List.append_nil]

end Settled

namespace Connection
variable {requests : List Http.Request} {c : Connection}

/-- The other side still reads what is written to it. -/
def Hears (complete : Bool) (c : Connection) : Prop := c.peer = if complete then .finished else .present

theorem Hears.writable (hears : c.Hears complete) : c.heard = true := by
  rw [Connection.heard, hears]
  cases complete <;> rfl

theorem Hears.reached (hears : c.Hears complete) : c.peer ≠ .lost := by
  rw [hears]
  cases complete <;> decide

theorem Hears.isComplete (hears : c.Hears complete) (finished : c.peer ≠ .present) : complete := by
  cases complete with
  | true => rfl
  | false => exact absurd hears finished

theorem taken_found {r : Http.Request} {rest : Bytes} (hears : c.Hears complete)
    (found : c.found? limit = some (.request r rest)) (taken : Http.Taken limit complete heard requests c.inbox) :
    Http.Taken limit complete heard (requests ++ [r]) rest := by
  unfold found? at found
  split at found
  next read =>
    cases found
    exact taken.snoc read
  · cases found
  · cases found
  next atEnd read =>
    split at found
    · cases found
    next finished =>
      split at found <;> cases found
      exact taken.snoc_last (hears.isComplete finished) read

theorem settled_fault {fault : Http.Fault} (hears : c.Hears complete) (found : c.found? limit = some (.fault fault))
    (taken : Http.Taken limit complete heard requests c.inbox) :
    Settled limit complete heard (requests, some fault) ∧ fault.status?.isSome := by
  have told := (Http.readRequest_gives limit c.inbox).fault
  unfold found? at found
  split at found
  · cases found
  · cases found
  next read =>
    cases found
    refine ⟨.of_taken taken fun more _ => ?_, told fault (by rw [read]; rfl)⟩
    exact Http.requestsOf_refused ((Http.readRequest_extends more limit c.inbox).of_refused read)
  next read =>
    split at found
    · cases found
    next finished =>
      split at found <;> cases found
      refine ⟨.of_taken taken fun more closed => ?_, told fault (by rw [read]; rfl)⟩
      rw [closed (hears.isComplete finished), List.append_nil]
      exact Http.requestsOf_cut read

theorem settled_nothing (hears : c.Hears complete) (found : c.found? limit = some .nothing)
    (taken : Http.Taken limit complete heard requests c.inbox) : complete ∧ Settled limit complete heard (requests, none) := by
  unfold found? at found
  split at found
  · cases found
  next read =>
    obtain ⟨⟨_, some_⟩, _⟩ := Http.readRequest_length read
    cases some_
  · cases found
  next read =>
    split at found
    · cases found
    next finished =>
      split at found <;> cases found
      refine ⟨hears.isComplete finished, .of_taken taken fun more closed => ?_⟩
      rw [closed (hears.isComplete finished), List.append_nil]
      exact Http.requestsOf_ended read

end Connection

end

namespace Exchange

theorem requests_snoc (done : List Exchange) (e : Exchange) : requests (done ++ [e]) = requests done ++ [e.request] :=
  List.map_append

theorem responses_snoc (done : List Exchange) (e : Exchange) :
    responses (done ++ [e]) = responses done ++ [.response e.response] :=
  List.map_append

theorem GoOn.snoc {done : List Exchange} (goOn : GoOn done) {e : Exchange} (frank : e.Frank) (more : e.last = false) :
    GoOn (done ++ [e]) := by
  intro other member
  rcases List.mem_append.mp member with before | last
  · exact goOn other before
  · exact List.mem_singleton.mp last ▸ ⟨frank, more⟩

end Exchange

/-- What an action of a connection makes of the record, while the other side reads. -/
structure Acts (limit : Nat) (complete : Bool) (heard : Bytes) (served : List Http.Request) (said : List Utterance)
    (utterance : Utterance) (step : Step) : Prop where
  standing : Standing limit complete heard served (said ++ utterance.spoken) step.current
  hears : step.connection.Hears complete
  /-- A response says that the connection closes just if it is closed by then. -/
  frank : ∀ response, utterance = .response response →
    (response.header? "Connection" = some "close" ↔ step.connection.isOpen = false)

namespace Connection
open Exchange

variable {limit : Nat} {complete : Bool} {heard : Bytes} {done : List Exchange} {c : Connection} {h : Hub} {now : Int}
  {id : Nat}

theorem respond_acts {e : Exchange} {response : Http.Response} {close : Bool} (hears : c.Hears complete)
    (goOn : GoOn done) (taken : Http.Taken limit complete heard (requests done ++ [e.request]) c.inbox)
    (said : e.response = response.closing close) (last : e.last = close) (frank : e.Frank) :
    Acts limit complete heard (requests done ++ [e.request]) (responses done) (.response e.response)
      (c.respond response close h) := by
  rw [respond_heard hears.writable, ← said]
  have told := frank
  rw [Frank, last] at told
  cases close with
  | true =>
    refine ⟨.closed goOn frank last taken, hears, ?_⟩
    rintro _ ⟨⟩
    exact iff_of_true told rfl
  | false =>
    have waiting : Standing limit complete heard (requests (done ++ [e])) (responses (done ++ [e]))
        (some { c with phase := .reading h.config }) :=
      .waiting rfl (goOn.snoc frank last) (by rw [requests_snoc]; exact taken)
    rw [requests_snoc, responses_snoc] at waiting
    refine ⟨waiting, hears, ?_⟩
    rintro _ ⟨⟩
    refine iff_of_false (fun closes => ?_) (by simp [isOpen])
    rw [told] at closes
    cases closes

theorem status_closing (response : Http.Response) (close : Bool) : (response.closing close).status = response.status := by
  cases close <;> rfl

/-- Whoever has shown who it is ends the connection if it wants to. -/
theorem frank_accepted (r : Http.Request) {response : Http.Response} (accepted : response.status < 400)
    (persistent : response.Persistent) :
    let e : Exchange := ⟨r, response.closing (!r.keepsAlive)⟩
    e.last = (!r.keepsAlive) ∧ e.Frank := by
  intro e
  have last : e.last = (!r.keepsAlive) := by
    have other : (e.response.status == 401) = false := by
      have same : e.response.status = response.status := status_closing ..
      exact beq_false_of_ne (by omega)
    rw [Exchange.last, other, Bool.or_false]
  refine ⟨last, ?_⟩
  rw [Frank, last]
  exact Http.Response.header?_closing persistent _

theorem frank_rejected (r : Http.Request) (rejection : Rejection) :
    let e : Exchange := ⟨r, rejection.response.closing (rejection.closes || !r.keepsAlive)⟩
    e.last = (rejection.closes || !r.keepsAlive) ∧ e.Frank := by
  intro e
  have status : e.response.status = rejection.status := (status_closing ..).trans rejection.status_response
  have denied : (rejection.status == 401) = rejection.closes := by cases rejection <;> rfl
  have last : e.last = (rejection.closes || !r.keepsAlive) := by
    rw [Exchange.last, status, denied, Bool.or_comm]
  refine ⟨last, ?_⟩
  rw [Frank, last]
  change (rejection.response.closing (rejection.closes || !r.keepsAlive)).header? "Connection" = _
  have told := rejection.header?_connection
  cases closes : rejection.closes with
  | true =>
    rw [closes] at told
    exact Http.Response.header?_closing_closing told _
  | false =>
    rw [closes] at told
    exact Http.Response.header?_closing told _

theorem serve_acts {config : Config} {r : Http.Request} (hears : c.Hears complete) (open_ : h.queue.closed = false)
    (goOn : GoOn done) (taken : Http.Taken limit complete heard (requests done ++ [r]) c.inbox) :
    Acts limit complete heard (requests done ++ [r]) (responses done)
      ((Route.route now config r id h).1.utterance config r) (c.serve now id config r h) := by
  have worded := Route.route_worded now config r id h
  unfold serve
  split
  next response close after routed =>
    rw [routed] at worded ⊢
    cases worded with
    | rejected rejection =>
      obtain ⟨last, frank⟩ := frank_rejected r rejection
      exact respond_acts hears goOn taken rfl last frank
    | told accepted _ persistent =>
      obtain ⟨last, frank⟩ := frank_accepted r (show (Route.withHeaders _ _).status < 400 from accepted)
        (persistent.append (Access.originHeaders_others config r))
      exact respond_acts hears goOn taken rfl last frank
    | turnedAway shut =>
      rw [open_] at shut
      cases shut
  next ticket headers after routed =>
    rw [routed] at worded ⊢
    cases worded
    refine ⟨?_, hears, fun _ same => by cases same⟩
    rw [Routed.utterance, Utterance.spoken, List.append_nil]
    exact .parked rfl (Access.originHeaders_others config r) goOn taken
  next session outbox preamble after routed =>
    rw [routed] at worded ⊢
    cases worded with
    | opened _ asks =>
      simp only [write_heard hears.writable, if_true]
      refine ⟨?_, hears, fun _ same => by cases same⟩
      have streams : Standing limit complete heard (requests done ++ [r])
          (responses done ++ .opening (Route.openingHeaders config r session)
            (Route.openingFrame? config r session) :: [])
          (some { c with phase := .streaming session outbox }) :=
        .streaming asks (fun d same => by cases same; exact ⟨session, outbox, rfl⟩) (List.forall_mem_nil _) goOn taken
      exact streams

theorem found_acts {config : Config} {found : Found} (hears : c.Hears complete) (open_ : h.queue.closed = false)
    (phase : c.phase = .reading config) (same : config.maxBodyBytes = limit) (here : c.found? limit = some found)
    (goOn : GoOn done) (taken : Http.Taken limit complete heard (requests done) c.inbox) :
    Acts limit complete heard (requests done ++ c.request?.toList) (responses done) (found.utterance now id config h)
      (found.step now id config c h) := by
  have read : c.request? = found.request? := by
    rw [request?, phase]
    dsimp only
    rw [same, here, Option.bind_some]
  cases found with
  | request r rest =>
    rw [read]
    exact serve_acts (c := { c with inbox := rest }) hears open_ goOn (taken_found hears here taken)
  | fault flaw =>
    obtain ⟨settled, told⟩ := settled_fault hears here taken
    obtain ⟨status, some_⟩ := Option.isSome_iff_exists.mp told
    have response : flaw.response? = some _ := congrArg (Option.map _) some_
    simp only [read, Found.request?, Option.toList_none, List.append_nil, Found.utterance, response, Option.elim_some,
      Found.step, refuse, some_, write_heard hears.writable]
    refine ⟨.refused goOn response settled, hears, ?_⟩
    rintro _ ⟨⟩
    exact iff_of_true (Http.Fault.header?_response? response) rfl
  | nothing =>
    obtain ⟨ended, settled⟩ := settled_nothing hears here taken
    simp only [read, Found.request?, Option.toList_none, List.append_nil]
    refine ⟨?_, hears, fun _ same => by cases same⟩
    rw [Found.utterance, Utterance.spoken, List.append_nil]
    exact .ended goOn ended settled

theorem status_answerResponse (a : Dispatch.Answer) : (Route.answerResponse a).status < 400 := by
  obtain ⟨reply, session, created⟩ := a
  cases reply with
  | none => cases session <;> exact (show 202 < 400 by decide)
  | some reply => cases session <;> exact (show 200 < 400 by decide)

theorem answered_acts {r : Http.Request} {ticket : Nat} {headers : List (String × String)} {step : Step}
    (hears : c.Hears complete) (phase : c.phase = .parked ticket r.keepsAlive headers)
    (live : h.slots.Live ticket) (others : ∀ field ∈ headers, Text.sameLetters field.1 "Connection" = false)
    (goOn : GoOn done) (taken : Http.Taken limit complete heard (requests done ++ [r]) c.inbox)
    (stepped : c.step? now id h = some step) :
    Acts limit complete heard (requests done ++ [r]) (responses done) (c.utterance now id h) step := by
  rw [step?, phase] at stepped
  obtain ⟨slot, slots, ready, polled, rfl⟩ := stepParked_cases stepped
  have polls := Queue.Slots.poll_live live
  rw [utterance, phase]
  dsimp only
  rw [polled] at polls ⊢
  rcases polls with waiting | ⟨a, rfl⟩
  · exact (ready waiting).elim
  · rw [answered_eq]
    obtain ⟨last, frank⟩ :=
      frank_accepted r (show (Route.withHeaders _ _).status < 400 from status_answerResponse a) ((Route.persistent_answerResponse a).append others)
    exact respond_acts hears goOn taken rfl last frank

theorem carries_acts {r : Http.Request} {session : String} {outbox : Nat} {headers : List (String × String)}
    {endpoint : Option EventStream.Frame} {streamed : List Utterance} {left : Bytes} {said : Utterance} {hub : Hub}
    {sent : Bytes} (hears : c.Hears complete) (phase : c.phase = .streaming session outbox) (asks : r.method = "GET")
    (pieces : ∀ said ∈ streamed, said.Streamed) (piece : said.Streamed) (goOn : GoOn done)
    (taken : Http.Taken limit complete heard (requests done ++ [r]) left) :
    Acts limit complete heard (requests done ++ [r]) (responses done ++ .opening headers endpoint :: streamed) said
      ⟨c, hub, sent⟩ := by
  have more : Standing limit complete heard (requests done ++ [r])
      (responses done ++ .opening headers endpoint :: (streamed ++ [said])) (some c) := by
    refine .streaming asks (fun d same => ?_) (fun other member => ?_) goOn taken
    · cases same
      exact ⟨session, outbox, phase⟩
    · rcases List.mem_append.mp member with before | last
      · exact pieces other before
      · exact List.mem_singleton.mp last ▸ piece
  have spoken : said.spoken = [said] := by
    cases said with
    | silence => exact piece.elim
    | _ => rfl
  refine ⟨?_, hears, fun response same => ?_⟩
  · simpa [Step.current, isOpen, phase, spoken] using more
  · rw [same] at piece
    exact piece.elim

theorem streaming_acts {r : Http.Request} {session : String} {outbox : Nat} {headers : List (String × String)}
    {endpoint : Option EventStream.Frame} {streamed : List Utterance} {left : Bytes} {step : Step}
    (hears : c.Hears complete) (phase : c.phase = .streaming session outbox) (asks : r.method = "GET")
    (pieces : ∀ said ∈ streamed, said.Streamed) (goOn : GoOn done)
    (taken : Http.Taken limit complete heard (requests done ++ [r]) left) (stepped : c.step? now id h = some step) :
    Acts limit complete heard (requests done ++ [r]) (responses done ++ .opening headers endpoint :: streamed)
      (c.utterance now id h) step := by
  have ends : Standing limit complete heard (requests done ++ [r])
      (responses done ++ .opening headers endpoint :: streamed ++ []) none := by
    rw [List.append_nil]
    exact .streaming asks (fun d same => by cases same) pieces goOn taken
  rw [step?, phase] at stepped
  rw [utterance, phase]
  cases stepStreaming_cases stepped with
  | @writes frame _ received =>
    simp only [received, write_heard hears.writable]
    exact carries_acts hears phase asks pieces trivial goOn taken
  | fails _ unwritten => exact (unwritten (by rw [write_heard hears.writable])).elim
  | ends received | gives received =>
    simp only [received]
    exact ⟨ends, hears, fun _ same => by cases same⟩
  | drops received =>
    simp only [received]
    refine ⟨?_, hears, fun _ same => by cases same⟩
    have still : Standing limit complete heard (requests done ++ [r])
        (responses done ++ .opening headers endpoint :: streamed) (some { c with inbox := [] }) :=
      .streaming asks (fun d same => by cases same; exact ⟨session, outbox, phase⟩) pieces goOn taken
    simpa [Step.current, isOpen, phase, Utterance.spoken] using still

end Connection

namespace Standing
variable {limit : Nat} {complete : Bool} {heard : Bytes} {served : List Http.Request} {said : List Utterance}
  {current : Option Connection} {c : Connection}

theorem newborn {config : Config} : Standing limit complete [] [] [] (some { phase := .reading config }) := by
  have waiting : Standing limit complete [] (Exchange.requests []) (Exchange.responses [])
      (some { phase := .reading config }) :=
    .waiting rfl (List.forall_mem_nil _) (.none [])
  exact waiting

theorem acts {h : Hub} {now : Int} {id : Nat} {step : Step} (standing : Standing limit complete heard served said (some c))
    (hears : c.Hears complete) (open_ : h.queue.closed = false)
    (live : ∀ ticket, c.ticket? = some ticket → h.slots.Live ticket)
    (limited : ∀ config, c.phase = .reading config → config.maxBodyBytes = limit) (stepped : c.step? now id h = some step) :
    Acts limit complete heard (served ++ c.request?.toList) said (c.utterance now id h) step := by
  cases standing with
  | @waiting done _ config phase goOn taken =>
    have reads : c.stepReading now id config h = some step := by rwa [Connection.step?, phase] at stepped
    rw [Connection.stepReading_eq hears.reached] at reads
    obtain ⟨found, here, rfl⟩ := Option.map_eq_some_iff.mp reads
    have utterance : c.utterance now id h = found.utterance now id config h := by
      rw [Connection.utterance, phase]
      dsimp only
      rw [here, Option.elim_some]
    rw [utterance]
    exact Connection.found_acts hears open_ phase (limited config phase) (limited config phase ▸ here) goOn taken
  | @parked done r _ ticket headers phase others goOn taken =>
    have idle : c.request? = none := by rw [Connection.request?, phase]
    have waits : c.ticket? = some ticket := by rw [Connection.ticket?, phase]
    rw [idle, Option.toList_none, List.append_nil]
    exact Connection.answered_acts hears phase (live ticket waits) others goOn taken stepped
  | @streaming done r headers endpoint streamed _ left asks phase pieces goOn taken =>
    obtain ⟨session, outbox, phase⟩ := phase c rfl
    have idle : c.request? = none := by rw [Connection.request?, phase]
    rw [idle, Option.toList_none, List.append_nil]
    exact Connection.streaming_acts hears phase asks pieces goOn taken stepped

theorem comments {h : Hub} {now : Int} {id : Nat} {step : Step} (standing : Standing limit complete heard served said (some c))
    (hears : c.Hears complete) (lapsed : c.lapse? .keepAlive now id h = some step) :
    Acts limit complete heard served said (c.overtime .keepAlive) step := by
  cases Connection.lapse?_cases lapsed with
  | comments streams =>
    simp only [Connection.overtime, streams, Connection.write_heard hears.writable]
    cases standing with
    | waiting phase => cases streams.symm.trans phase
    | parked phase => cases streams.symm.trans phase
    | streaming asks _ pieces goOn taken => exact Connection.carries_acts hears streams asks pieces trivial goOn taken
  | fails _ unwritten => exact (unwritten (by rw [Connection.write_heard hears.writable])).elim

theorem hears (standing : Standing limit complete heard served said current) (open_ : complete = false) (data : Bytes) :
    Standing limit complete (heard ++ data) served said (current.map fun c => { c with inbox := c.inbox ++ data }) := by
  have open_' : ¬ complete = true := Bool.not_eq_true _ ▸ open_
  cases standing with
  | waiting phase goOn taken => exact .waiting phase goOn (taken.longer open_' data)
  | parked phase others goOn taken => exact .parked phase others goOn (taken.longer open_' data)
  | streaming asks phase pieces goOn taken =>
    refine .streaming asks (fun d same => ?_) pieces goOn (taken.longer open_' data)
    obtain ⟨c, found, rfl⟩ := Option.map_eq_some_iff.mp same
    exact phase c found
  | closed goOn frank last taken => exact .closed goOn frank last (taken.longer open_' data)
  | refused goOn told found => exact .refused goOn told (found.longer open_)
  | ended goOn ended => exact absurd ended open_'

theorem finishes (standing : Standing limit complete heard served said current) :
    Standing limit true heard served said (current.map fun c => { c with peer := .finished }) := by
  cases standing with
  | waiting phase goOn taken => exact .waiting phase goOn (taken.mono fun _ => rfl)
  | parked phase others goOn taken => exact .parked phase others goOn (taken.mono fun _ => rfl)
  | streaming asks phase pieces goOn taken =>
    refine .streaming asks (fun d same => ?_) pieces goOn (taken.mono fun _ => rfl)
    obtain ⟨c, found, rfl⟩ := Option.map_eq_some_iff.mp same
    exact phase c found
  | closed goOn frank last taken => exact .closed goOn frank last (taken.mono fun _ => rfl)
  | refused goOn told found => exact .refused goOn told found.finish
  | ended goOn _ found => exact .ended goOn rfl found.finish

theorem served_first (standing : Standing limit complete heard served said current) :
    served <+: (Http.requestsOf limit heard).1 := by
  have first : ∀ {requests : List Http.Request} {left : Bytes}, Http.Taken limit complete heard requests left →
      requests <+: (Http.requestsOf limit heard).1 := by
    intro requests left taken
    rw [taken.requestsOf_eq]
    exact List.prefix_append _ _
  have all : ∀ {requests : List Http.Request} {fault : Option Http.Fault},
      Settled limit complete heard (requests, fault) → requests <+: (Http.requestsOf limit heard).1 := by
    intro requests fault found
    have whole := found [] fun _ => rfl
    rw [List.append_nil] at whole
    rw [whole]
  cases standing with
  | waiting _ _ taken => exact first taken
  | parked _ _ _ taken => exact first taken
  | streaming _ _ _ _ taken => exact first taken
  | closed _ _ _ taken => exact first taken
  | refused _ _ found => exact all found
  | ended _ _ found => exact all found

end Standing

end ToolBridge.Server

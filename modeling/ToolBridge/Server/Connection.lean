import ToolBridge.Http.Incoming
import ToolBridge.Server.Route

/-! One accepted connection. It reads a request, waits for its answer, writes it, and so on, until
one of the two ends it or it turns into an event stream. `step?` is one such action, and `lapse?` is what
it does when it has waited for too long. -/

namespace ToolBridge.Server

/-- How the other side stands. -/
inductive Peer where
  /-- It sends and reads. -/
  | present
  /-- It sends no more, and still reads. -/
  | finished
  /-- It has closed; what is written first still seems to arrive. -/
  | gone
  /-- Nothing can be read from it or written to it. -/
  | lost
deriving DecidableEq, Repr

inductive Phase where
  /-- Waiting for a request, to be judged by the configuration in force when the wait began. -/
  | reading (config : Config)
  | parked (ticket : Nat) (keepAlive : Bool) (headers : List (String × String))
  | streaming (session : String) (outbox : Nat)
  | closed
deriving DecidableEq, Repr

/-- What a connection keeps time for. -/
inductive Timer where
  /-- How long it waits for a request, and then for the answer. -/
  | patience
  /-- How often a stream carries a comment. -/
  | keepAlive
deriving DecidableEq, Repr

structure Connection where
  /-- What has arrived and is not read yet. -/
  inbox : Bytes := []
  peer : Peer := .present
  phase : Phase
deriving DecidableEq, Repr

/-- What an action leads to. -/
structure Step where
  connection : Connection
  hub : Hub
  /-- What reaches the other side. -/
  sent : Bytes := []

namespace Connection

def isOpen (c : Connection) : Bool := c.phase ≠ .closed

def closed (c : Connection) : Connection := { c with inbox := [], phase := .closed }

/-- Writes; the flag tells whether that seemed to succeed. -/
def write (data : Bytes) (c : Connection) : Bool × Bytes × Connection :=
  match c.peer with
  | .present | .finished => (true, data, c)
  | .gone => (true, [], { c with peer := .lost })
  | .lost => (false, [], c)

/-- Answers a request and waits for the next one, unless this was the last. -/
def respond (response : Http.Response) (close : Bool) (c : Connection) (h : Hub) : Step :=
  let response := if close then response.withHeader "Connection" "close" else response
  let (written, sent, c) := c.write response.toBytes
  if close || !written then ⟨c.closed, h, sent⟩
  else ⟨{ c with phase := .reading h.config }, h, sent⟩

def serve (now : Int) (id : Nat) (config : Config) (r : Http.Request) (c : Connection) (h : Hub) : Step :=
  match Route.route now config r id h with
  | (.respond response close, h) => c.respond response (close || !r.keepsAlive) h
  | (.park ticket headers, h) => ⟨{ c with phase := .parked ticket r.keepsAlive headers }, h, []⟩
  | (.stream session outbox preamble, h) =>
    let (written, sent, c) := c.write (Text.utf8 preamble)
    if written then ⟨{ c with phase := .streaming session outbox }, h, sent⟩
    else ⟨c.closed, h.failStream id session none outbox, sent⟩

/-- Tells what is wrong with the input, if that can be told, and ends. -/
def refuse (fault : Http.Fault) (c : Connection) (h : Hub) : Step :=
  match fault.status? with
  | none => ⟨c.closed, h, []⟩
  | some status =>
    let response := (Http.Response.json status (Rejection.errorBody fault.message)).withHeader
      "Connection" "close"
    let (_, sent, c) := c.write response.toBytes
    ⟨c.closed, h, sent⟩

def stepReading (now : Int) (id : Nat) (config : Config) (c : Connection) (h : Hub) : Option Step :=
  if c.peer = .lost then some ⟨c.closed, h, []⟩
  else
    let finish (rest : Bytes) (result : Except Http.Fault (Option Http.Request)) : Step :=
      let c := { c with inbox := rest }
      match result with
      | .ok (some r) => c.serve now id config r h
      | .ok none => ⟨c.closed, h, []⟩
      | .error fault => c.refuse fault h
    match Http.readRequest config.maxBodyBytes c.inbox with
    | .done r rest => some (finish rest (.ok r))
    | .refused fault => some (finish [] (.error fault))
    | .more atEnd => if c.peer = .present then none else some (finish [] atEnd)

def answered (a : Queue.Slot) (keepAlive : Bool) (headers : List (String × String)) (c : Connection)
    (h : Hub) : Step :=
  let response := match a with
    | .answered answer => Route.answerResponse answer
    | _ => Route.shuttingDown
  c.respond (Route.withHeaders headers response) (!keepAlive) h

def stepParked (ticket : Nat) (keepAlive : Bool) (headers : List (String × String)) (c : Connection)
    (h : Hub) : Option Step :=
  match h.slots.poll ticket with
  | (.waiting, _) => none
  | (slot, slots) => some (c.answered slot keepAlive headers { h with slots := slots.hangUp ticket })

/-- Frames go out in order. What the other side sends is dropped; that it is gone shows once there
is nothing to write. -/
def stepStreaming (now : Int) (id : Nat) (session : String) (outbox : Nat) (c : Connection) (h : Hub) :
    Option Step :=
  match h.streams.outboxes.receive outbox with
  | (.frame frame, outboxes) =>
    let h := { h with streams := { h.streams with outboxes } }
    let (written, sent, c) := c.write (Text.utf8 frame.encode)
    if written then some ⟨c, (h.touch now session).2, sent⟩
    else some ⟨c.closed, h.failStream id session (some frame) outbox, sent⟩
  | (.ended, _) => some ⟨c.closed, h.endStream id session, []⟩
  | (.empty, _) =>
    if c.peer ≠ .present then some ⟨c.closed, h.failStream id session none outbox, []⟩
    else if c.inbox ≠ [] then some ⟨{ c with inbox := [] }, h, []⟩
    else none

/-- The next action, unless there is nothing to do until something happens. -/
def step? (now : Int) (id : Nat) (c : Connection) (h : Hub) : Option Step :=
  match c.phase with
  | .reading config => c.stepReading now id config h
  | .parked ticket keepAlive headers => c.stepParked ticket keepAlive headers h
  | .streaming session outbox => c.stepStreaming now id session outbox h
  | .closed => none

/-- The executor has taken too long, and its answer is not waited for any more. -/
def lapseParked (ticket : Nat) (keepAlive : Bool) (headers : List (String × String)) (c : Connection)
    (h : Hub) : Option Step :=
  match h.slots.poll ticket with
  | (.waiting, slots) =>
    let h := { h with slots := slots.hangUp ticket }
    some (c.respond (Route.withHeaders headers Route.timedOut) (!keepAlive) h)
  | _ => none

def lapseStreaming (now : Int) (id : Nat) (session : String) (outbox : Nat) (c : Connection) (h : Hub) : Step :=
  let (written, sent, c) := c.write (Text.utf8 EventStream.keepAliveComment)
  if written then ⟨c, (h.touch now session).2, sent⟩
  else ⟨c.closed, h.failStream id session none outbox, sent⟩

/-- The action when a time is over, if it matters by then. A request or an answer that is there by then
goes first; a part of a request is dropped. -/
def lapse? (timer : Timer) (now : Int) (id : Nat) (c : Connection) (h : Hub) : Option Step :=
  match timer, c.phase with
  | .patience, .reading config =>
    if (c.stepReading now id config h).isNone then some ⟨c.closed, h, []⟩ else none
  | .patience, .parked ticket keepAlive headers => c.lapseParked ticket keepAlive headers h
  | .keepAlive, .streaming session outbox => some (c.lapseStreaming now id session outbox h)
  | _, _ => none

/-- The last action when the server stops. An answer that is ready still goes out; what has arrived
and is not read yet is not. -/
def finish (id : Nat) (c : Connection) (h : Hub) : Step :=
  match c.phase with
  | .reading _ | .closed => ⟨c.closed, h, []⟩
  | .parked ticket keepAlive headers =>
    let (slot, slots) := h.slots.poll ticket
    let last := c.answered slot keepAlive headers { h with slots := slots.hangUp ticket }
    ⟨last.connection.closed, last.hub, last.sent⟩
  | .streaming session _ => ⟨c.closed, h.endStream id session, []⟩

end Connection

end ToolBridge.Server

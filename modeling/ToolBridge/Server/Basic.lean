import ToolBridge.Server.Connection
import ToolBridge.Server.Tick

/-! A server as a whole: its listener, its connections, and the executor that a host attaches. After
each thing that happens the connections act until all wait again. -/

namespace ToolBridge

/-- What the other sides of connections notice. -/
inductive Server.Signal where
  | data (connection : Nat) (bytes : Bytes)
  | closed (connection : Nat)
deriving DecidableEq, Repr

/-- What the system answers to a wish to listen: the endpoint it gave, or a reason against it. -/
abbrev Server.Binder := Net.Endpoint → Except String Net.Endpoint

structure Server where
  hub : Server.Hub := {}
  /-- Where it listens, while it does. -/
  listener : Option Net.Endpoint := none
  executor : Option Tool.Table := none
  connections : Entries Nat Server.Connection := []
  nextConnection : Nat := 1

namespace Server

def ofConfig (config : Config) (info : ServerInfo) : Server := { hub := { config, info } }

def isRunning (s : Server) : Bool := s.listener.isSome

/-! ## Connections -/

def signalsOf (id : Nat) (step : Step) : List Signal :=
  (if step.sent.isEmpty then [] else [.data id step.sent]) ++
    (if step.connection.isOpen then [] else [.closed id])

/-- A connection that has ended is forgotten. -/
def apply (id : Nat) (step : Step) (s : Server) : Server :=
  { s with
    hub := step.hub
    connections :=
      if step.connection.isOpen then s.connections.put id step.connection else s.connections.erase id }

/-- The first action that any connection can take. -/
def nextStep? (now : Int) (s : Server) : Option (Nat × Step) :=
  s.connections.findSome? fun (id, c) => (c.step? now id s.hub).map fun step => (id, step)

def settleWithin (now : Int) : Nat → Server → List Signal × Server
  | 0, s => ([], s)
  | bound + 1, s => match s.nextStep? now with
    | none => ([], s)
    | some (id, step) =>
      let (later, settled) := settleWithin now bound (s.apply id step)
      (signalsOf id step ++ later, settled)

/-- More actions than the connections can take: each one reads or writes something, or ends a wait. -/
def stepBound (s : Server) : Nat :=
  let unread := s.connections.total (·.inbox.length)
  let queued := s.hub.streams.outboxes.boxes.total (·.frames.length)
  let pending := s.hub.streams.pending.total (·.length)
  4 * (unread + queued + pending + s.connections.length + 1)

/-- Lets every connection act until all of them wait. -/
def settle (now : Int) (s : Server) : List Signal × Server := settleWithin now s.stepBound s

/-- A new connection, and its number. Nothing can connect to a server that does not run. -/
def connect (s : Server) : Option (Nat × Server) :=
  if s.isRunning then
    some (s.nextConnection, { s with
      connections := s.connections.put s.nextConnection { phase := .reading s.hub.config }
      nextConnection := s.nextConnection + 1 })
  else none

/-- Octets arrive, unless the other side has said that it sends no more. -/
def receive (now : Int) (id : Nat) (data : Bytes) (s : Server) : List Signal × Server :=
  match s.connections.get? id with
  | none => ([], s)
  | some c =>
    if c.peer = .present then
      { s with connections := s.connections.put id { c with inbox := c.inbox ++ data } }.settle now
    else ([], s)

/-- The other side finishes, closes or breaks the connection. -/
def leave (now : Int) (id : Nat) (peer : Peer) (s : Server) : List Signal × Server :=
  match s.connections.get? id with
  | none => ([], s)
  | some c => { s with connections := s.connections.put id { c with peer } }.settle now

/-- A time of a connection is over. -/
def lapse (timer : Timer) (now : Int) (id : Nat) (s : Server) : List Signal × Server :=
  match (s.connections.get? id).bind fun c => c.lapse? timer now id s.hub with
  | none => ([], s)
  | some step =>
    let (later, settled) := (s.apply id step).settle now
    (signalsOf id step ++ later, settled)

/-! ## The host -/

def attach (tools : Tool.Table) (s : Server) : Except Error Server :=
  if s.executor.isSome then .error .executorAttached else .ok { s with executor := some tools }

def detach (s : Server) : Server := { s with executor := none }

/-- Runs a batch; none without an executor. -/
def tick? (now : Int) (s : Server) : Option (Nat × List Signal × Server) :=
  s.executor.map fun tools =>
    let (count, hub) := Tick.tick (tools.registry (.ofNanos now)) now s.hub
    let (signals, s) := { s with hub }.settle now
    (count, signals, s)

/-- Ends the sessions that have been idle for too long. -/
def sweep (now : Int) (s : Server) : List Signal × Server := { s with hub := s.hub.sweep now }.settle now

def setApiKey (key : Option String) (s : Server) : Server :=
  { s with hub := { s.hub with config := { s.hub.config with apiKey := key } } }

def setAllowedOrigins (origins : List String) (s : Server) : Server :=
  { s with hub := { s.hub with config := { s.hub.config with allowedOrigins := origins } } }

/-! ## Life cycle -/

/-- Opens the listener and sweeps the sessions once. A configuration that is switched off leaves the
server stopped, and so does any failure. -/
def start (bind : Binder) (now : Int) (s : Server) : Except Error Unit × Server :=
  if s.isRunning then (.error .alreadyRunning, s)
  else if !s.hub.config.enabled then (.ok (), s)
  else match s.hub.config.check with
    | .error flaw => (.error (.config flaw), s)
    | .ok () => match bind s.hub.config.endpoint with
      | .error reason => (.error (.bind s.hub.config.endpoint reason), s)
      | .ok endpoint =>
        let hub := { s.hub with queue := s.hub.queue.reopen }.emit (.started endpoint)
        (.ok (), { s with hub := hub.sweep now, listener := some endpoint })

def finishAll : List (Nat × Connection) → Hub → List Signal × Hub
  | [], h => ([], h)
  | (id, c) :: rest, h =>
    let step := c.finish id h
    let (later, h) := finishAll rest step.hub
    (signalsOf id step ++ later, h)

/-- Refuses what is queued, ends every connection and closes the listener; sessions stay. -/
def stop (s : Server) : List Signal × Server :=
  if s.isRunning then
    let (signals, hub) := finishAll s.connections s.hub.shutDown
    (signals, { s with hub := hub.emit .stopped, listener := none, connections := [] })
  else ([], s)

def restart (bind : Binder) (now : Int) (s : Server) : Except Error Unit × List Signal × Server :=
  let (signals, s) := s.stop
  let (result, s) := s.start bind now
  (result, signals, s)

/-- Starts or stops the server where that makes a difference. -/
def setEnabled (bind : Binder) (now : Int) (enabled : Bool) (s : Server) :
    Except Error Unit × List Signal × Server :=
  let s := { s with hub := { s.hub with config := { s.hub.config with enabled } } }
  match enabled, s.isRunning with
  | false, true =>
    let (signals, s) := s.stop
    (.ok (), signals, s)
  | true, false =>
    let (result, s) := s.start bind now
    (result, [], s)
  | _, _ => (.ok (), [], s)

/-- Another port restarts a running server. -/
def setPort (bind : Binder) (now : Int) (port : Nat) (s : Server) :
    Except Error Unit × List Signal × Server :=
  let changed := s.hub.config.port ≠ port
  let s := { s with hub := { s.hub with config := { s.hub.config with port } } }
  if changed ∧ s.isRunning then s.restart bind now else (.ok (), [], s)

end Server

end ToolBridge

import Std.Async.Signal
import Std.Async.TCP
import Std.Time.DateTime.Timestamp
import ToolBridge.CommandLine
import ToolBridge.Server.Basic
import ToolBridge.Tool.Builtin

/-! The program: it reads its configuration, listens, and plays the host of the built-in tools with a
tick about sixty times a second until it is interrupted. -/

namespace ToolBridge.Program

open Std.Async

def log (line : String) : IO Unit := IO.eprintln line

def usage : String := "Usage: mcp-bridge [OPTIONS]

Options:
  -c, --config <CONFIG>                JSON config file; missing file means defaults
  -p, --port <PORT>                    Listen port
      --bind <BIND>                    Bind address
      --path <PATH>                    Endpoint path
      --api-key <API_KEY>              Require this API key from clients
      --allow-origin <ALLOWED_ORIGINS> Allowed Origin values (repeatable)
  -h, --help                           Print help
  -V, --version                        Print version"

/-- Nanoseconds of the calendar's clock. -/
def now : IO Int := return (← Std.Time.Timestamp.now).toNanosecondsSinceUnixEpoch.val

/-! ## Configuration -/

def readEnvironment : IO Environment :=
  (CommandLine.configVariable :: Config.Variable.all.map (·.name)).filterMapM fun name =>
    return (← IO.getEnv name).map (name, ·)

def readFile (name : String) : IO Config.File := do
  try
    return .content (← IO.FS.readBinFile name).toList
  catch
    | .noFileOrDirectory .. => return .missing
    | e => return .unreadable (toString e)

/-! ## Sockets -/

def toSocketAddress (e : Net.Endpoint) : Std.Net.SocketAddress :=
  match e.address with
  | .v4 a b c d => .v4 ⟨⟨#v[a, b, c, d]⟩, e.port.toUInt16⟩
  | .v6 groups => .v6 ⟨⟨groups⟩, e.port.toUInt16⟩

def portOf : Std.Net.SocketAddress → Nat
  | .v4 a => a.port.toNat
  | .v6 a => a.port.toNat

/-- Listens on an endpoint; what the system gave may have a port where none was asked for. -/
def listen (listener : TCP.Socket.Server) (e : Net.Endpoint) : IO (Except String Net.Endpoint) := do
  try
    listener.bind (toSocketAddress e)
    listener.listen 128
    return .ok { e with port := portOf (← listener.getSockName) }
  catch reason => return .error (toString reason)

/-- An accepted connection, what arrives on it next if the other side still sends, and since when it
has waited. -/
structure Client where
  id : Nat
  socket : TCP.Socket.Client
  arriving : Option (AsyncTask (Option ByteArray))
  since : Int

structure State where
  server : Server
  clients : List Client := []

abbrev Running := StateT State IO

def arrival (socket : TCP.Socket.Client) : IO (AsyncTask (Option ByteArray)) :=
  (socket.recv? 65536).toIO

/-- A write that fails tells the server that the other side is lost. -/
partial def carryOut (signals : List Server.Signal) : Running Unit := do
  for signal in signals do
    match signal with
    | .data id bytes =>
      for client in (← get).clients.filter (·.id == id) do
        try
          (client.socket.send ⟨bytes.toArray⟩).block
        catch _ =>
          let (later, server) := (← get).server.leave (← now) id .lost
          modify fun s => { s with server }
          carryOut later
    | .closed id =>
      for client in (← get).clients.filter (·.id == id) do
        try
          client.socket.shutdown.block
        catch _ => pure ()
      modify fun s => { s with clients := s.clients.filter (·.id != id) }

/-- Whether a connection waits anew: for something else, or for the next request after an answer. -/
def waitsAnew (id : Nat) (before after : Server) (signals : List Server.Signal) : Bool :=
  let phase (s : Server) := (s.connections.get? id).map (·.phase)
  let answered := signals.any fun
    | .data other _ => other == id
    | .closed _ => false
  phase after != phase before || answered && !((phase after).any fun
    | .streaming _ _ => true
    | _ => false)

/-- Lets the server act, and does what comes of it. -/
def act (action : Server → List Server.Signal × Server) : Running Unit := do
  let before := (← get).server
  let (signals, server) := action before
  let time ← now
  modify fun s => { s with
    server
    clients := s.clients.map fun c =>
      if waitsAnew c.id before server signals then { c with since := time } else c }
  carryOut signals

partial def acceptAll (listener : TCP.Socket.Server) : Running Unit := do
  match ← listener.tryAccept with
  | none => return
  | some socket => match (← get).server.connect with
    | none => return
    | some (id, server) =>
      socket.noDelay
      let client : Client := ⟨id, socket, some (← arrival socket), ← now⟩
      modify fun s => ⟨server, s.clients ++ [client]⟩
      acceptAll listener

def awaitMore (id : Nat) (arriving : Option (AsyncTask (Option ByteArray))) : Running Unit :=
  modify fun s => { s with clients := s.clients.map fun c =>
    if c.id == id then { c with arriving } else c }

/-- Hands over what has arrived on a connection by now, or that nothing more will. -/
def readFrom (client : Client) : Running Unit := do
  let some arriving := client.arriving | return
  if !(← IO.hasFinished arriving) then return
  let time ← now
  match arriving.get with
  | .ok (some bytes) =>
    awaitMore client.id (some (← arrival client.socket))
    act fun server => server.receive time client.id bytes.toList
  | .ok none =>
    awaitMore client.id none
    act fun server => server.leave time client.id .finished
  | .error _ =>
    awaitMore client.id none
    act fun server => server.leave time client.id .lost

/-- What a connection keeps time for, and for how many nanoseconds. -/
def timer? (c : Config) : Server.Phase → Option (Server.Timer × Int)
  | .reading _ | .parked _ _ _ => some (.patience, c.requestTimeoutSecs * 1000000000)
  | .streaming _ _ => some (.keepAlive, c.keepAliveInterval * 1000000000)
  | .closed => none

def keepTime (client : Client) : Running Unit := do
  let time ← now
  let server := (← get).server
  let some (timer, period) := (server.connections.get? client.id).bind fun c =>
    timer? server.hub.config c.phase | return
  if time - client.since < period then return
  modify fun s => { s with clients := s.clients.map fun c =>
    if c.id == client.id then { c with since := time } else c }
  act fun server => server.lapse timer time client.id

/-! ## The host -/

def tickMilliseconds : UInt32 := 16

/-- Nanoseconds between two sweeps of idle sessions. -/
def sweepInterval (c : Config) : Int :=
  max 1000000000 (min 30000000000 (c.sessionIdle / 4))

/-- Ticks until the interruption comes; `swept` is when sessions were swept last. -/
partial def run (listener : TCP.Socket.Server) (interruption : AsyncTask Int) (swept : Int) :
    Running Unit := do
  if ← IO.hasFinished interruption then return
  acceptAll listener
  for client in (← get).clients do
    readFrom client
  for client in (← get).clients do
    keepTime client
  let time ← now
  act fun server => match server.tick? time with
    | some (_, signals, server) => (signals, server)
    | none => ([], server)
  let due := time - swept ≥ sweepInterval (← get).server.hub.config
  if due then act fun server => server.sweep time
  IO.sleep tickMilliseconds
  run listener interruption (if due then time else swept)

def serve (config : Config) : IO UInt32 := do
  let listener ← TCP.Socket.Server.mk
  let interrupt ← Signal.Waiter.mk .sigint false
  let interruption ← interrupt.wait
  let bound ← if config.enabled then listen listener config.endpoint else pure (.ok config.endpoint)
  let start ← now
  let host := { Server.ofConfig config {} with executor := some ({} : Tool.Table).withBuiltin }
  match host.start (fun _ => bound) start with
  | (.error e, _) =>
    log s!"ERROR {e.message}"
    return 1
  | (.ok (), server) => match server.listener with
    | none => return 0
    | some endpoint =>
      log s!"INFO listening on {endpoint.text}, path {config.path}"
      let (_, state) ← (run listener interruption start).run ⟨server, []⟩
      log "INFO shutting down"
      let _ ← (act fun server => server.stop).run state
      return 0

end ToolBridge.Program

open ToolBridge in
def main (arguments : List String) : IO UInt32 := do
  let env ← Program.readEnvironment
  match CommandLine.parse env arguments with
  | .help =>
    IO.println Program.usage
    return 0
  | .version =>
    IO.println s!"{({} : ServerInfo).name} {({} : ServerInfo).version}"
    return 0
  | .usage =>
    IO.eprintln Program.usage
    return 2
  | .run options =>
    let file ← options.config.mapM Program.readFile
    match CommandLine.config file env options with
    | .error e =>
      Program.log s!"ERROR {e.message}"
      return 1
    | .ok config => Program.serve config

import ToolBridge.Config.Basic
import ToolBridge.Queue.Basic
import ToolBridge.Queue.Slots
import ToolBridge.Server.Event
import ToolBridge.Stream.Registry

/-! What the connections, the host's executor and the listener of one server share. -/

namespace ToolBridge.Server

structure Hub where
  config : Config := {}
  info : ServerInfo := {}
  sessions : SessionTable := {}
  streams : Stream.Registry := {}
  queue : Queue := {}
  slots : Queue.Slots := {}
  /-- Everything observers were told, in order. -/
  events : List Event := []

namespace Hub

def emit (event : Event) (h : Hub) : Hub := { h with events := h.events ++ [event] }

def touch (now : Int) (session : String) (h : Hub) : Bool × Hub :=
  let (known, sessions) := h.sessions.touch now session
  (known, { h with sessions })

def health (h : Hub) : Json :=
  .obj [
    ("name", .str h.info.name),
    ("queued", .ofNat h.queue.size),
    ("sessions", .ofNat h.sessions.size),
    ("status", .str "ok"),
    ("streams", .ofNat h.streams.size),
    ("version", .str h.info.version)]

/-- Ends a session, its stream and what waits for it; observers hear of the stream first. -/
def expire (session : String) (h : Hub) : Hub :=
  let (connection, streams) := h.streams.closeSession session
  let h := { h with streams }
  let h := match connection with
    | some id => h.emit (.streamClosed session id)
    | none => h
  h.emit (.sessionClosed session)

/-- Drops what waits for a session that is gone. -/
def discardDead (session : String) (h : Hub) : Hub :=
  if h.sessions.contains session then h
  else { h with streams := (h.streams.discardPending session).2 }

/-- Ends the sessions that have been idle for too long. -/
def sweep (now : Int) (h : Hub) : Hub :=
  let swept := h.sessions.sweep now h.config.sessionIdle
  let h := swept.1.foldl (fun h session => h.expire session) { h with sessions := swept.2 }
  h.streams.pendingSessions.foldl (fun h session => h.discardDead session) h

/-! The writer of a stream: its events, and how it ends. -/

/-- A writer that cannot reach its peer any more. -/
def failStream (connection : Nat) (session : String) (failed : Option EventStream.Frame) (outbox : Nat)
    (h : Hub) : Hub :=
  let (removed, streams) := h.streams.fail connection failed outbox
  let h := { h with streams }
  if removed.isSome then h.emit (.streamClosed session connection) else h

/-- A writer whose outbox has ended. -/
def endStream (connection : Nat) (session : String) (h : Hub) : Hub :=
  let (removed, streams) := h.streams.unregister connection
  let h := { h with streams }
  if removed.isSome then h.emit (.streamClosed session connection) else h

/-! Shutting down. -/

/-- A queued call is told that nobody will run it, under its id. -/
def refuseQueued (p : Queue.Pending) (h : Hub) : Hub :=
  match p.route with
  | .stream => h
  | .direct ticket =>
    let id := ((Json.parse p.body).toOption.map Rpc.Request.idOf).getD .null
    { h with slots := (h.slots.answer ticket ⟨some (.shuttingDown id), p.session, false⟩).2 }

/-- Closes the queue, refuses what is in it, and drops every stream with all that waits for one. -/
def shutDown (h : Hub) : Hub :=
  let (drained, queue) := h.queue.close
  let h := drained.foldl (fun h p => h.refuseQueued p) { h with queue }
  { h with streams := h.streams.closeAll.2 }

end Hub

end ToolBridge.Server

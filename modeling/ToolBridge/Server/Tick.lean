import ToolBridge.Server.Hub

/-! The host's tick: a bounded batch of queued requests is run against its tools, in order. -/

namespace ToolBridge.Server.Tick

/-- Runs one request. A crash of the registry is answered like an error of the call. -/
def perform (registry : Tool.Registry) (now : Int) (p : Queue.Pending) (h : Hub) :
    Dispatch.Answer × Hub :=
  let (result, sessions) := Dispatch.dispatch registry h.info now p.body p.session h.sessions
  ((match result with
    | .ok answer => answer
    | .error crash => ⟨some (.internalError .null crash.message), p.session, false⟩),
    { h with sessions })

/-- Tells observers of the session that a request set up. -/
def announce (a : Dispatch.Answer) (h : Hub) : Hub :=
  match a.created, a.session with
  | true, some session => h.emit (.sessionOpened session)
  | _, _ => h

/-- The session and the reply for its stream, if there is anyone to collect it. -/
def collectible? (a : Dispatch.Answer) (h : Hub) : Option (String × Rpc.Reply) :=
  match a.reply, a.session with
  | some reply, some session => if h.sessions.contains session then some (session, reply) else none
  | _, _ => none

def hand (p : Queue.Pending) (a : Dispatch.Answer) (h : Hub) : Hub :=
  match p.route with
  | .direct ticket => { h with slots := (h.slots.answer ticket a).2 }
  | .stream => match collectible? a h with
    | some (session, reply) => { h with streams := (h.streams.deliver session reply.text).2 }
    | none => h

def process (registry : Tool.Registry) (now : Int) (p : Queue.Pending) (h : Hub) : Hub :=
  let (answer, h) := perform registry now p h
  hand p answer (announce answer h)

/-- How many requests were run: as many as allowed, and at least one may always be. -/
def tick (registry : Tool.Registry) (now : Int) (h : Hub) : Nat × Hub :=
  let (batch, queue) := h.queue.take (max 1 h.config.maxRequestsPerTick)
  (batch.length, batch.foldl (fun h p => process registry now p h) { h with queue })

end ToolBridge.Server.Tick

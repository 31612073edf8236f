import ToolBridge.Stream.Outbox

/-! Open event streams, at most one in use a session, and the replies that wait for one. A reply goes
into the outbox of its session's stream under the next event id, or waits until a stream opens.
What a failed writer leaves behind waits before everything that came later. -/

namespace ToolBridge.Stream

open EventStream (Frame)

/-- No event id is greater. -/
def lastId : Nat := 2147483647

structure Connection where
  session : String
  /-- Id of the last event put into the outbox, 0 before any. -/
  last : Nat
  outbox : Nat
  /-- It has not been taken out of the registry. -/
  active : Bool := true
deriving DecidableEq, Repr

structure Registry where
  connections : Entries Nat Connection := []
  /-- The connection that replies of a session go to. -/
  current : Entries String Nat := []
  pending : Entries String (List String) := []
  outboxes : Outboxes := {}
deriving DecidableEq, Repr

structure Registration where
  outbox : Nat
  /-- The stream of the same session that this one takes the place of. -/
  superseded : Option Nat
  /-- How many waiting replies went into the outbox at once. -/
  flushed : Nat
deriving DecidableEq, Repr

inductive Delivery where
  | streamed (connection : Nat) (event : Nat)
  | buffered
deriving DecidableEq, Repr

namespace Registry

def size (r : Registry) : Nat := r.connections.length

def pendingOf (session : String) (r : Registry) : List String := (r.pending.get? session).getD []

/-- No entry is kept for a session without waiting replies. -/
def setPending (session : String) (waiting : List String) (r : Registry) : Registry :=
  { r with pending :=
      if waiting.isEmpty then r.pending.erase session else r.pending.put session waiting }

def buffer (session : String) (data : String) (r : Registry) : Registry :=
  r.setPending session (r.pendingOf session ++ [data])

/-- Takes a connection out and lets go of its outbox. Its session keeps a newer stream. -/
def remove (connection : Nat) (r : Registry) : Option Connection × Registry :=
  match r.connections.get? connection with
  | none => (none, r)
  | some c =>
    (some { c with active := false }, { r with
      connections := r.connections.erase connection
      current :=
        if r.current.get? c.session = some connection then r.current.erase c.session else r.current
      outboxes := r.outboxes.endFeed c.outbox })

/-- Puts data into the outbox of a connection under the next id; none where ids have run out or
nobody reads. -/
def push? (c : Connection) (data : String) (o : Outboxes) : Option (Connection × Outboxes) :=
  if c.last < lastId then
    (o.send? c.outbox (.message (c.last + 1) data)).map fun o => ({ c with last := c.last + 1 }, o)
  else none

/-- Puts in as many as there are ids for; gives what is left and how many went in. -/
def flush (c : Connection) (o : Outboxes) (flushed : Nat) :
    List String → Connection × Outboxes × List String × Nat
  | [] => (c, o, [], flushed)
  | data :: rest => match push? c data o with
    | some (c, o) => flush c o (flushed + 1) rest
    | none => (c, o, data :: rest, flushed)

/-- The id that events go on from: the one resumed after if ids are left beyond it, else none yet. -/
def resumePoint (resume : Option Int) : Nat :=
  match resume with
  | some id => if 0 ≤ id ∧ id < lastId then id.toNat else 0
  | none => 0

/-- Opens a stream. What waits for the session goes into its outbox first. -/
def register (connection : Nat) (session : String) (resume : Option Int) (r : Registry) :
    Registration × Registry :=
  let superseded := (r.current.get? session).filter (· ≠ connection)
  let r := match superseded with
    | some old => (r.remove old).2
    | none => r
  let (box, outboxes) := r.outboxes.make
  let (c, outboxes, left, flushed) :=
    flush { session, last := resumePoint resume, outbox := box } outboxes 0 (r.pendingOf session)
  let outboxes := match r.connections.get? connection with
    | some earlier => outboxes.endFeed earlier.outbox
    | none => outboxes
  (⟨box, superseded, flushed⟩,
    { r.setPending session left with
      connections := r.connections.put connection c
      current := r.current.put session connection
      outboxes })

def unregister (connection : Nat) (r : Registry) : Option Connection × Registry :=
  r.remove connection

def find? (session : String) (r : Registry) : Option Nat :=
  (r.current.get? session).filter fun id => (r.connections.get? id).any (·.active)

/-- The id that the next event of a connection will have. -/
def nextEvent? (connection : Nat) (r : Registry) : Option Nat :=
  (r.connections.get? connection).bind fun c => if c.last < lastId then some (c.last + 1) else none

def deliver (session : String) (data : String) (r : Registry) : Delivery × Registry :=
  match r.current.get? session with
  | none => (.buffered, r.buffer session data)
  | some connection =>
    match (r.connections.get? connection).bind fun c =>
        if c.active then push? c data r.outboxes else none with
    | some (c, outboxes) =>
      (.streamed connection c.last,
        { r with connections := r.connections.put connection c, outboxes })
    | none => (.buffered, (r.remove connection).2.buffer session data)

/-- A writer gives up: the frame it could not write and all that is left in its outbox wait again,
before what waits already. Only replies are kept. -/
def fail (connection : Nat) (failed : Option Frame) (outbox : Nat) (r : Registry) :
    Option Connection × Registry :=
  match r.remove connection with
  | (none, r) => (none, r)
  | (some c, r) =>
    let (left, outboxes) := r.outboxes.drain outbox
    let undelivered := ((failed.toList ++ left).filter (·.event = some "message")).map (·.data)
    (some c, { r with outboxes }.setPending c.session (undelivered ++ r.pendingOf c.session))

/-- Drops a session's stream and what waits for it. -/
def closeSession (session : String) (r : Registry) : Option Nat × Registry :=
  let r := r.setPending session []
  match r.current.get? session with
  | none => (none, r)
  | some connection =>
    let (removed, r) := r.remove connection
    (removed.map fun _ => connection, r)

def pendingSessions (r : Registry) : List String := r.pending.keys

def discardPending (session : String) (r : Registry) : Nat × Registry :=
  ((r.pendingOf session).length, r.setPending session [])

def closeAll (r : Registry) : List Nat × Registry :=
  (r.connections.keys,
    { outboxes := r.connections.foldl (fun o (_, c) => o.endFeed c.outbox) r.outboxes })

end Registry

end ToolBridge.Stream

import ToolBridge.Entries

/-! Requests waiting for the host, first come, first served. A closed queue is empty and takes none. -/

namespace ToolBridge

namespace Queue

/-- Where the answer goes. -/
inductive Route where
  /-- Back on the connection that the request came on, through a reply slot. -/
  | direct (ticket : Nat)
  /-- Onto the event stream of its session. -/
  | stream
deriving DecidableEq, Repr

structure Pending where
  connection : Nat
  method : String := "POST"
  path : String
  headers : Entries String String
  body : String
  session : Option String
  route : Route
deriving DecidableEq, Repr

end Queue

structure Queue where
  items : List Queue.Pending := []
  closed : Bool := false
deriving DecidableEq, Repr

namespace Queue

def size (q : Queue) : Nat := q.items.length

/-- None where the queue is closed. -/
def push? (p : Pending) (q : Queue) : Option Queue :=
  if q.closed then none else some { q with items := q.items ++ [p] }

/-- At most `most` requests from the front. -/
def take (most : Nat) (q : Queue) : List Pending × Queue :=
  (q.items.take most, { q with items := q.items.drop most })

def close (q : Queue) : List Pending × Queue := (q.items, ⟨[], true⟩)

def reopen (q : Queue) : Queue := { q with closed := false }

end Queue

end ToolBridge

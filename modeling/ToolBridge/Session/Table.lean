/-! Sessions: minted under fresh ids, refreshed by use, ended by closing or by a sweep of those idle
for too long. Times are nanoseconds on a clock that the caller reads. -/

namespace ToolBridge

structure Session where
  id : String
  createdAt : Int
  lastSeen : Int
deriving DecidableEq, Repr

/-- The id that the `n`-th mint gives: `n` in 32 hexadecimal digits. -/
def Session.idOf (n : Nat) : String :=
  let digits := Nat.toDigits 16 n
  .ofList (List.replicate (32 - digits.length) '0' ++ digits)

structure SessionTable where
  /-- How many sessions have been minted. -/
  minted : Nat := 0
  sessions : List Session := []
deriving DecidableEq, Repr

namespace SessionTable

def get? (t : SessionTable) (id : String) : Option Session := t.sessions.find? (·.id == id)

def contains (t : SessionTable) (id : String) : Bool := (t.get? id).isSome

def size (t : SessionTable) : Nat := t.sessions.length

def create (now : Int) (t : SessionTable) : Session × SessionTable :=
  let session : Session := ⟨Session.idOf (t.minted + 1), now, now⟩
  (session, ⟨t.minted + 1, t.sessions ++ [session]⟩)

def refresh (now : Int) (id : String) (t : SessionTable) : SessionTable :=
  { t with sessions := t.sessions.map fun s => if s.id == id then { s with lastSeen := now } else s }

/-- Whether the session is known, which refreshes it. -/
def touch (now : Int) (id : String) (t : SessionTable) : Bool × SessionTable :=
  if t.contains id then (true, t.refresh now id) else (false, t)

/-- The named session, refreshed, or a new one; the flag says which. -/
def ensure (now : Int) (id : Option String) (t : SessionTable) : Session × Bool × SessionTable :=
  match id.bind t.get? with
  | some session => ({ session with lastSeen := now }, false, t.refresh now session.id)
  | none =>
    let (session, t) := t.create now
    (session, true, t)

def close (id : String) (t : SessionTable) : Bool × SessionTable :=
  (t.contains id, { t with sessions := t.sessions.filter (·.id != id) })

/-- Longest idle time that can be told from a longer one, in nanoseconds. -/
def longestIdle : Nat := 9223372036854775807 * 1000000

/-- Ends every session last seen more than `idle` nanoseconds before `now`, and gives their ids. -/
def sweep (now : Int) (idle : Nat) (t : SessionTable) : List String × SessionTable :=
  if idle > longestIdle then ([], t)
  else
    let expired (s : Session) : Bool := now - s.lastSeen > idle
    ((t.sessions.filter expired).map (·.id),
      { t with sessions := t.sessions.filter fun s => !expired s })

end SessionTable

end ToolBridge

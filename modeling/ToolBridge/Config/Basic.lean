import ToolBridge.Error
import ToolBridge.Text.Blank

/-! The configuration of a server and what makes it valid. -/

namespace ToolBridge

structure Config where
  enabled : Bool := true
  port : Nat := 8080
  address : Net.Address := .loopback
  /-- The path that the endpoint is served on. -/
  path : String := "/"
  /-- Blank or absent, it asks for no key. -/
  apiKey : Option String := none
  /-- Empty, it lets every origin in; so does an entry `*`. -/
  allowedOrigins : List String := []
  maxRequestsPerTick : Nat := 32
  maxBodyBytes : Nat := 4194304
  requestTimeoutSecs : Nat := 120
  sessionIdleTimeoutSecs : Nat := 1800
  keepAliveSecs : Nat := 15
deriving DecidableEq, Repr

namespace Config

def check (c : Config) : Except ConfigFlaw Unit :=
  if c.path.toList.head? ≠ some '/' then .error (.pathNotRooted c.path)
  else if c.maxRequestsPerTick = 0 then .error .noRequestsPerTick
  else .ok ()

def endpoint (c : Config) : Net.Endpoint := ⟨c.address, c.port⟩

/-- The key without blanks around it, if that leaves any. -/
def effectiveKey (c : Config) : Option String := (c.apiKey.map Text.trim).filter (· ≠ "")

/-- Nanoseconds that a session may be idle. -/
def sessionIdle (c : Config) : Nat := c.sessionIdleTimeoutSecs * 1000000000

/-- Seconds between keep-alive comments, at least one. -/
def keepAliveInterval (c : Config) : Nat := max 1 c.keepAliveSecs

end Config

end ToolBridge

import ToolBridge.Config.Basic
import ToolBridge.Json.Record

/-! Configurations kept as JSON text. Absent fields keep their defaults; what is read from a file
must be valid as it stands. -/

namespace ToolBridge.Config

def readAddress : Json.Reader Net.Address := fun input => do
  let (s, rest) ← Json.readText "IP address" input
  match Net.Address.parse? s with
  | some address => .ok (address, rest)
  | none => .error (.before rest .notAnAddress)

def readNat (bound : Nat) (type : String) : Json.Reader Nat := fun input =>
  (Json.readWhole 0 bound type input).map fun (n, rest) => (n.toNat, rest)

/-- An optional field: its value and what setting it does. -/
def field {α : Type} (name : String) (read : Json.Reader α) (set : α → Config → Config) :
    Json.Field Config where
  name
  read := fun input => (read input).map fun (value, rest) => (set value, rest)
  required := false

def record : Json.Record Config where
  title := "ServerConfig"
  start := {}
  fields := [
    field "enabled" Json.readBool fun value c => { c with enabled := value },
    field "port" (readNat UInt16.size "u16") fun value c => { c with port := value },
    field "bindAddress" readAddress fun value c => { c with address := value },
    field "path" (Json.readText "a string") fun value c => { c with path := value },
    field "apiKey" (Json.readOption (Json.readText "a string")) fun value c => { c with apiKey := value },
    field "allowedOrigins" (Json.readList (Json.readText "a string")) fun value c =>
      { c with allowedOrigins := value },
    field "maxRequestsPerTick" (readNat UInt64.size "usize") fun value c => { c with maxRequestsPerTick := value },
    field "maxBodyBytes" (readNat UInt64.size "usize") fun value c => { c with maxBodyBytes := value },
    field "requestTimeoutSecs" (readNat UInt64.size "u64") fun value c => { c with requestTimeoutSecs := value },
    field "sessionIdleTimeoutSecs" (readNat UInt64.size "u64") fun value c =>
      { c with sessionIdleTimeoutSecs := value },
    field "sseKeepaliveSecs" (readNat UInt64.size "u64") fun value c => { c with keepAliveSecs := value }]

def toJson (c : Config) : Json :=
  .obj [
    ("enabled", .bool c.enabled),
    ("port", .ofNat c.port),
    ("bindAddress", .str c.address.text),
    ("path", .str c.path),
    ("apiKey", c.apiKey.elim .null .str),
    ("allowedOrigins", .arr (c.allowedOrigins.map .str)),
    ("maxRequestsPerTick", .ofNat c.maxRequestsPerTick),
    ("maxBodyBytes", .ofNat c.maxBodyBytes),
    ("requestTimeoutSecs", .ofNat c.requestTimeoutSecs),
    ("sessionIdleTimeoutSecs", .ofNat c.sessionIdleTimeoutSecs),
    ("sseKeepaliveSecs", .ofNat c.keepAliveSecs)]

/-- The text that is saved. -/
def fileText (c : Config) : String := c.toJson.prettyText

def parse (s : String) : Except ConfigFlaw Config :=
  match Json.readAll record.read (Text.utf8 s) with
  | .ok c => .ok c
  | .error fault => .error (.stated (fault.message (Text.utf8 s)))

/-- What stands where a configuration file is looked for. -/
inductive File where
  | missing
  | unreadable (reason : String)
  | content (bytes : Bytes)
deriving DecidableEq, Repr

def load : File → Except Error Config
  | .missing => .ok {}
  | .unreadable reason => .error (.transport reason)
  | .content bytes => match Text.ofUtf8? bytes with
    | none => .error (.transport "stream did not contain valid UTF-8")
    | some s => do
      let c ← (parse s).mapError .config
      c.check.mapError .config
      return c

end ToolBridge.Config

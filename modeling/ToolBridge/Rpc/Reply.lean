import ToolBridge.Json.Reader

/-! Replies to remote calls: a result or an error, under the id of the call. -/

namespace ToolBridge.Rpc

structure ErrorObject where
  code : Int
  message : String
  data : Option Json := none

inductive Outcome where
  | result (value : Json)
  | error (error : ErrorObject)

structure Reply where
  version : String := "2.0"
  id : Json
  outcome : Outcome

namespace Reply

def success (id result : Json) : Reply := { id, outcome := .result result }

def failure (id : Json) (code : Int) (message : String) (data : Option Json := none) : Reply :=
  { id, outcome := .error { code, message, data } }

def detail (name text : String) : Option Json := some (.obj [(name, .str text)])

def parseError (id : Json) (details : String) : Reply :=
  failure id (-32700) "Parse error" (detail "details" details)

def invalidRequest (id : Json) (details : String) : Reply :=
  failure id (-32600) "Invalid Request" (detail "details" details)

def methodNotFound (id : Json) (method : String) : Reply :=
  failure id (-32601) "Method not found" (detail "method" method)

def toolNotFound (id : Json) (tool : String) : Reply :=
  failure id (-32601) "Tool not found" (detail "tool" tool)

def invalidParams (id : Json) (details : String) : Reply :=
  failure id (-32602) "Invalid params" (detail "details" details)

def internalError (id : Json) (details : String) : Reply :=
  failure id (-32603) "Internal error" (detail "details" details)

def shuttingDown (id : Json) : Reply := failure id (-32603) "Server shutting down"

def isError (r : Reply) : Bool :=
  match r.outcome with
  | .result _ => false
  | .error _ => true

def errorJson (e : ErrorObject) : Json :=
  .obj ([("code", .ofInt e.code), ("message", .str e.message)] ++
    (e.data.map fun data => ("data", data)).toList)

def toJson (r : Reply) : Json :=
  .obj [("jsonrpc", .str r.version), ("id", r.id), match r.outcome with
    | .result value => ("result", value)
    | .error e => ("error", errorJson e)]

def text (r : Reply) : String := r.toJson.text

/-! Reading. A reply is told from its members alone: one with a result is a success, whatever else
it has; else one with a well-formed error is an error. -/

/-- The value of a member that must not come twice; none where it does not come, or does. -/
def single? (members : List (String × Json)) (name : String) : Option (Option Json) :=
  match members.filter (·.1 == name) with
  | [] => some none
  | [(_, value)] => some (some value)
  | _ => none

def required? (members : List (String × Json)) (name : String) : Option Json :=
  (single? members name).join

def int32? : Json → Option Int
  | .num (.int n) => if -2147483648 ≤ n ∧ n ≤ 2147483647 then some n else none
  | _ => none

def optional : Json → Option Json
  | .null => none
  | value => some value.settle

/-- From its members, or from a list of its code, message and perhaps data. -/
def readError? : Json → Option ErrorObject
  | .obj members => do
    let code ← int32? (← required? members "code")
    let message ← (← required? members "message").asString?
    let data ← single? members "data"
    return { code, message, data := data.bind optional }
  | .arr (code :: message :: more) => do
    let code ← int32? code
    let message ← message.asString?
    match more with
    | [] => return { code, message }
    | [data] => return { code, message, data := optional data }
    | _ => none
  | _ => none

def readSuccess? : Json → Option Reply
  | .obj members => do
    let version ← (← required? members "jsonrpc").asString?
    let id ← required? members "id"
    let result ← required? members "result"
    return { version, id := id.settle, outcome := .result result.settle }
  | .arr [version, id, result] => do
    return { version := ← version.asString?, id := id.settle, outcome := .result result.settle }
  | _ => none

def readFailure? : Json → Option Reply
  | .obj members => do
    let version ← (← required? members "jsonrpc").asString?
    let id ← required? members "id"
    let error ← readError? (← required? members "error")
    return { version, id := id.settle, outcome := .error error }
  | .arr [version, id, error] => do
    return { version := ← version.asString?, id := id.settle, outcome := .error (← readError? error) }
  | _ => none

def ofJson? (raw : Json) : Option Reply := readSuccess? raw <|> readFailure? raw

/-- What is wrong with a text that is no reply. A text that is JSON at its front but no reply there
is refused as a whole, at no place. -/
def read (input : Bytes) : Except String Reply := do
  match Json.readValue Json.maxDepth input with
  | .error fault => .error (fault.message input)
  | .ok (raw, rest) => match ofJson? raw with
    | none => .error (Json.Cause.noVariant "JsonRpcReply").message
    | some reply => match Json.readEnd rest with
      | .ok () => .ok reply
      | .error fault => .error (fault.message input)

def parse (s : String) : Except String Reply := read (Text.utf8 s)

end Reply

end ToolBridge.Rpc

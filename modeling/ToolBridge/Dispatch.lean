import ToolBridge.Protocol.Version
import ToolBridge.Rpc.Request
import ToolBridge.Session.Table
import ToolBridge.Tool.Registry

/-! Answering one call: the methods, the checks before a tool runs, and the reply. A notification is
answered by nothing, whatever it did. -/

namespace ToolBridge

structure ServerInfo where
  name : String := "mcp-bridge"
  version : String := "1.3.0"
deriving DecidableEq, Repr

namespace Dispatch

inductive Method where
  | handshake
  | toolsList
  | toolsCall
  | ping
  | notification
  | unknown
deriving DecidableEq, Repr

def Method.ofName (name : String) : Method :=
  match name with
  | "initialize" => .handshake
  | "tools/list" => .toolsList
  | "tools/call" => .toolsCall
  | "ping" => .ping
  | _ => if "notifications/".toList.isPrefixOf name.toList then .notification else .unknown

/-- What became of a call: its reply if it wants one, and the session it belongs to. -/
structure Answer where
  reply : Option Rpc.Reply
  session : Option String := none
  created : Bool := false

def textContent (s : String) : Json :=
  .obj [("content", .arr [.obj [("text", .str s), ("type", .str "text")]])]

/-- A tool to run and what to run it with. -/
structure Invocation where
  tool : String
  arguments : Tool.Arguments
deriving DecidableEq, Repr

/-- Strings stand for themselves and other values for their text; a null is no argument. -/
def stringify (arguments : List (String × Json)) : Tool.Arguments :=
  arguments.filterMap fun (name, value) =>
    match value with
    | .null => none
    | .str s => some (name, s)
    | other => some (name, other.text)

def toolName? (params : Json) : Option String := (params.member? "name").bind Json.asString?

/-- The members of the arguments; none where they are there and no object. -/
def arguments? (params : Json) : Option (List (String × Json)) :=
  match params.member? "arguments" with
  | none | some .null => some []
  | some value => value.members?

def missing (d : Tool.Descriptor) (arguments : Tool.Arguments) : List String :=
  d.required.filter fun name => (arguments.lookup name).isNone

/-- The run that a call asks for of the listed tools, or the reply that refuses it. -/
def invocation (listed : List Tool.Descriptor) (id : Json) (tool : String) (params : Json) :
    Except Rpc.Reply Invocation :=
  match listed.find? (·.name == tool) with
  | none => .error (.toolNotFound id tool)
  | some descriptor => match arguments? params with
    | none => .error (.invalidParams id "arguments must be an object")
    | some members =>
      let arguments := stringify members
      let absent := missing descriptor arguments
      if absent.isEmpty then .ok ⟨tool, arguments⟩
      else .error (.invalidParams id
        ("missing required parameter(s): " ++ ", ".intercalate absent))

/-- The tools are asked for only once the call names one. -/
def plan (registry : Tool.Registry) (id : Json) (params : Option Json) :
    Except Tool.Crash (Except Rpc.Reply Invocation) :=
  match params with
  | none => .ok (.error (.invalidParams id "Missing parameters"))
  | some params => match toolName? params with
    | none => .ok (.error (.invalidParams id "Missing tool name"))
    | some tool => registry.list.map fun listed => invocation listed id tool params

def executionError (id : Json) (tool details : String) : Rpc.Reply :=
  .failure id (-32603) "Tool execution error"
    (some (.obj [("details", .str details), ("tool", .str tool)]))

def runReply (id : Json) (tool : String) : Tool.Run → Rpc.Reply
  | .text output => .success id (textContent output)
  | .failure (.notFound name) => .toolNotFound id name
  | .failure (.invalidParams details) => .invalidParams id details
  | .failure (.failed details) => executionError id tool details
  | .crash crash => executionError id tool crash.message

def callTool (registry : Tool.Registry) (id : Json) (params : Option Json) :
    Except Tool.Crash Rpc.Reply :=
  (plan registry id params).map fun
    | .error reply => reply
    | .ok run => runReply id run.tool (registry.run run.tool run.arguments)

def listTools (registry : Tool.Registry) (id : Json) : Except Tool.Crash Rpc.Reply :=
  registry.list.map fun listed =>
    .success id (.obj [("tools", .arr (listed.map fun d => d.listing.settle))])

def handshakeResult (info : ServerInfo) (params : Option Json) (session : String) : Json :=
  let requested := (params.bind (·.member? "protocolVersion")).bind Json.asString?
  .obj [
    ("capabilities", .obj [("tools", .obj [("listChanged", .bool false)])]),
    ("protocolVersion", .str (Protocol.Version.negotiate requested).date),
    ("serverInfo", .obj [("name", .str info.name), ("version", .str info.version)]),
    ("sessionId", .str session)]

/-- The answer to a well-formed call, its reply given even where none is wanted. -/
def answer (registry : Tool.Registry) (info : ServerInfo) (now : Int) (call : Rpc.Request)
    (session : Option String) (sessions : SessionTable) : Except Tool.Crash Answer × SessionTable :=
  let id := call.idOrNull
  match Method.ofName call.method with
  | .handshake =>
    let (ensured, created, sessions) := sessions.ensure now session
    (.ok ⟨some (.success id (handshakeResult info call.params ensured.id)), some ensured.id, created⟩,
      sessions)
  | .toolsList => ((listTools registry id).map fun reply => ⟨some reply, session, false⟩, sessions)
  | .toolsCall =>
    ((callTool registry id call.params).map fun reply => ⟨some reply, session, false⟩, sessions)
  | .ping => (.ok ⟨some (.success id (.obj [])), session, false⟩, sessions)
  | .notification => (.ok ⟨none, session, false⟩, sessions)
  | .unknown => (.ok ⟨some (.methodNotFound id call.method), session, false⟩, sessions)

/-- The answer to a body received under a session, or the crash of the registry that prevents it. -/
def dispatch (registry : Tool.Registry) (info : ServerInfo) (now : Int) (body : String)
    (session : Option String) (sessions : SessionTable) :
    Except Tool.Crash Answer × SessionTable :=
  match Rpc.Request.parse body with
  | .error refusal => (.ok ⟨some refusal, session, false⟩, sessions)
  | .ok call =>
    let (result, sessions) := answer registry info now call session sessions
    (result.map fun a => if call.isNotification then { a with reply := none } else a, sessions)

end Dispatch

end ToolBridge

import ToolBridge.Rpc.Reply
import ToolBridge.Text.Blank

/-! Remote calls: a method, perhaps parameters, and an id unless no reply is wanted. -/

namespace ToolBridge.Rpc

/-- An id or parameters written as `null` count as absent. -/
structure Request where
  id : Option Json
  method : String
  params : Option Json

namespace Request

def isNotification (r : Request) : Bool := r.id.isNone

def idOrNull (r : Request) : Json := r.id.getD .null

def present? (j : Json) (name : String) : Option Json :=
  match j.member? name with
  | some .null => none
  | found => found

/-- The id a reply to `body` goes out under. -/
def idOf (body : Json) : Json := (body.member? "id").getD .null

/-- A call from its JSON value, or the reply that refuses it. -/
def ofJson (body : Json) : Except Reply Request :=
  if !body.isObject then .error (.invalidRequest .null "request must be a JSON object")
  else if ((body.member? "jsonrpc").bind Json.asString?) ≠ some "2.0" then
    .error (.invalidRequest (idOf body) "jsonrpc must be '2.0'")
  else match (body.member? "method").bind Json.asString? with
    | none => .error (.invalidRequest (idOf body) "method must be a string")
    | some method => .ok ⟨present? body "id", method, present? body "params"⟩

def parse (body : String) : Except Reply Request :=
  if Text.trim body = "" then .error (.invalidRequest .null "empty request body")
  else match Json.parse body with
    | .error fault => .error (.parseError .null (fault.message (Text.utf8 body)))
    | .ok value => ofJson value

def toJson (r : Request) : Json :=
  .obj ([("jsonrpc", .str "2.0")] ++ (r.id.map fun id => ("id", id)).toList ++
    [("method", .str r.method)] ++ (r.params.map fun params => ("params", params)).toList)

end Request

end ToolBridge.Rpc

import ToolBridge.Http.Fields
import ToolBridge.Text.Percent
import ToolBridge.Text.Split

/-! Request targets: a path as it stands, and the parameters of the query with their escapes read. -/

namespace ToolBridge.Http

def plusToBlank (s : String) : String := .ofList (s.toList.map fun c => if c == '+' then ' ' else c)

/-- None where the name or the value is not text once its escapes are read. -/
def readParameter (pair : String) : Option (String × String) := do
  let (name, value) := (Text.cutAt '=' pair).getD (pair, "")
  let name ← Text.Percent.decode? (plusToBlank name)
  let value ← Text.Percent.decode? (plusToBlank value)
  return (name, value)

/-- Of a repeated name the last value counts; empty pairs and unreadable ones do not. -/
def readQuery (query : String) : Fields :=
  ((Text.split '&' query).filter (· ≠ "")).foldl (fun done pair =>
    match readParameter pair with
    | some (name, value) => done.put name value
    | none => done) []

def splitTarget (target : String) : String × Fields :=
  let (path, query) := (Text.cutAt '?' target).getD (target, "")
  (if path = "" then "/" else path, readQuery query)

end ToolBridge.Http

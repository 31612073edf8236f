import ToolBridge.Text.Numeral
import ToolBridge.Text.Split

/-! Frames of an event stream: lines `field: value` up to a blank line. -/

namespace ToolBridge.EventStream

structure Frame where
  event : Option String
  data : String
  id : Option Int
deriving DecidableEq, Repr

namespace Frame

def message (id : Int) (data : String) : Frame := ⟨some "message", data, some id⟩

/-- Tells a client of the older transport where to send its requests. -/
def endpoint (url : String) : Frame := ⟨some "endpoint", url, none⟩

/-- Every line of the data has a line of its own. -/
def encode (f : Frame) : String :=
  f.event.elim "" (fun event => "event: " ++ event ++ "\n") ++
    String.join ((Text.pieces '\n' f.data.toList).map fun line =>
      "data: " ++ String.ofList (Text.dropEndCr line) ++ "\n") ++
    f.id.elim "" (fun id => s!"id: {id}\n") ++ "\n"

structure Draft where
  event : Option String := none
  /-- The data lines, last first. -/
  data : List String := []
  id : Option Int := none

/-- One blank after the colon is not part of the value; a line without a colon is all field. -/
def splitField (line : String) : String × String :=
  let (field, value) := (Text.cutAt ':' line).getD (line, "")
  (field, match value.toList with
    | ' ' :: rest => .ofList rest
    | _ => value)

/-- Comments and unknown fields change nothing; data lines gather, of the rest the last counts. -/
def Draft.addLine (d : Draft) (line : String) : Draft :=
  if line = "" || line.toList.head? == some ':' then d
  else
    let (field, value) := splitField line
    if field = "event" then { d with event := some value }
    else if field = "data" then { d with data := value :: d.data }
    else if field = "id" then { d with id := Text.readInt 32 value }
    else d

def Draft.finish? (d : Draft) : Option Frame :=
  if d.event.isNone && d.data.isEmpty && d.id.isNone then none
  else some ⟨d.event, "\n".intercalate d.data.reverse, d.id⟩

/-- None where no line sets a field. -/
def decode? (text : String) : Option Frame :=
  ((Text.lines text).foldl Draft.addLine {}).finish?

end Frame

/-- A comment that keeps an idle stream open. -/
def keepAliveComment : String := ": keepalive\n\n"

/-- The head of a response whose body is a stream of frames. -/
def head (headers : List (String × String)) : String :=
  "HTTP/1.1 200 OK\r\nContent-Type: text/event-stream\r\nCache-Control: no-cache\r\nConnection: keep-alive\r\n" ++
    String.join (headers.map fun (name, value) => name ++ ": " ++ value ++ "\r\n") ++ "\r\n"

end ToolBridge.EventStream

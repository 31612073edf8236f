import ToolBridge.Bytes
import ToolBridge.Http.Fields
import ToolBridge.Text.Ascii
import ToolBridge.Text.Blank
import ToolBridge.Text.Split
import ToolBridge.Text.Utf8

/-! Requests, with their header names in lower case. -/

namespace ToolBridge.Http

structure Request where
  method : String := ""
  path : String := ""
  query : Fields := []
  version : String := ""
  headers : Fields := []
  body : Bytes := []
deriving DecidableEq, Repr

namespace Request

def header? (r : Request) (name : String) : Option String := r.headers.get? (Text.lower name)

def bodyText (r : Request) : String := Text.ofUtf8Lossy r.body

/-- The Connection header decides if it says one of the two; else only version 1.0 closes. -/
def keepsAlive (r : Request) : Bool :=
  let unsaid := r.version != "HTTP/1.0"
  match r.header? "connection" with
  | none => unsaid
  | some value =>
    if Text.contains "close" (Text.lower value) then false
    else if Text.contains "keep-alive" (Text.lower value) then true
    else unsaid

/-- Whether the Accept header lists the media type itself, whatever parameters follow it. -/
def accepts (r : Request) (media : String) : Bool :=
  match r.header? "accept" with
  | none => false
  | some value => (Text.split ',' value).any fun part =>
      Text.trim ((Text.split ';' part).headD "") == media

end Request

end ToolBridge.Http

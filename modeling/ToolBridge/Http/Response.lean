import ToolBridge.Http.Fault
import ToolBridge.Http.Status
import ToolBridge.Text.Ascii
import ToolBridge.Text.Blank
import ToolBridge.Text.Numeral
import ToolBridge.Text.Split
import ToolBridge.Text.Utf8

/-! Responses of fixed length. Writing derives the length from the body and drops any other claim
about it; reading takes the length back out. -/

namespace ToolBridge.Http

structure Response where
  status : Nat
  reason : String
  headers : List (String × String) := []
  body : Bytes := []
deriving DecidableEq, Repr

namespace Response

def ofStatus (status : Nat) : Response := { status, reason := reasonPhrase status }

def withHeader (r : Response) (name value : String) : Response :=
  { r with headers := r.headers ++ [(name, value)] }

/-- Sets the body and the one header that tells its type. -/
def withBody (r : Response) (mediaType : String) (body : Bytes) : Response :=
  { r with
    headers := r.headers.filter (fun (name, _) => !Text.sameLetters name "content-type") ++
      [("Content-Type", mediaType)]
    body }

def json (status : Nat) (body : String) : Response :=
  (ofStatus status).withBody "application/json" (Text.utf8 body)

def text (status : Nat) (body : String) : Response :=
  (ofStatus status).withBody "text/plain; charset=utf-8" (Text.utf8 body)

def header? (r : Response) (name : String) : Option String :=
  (r.headers.find? fun (n, _) => Text.sameLetters n name).map (·.2)

def bodyText (r : Response) : String := Text.ofUtf8Lossy r.body

def isFraming (name : String) : Bool :=
  Text.sameLetters name "content-length" || Text.sameLetters name "transfer-encoding"

def head (r : Response) : String :=
  s!"HTTP/1.1 {r.status} {r.reason}\r\n" ++
    String.join ((r.headers.filter fun (name, _) => !isFraming name).map
      fun (name, value) => name ++ ": " ++ value ++ "\r\n") ++
    s!"Content-Length: {r.body.length}\r\n\r\n"

def toBytes (r : Response) : Bytes := Text.utf8 r.head ++ r.body

/-- Version, status and reason, cut at the first two blanks. -/
def readStatusLine (line : String) : Except ResponseFlaw (Nat × String) :=
  let (version, after) := (Text.cutAt ' ' line).elim (line, none) fun (v, rest) => (v, some rest)
  if !"HTTP/".toList.isPrefixOf version.toList then .error (.badStatusLine line)
  else
    let (status, reason) := match after with
      | none => (none, "")
      | some rest => match Text.cutAt ' ' rest with
        | none => (some rest, "")
        | some (status, reason) => (some status, reason)
    match status.bind (Text.readNat 10 UInt16.size) with
    | none => .error (.badStatus line)
    | some status => .ok (status, reason)

/-- The fields in order, and the last declared length, which counts only if it is a numeral. -/
def readFields (lines : List String) : Except ResponseFlaw (List (String × String) × Option Nat) :=
  lines.foldlM (fun (fields, length) line =>
    match Text.cutAt ':' line with
    | none => .error (.badHeader line)
    | some (name, value) =>
      let name := Text.trim name
      let value := Text.trim value
      if Text.sameLetters name "content-length" then .ok (fields, Text.readNat 10 UInt64.size value)
      else .ok (fields ++ [(name, value)], length)) ([], none)

def readHead (head : String) : Except ResponseFlaw (Response × Option Nat) :=
  match Text.networkLines head with
  | [] => .error (.badStatusLine "")
  | line :: lines => do
    let (status, reason) ← readStatusLine line
    let (headers, length) ← readFields lines
    return ({ status, reason, headers }, length)

/-- A whole response; octets after a declared length are ignored. -/
def ofBytes (input : Bytes) : Except ResponseFlaw Response :=
  match Bytes.cutAt [0x0D, 0x0A, 0x0D, 0x0A] input with
  | none => .error .endlessHead
  | some (head, rest) =>
    match Text.ofUtf8? head with
    | none => .error .headNotText
    | some head => do
      let (r, length) ← readHead head
      match length with
      | none => return { r with body := rest }
      | some length =>
        if length > rest.length then .error (.truncatedBody length rest.length)
        else return { r with body := rest.take length }

end Response

end ToolBridge.Http

import ToolBridge.Http.Chunked
import ToolBridge.Http.Request
import ToolBridge.Http.Target

/-! Requests from the octets of a connection. A reading is of one request; what follows it is left
for the next. -/

namespace ToolBridge.Http

structure RequestLine where
  method : String
  target : String
  version : String
deriving DecidableEq, Repr

/-- Three words or more, the third naming version 1 and the first in capital letters of ASCII. -/
def readRequestLine (line : String) : Except RequestFlaw RequestLine :=
  match Text.words line with
  | method :: target :: version :: _ =>
    if !"HTTP/1.".toList.isPrefixOf version.toList then .error (.badRequestLine line)
    else if !method.toList.all fun c => 'A' ≤ c && c ≤ 'Z' then .error (.badMethod method)
    else .ok ⟨method, target, version⟩
  | _ => .error (.badRequestLine line)

def readHeader (line : String) (fields : Fields) : Except RequestFlaw Fields :=
  match Text.cutAt ':' line with
  | none => .error (.badHeader line)
  | some (name, value) =>
    let name := Text.lower (Text.trim name)
    if name = "" then .error .emptyHeaderName
    else .ok (fields.add name (Text.trim value))

/-- Header lines up to the empty one. -/
def readHeaders (fields : Fields) (budget : Nat) (input : Bytes) : Reading Fields :=
  match _h : readLine budget input with
  | .absent => .unlessMore .endInHeaders
  | .started => .unlessMore .unterminatedLine
  | .refused fault => .refused fault
  | .line text left rest =>
    if text = "" then .done fields rest
    else .check (readHeader text fields) fun fields => readHeaders fields left rest
termination_by input.length
decreasing_by exact readLine_length (by assumption)

/-- The request line, after any number of empty lines; none where the input ends before it. -/
def readFirstLine (budget : Nat) (input : Bytes) : Reading (Option (RequestLine × Nat)) :=
  match _h : readLine budget input with
  | .absent => .more (.ok none)
  | .started => .unlessMore .unterminatedLine
  | .refused fault => .refused fault
  | .line text left rest =>
    if text = "" then readFirstLine left rest
    else .check (readRequestLine text) fun line => .done (some (line, left)) rest
termination_by input.length
decreasing_by exact readLine_length (by assumption)

def isChunked (fields : Fields) : Bool :=
  match fields.get? "transfer-encoding" with
  | some value => Text.contains "chunked" (Text.lower value)
  | none => false

/-- A body that says its length, or none. -/
def readSizedBody (limit : Nat) (fields : Fields) (input : Bytes) : Reading Bytes :=
  let length : Except RequestFlaw Nat := match fields.get? "content-length" with
    | none => .ok 0
    | some value => match Text.readNat 10 UInt64.size value with
      | some n => .ok n
      | none => .error (.badContentLength value)
  .check length fun length =>
    if length > limit then .refused (.bodyTooLarge limit)
    else
      let body := input.take length
      if body.length < length then .unlessMore .shortBody else .done body (input.drop length)

def readBody (limit : Nat) (fields : Fields) (input : Bytes) : Reading Bytes :=
  if isChunked fields then readChunkedBody limit input else readSizedBody limit fields input

/-- One request with a body of at most `limit` octets; none where the input ends before it. -/
def readRequest (limit : Nat) (input : Bytes) : Reading (Option Request) :=
  (readFirstLine headLimit input).bind fun first rest =>
    match first with
    | none => .done none rest
    | some (line, budget) =>
      (readHeaders [] budget rest).bind fun fields rest =>
        (readBody limit fields rest).map fun body =>
          let (path, query) := splitTarget line.target
          some { method := line.method, path, query, version := line.version, headers := fields, body }

/-- Requests one after the other until the end or a fault; `bound` need be no more than the octets. -/
def readAllRequests (limit : Nat) : Nat → Bytes → List Request × Option Fault
  | 0, _ => ([], none)
  | bound + 1, input =>
    match readRequest limit input with
    | .done (some r) rest =>
      let (later, ending) := readAllRequests limit bound rest
      (r :: later, ending)
    | .done none _ => ([], none)
    | .refused fault => ([], some fault)
    | .more (.ok (some r)) => ([r], none)
    | .more (.ok none) => ([], none)
    | .more (.error fault) => ([], some fault)

/-- The requests of a whole input, and the fault that ends it unless it ends between two. -/
def requestsOf (limit : Nat) (input : Bytes) : List Request × Option Fault :=
  readAllRequests limit (input.length + 1) input

end ToolBridge.Http

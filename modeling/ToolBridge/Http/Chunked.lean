import ToolBridge.Http.Line
import ToolBridge.Text.Blank
import ToolBridge.Text.Numeral
import ToolBridge.Text.Split

/-! Chunked bodies: a size line and so many octets, until a size of zero and the trailer lines. All
size and trailer lines of a body share one budget. -/

namespace ToolBridge.Http

/-- Trailer lines are dropped, up to an empty one or the end of the input. -/
def readTrailers (budget : Nat) (input : Bytes) : Reading Unit :=
  match _h : readLine budget input with
  | .absent => .more (.ok ())
  | .started => .unlessMore .unterminatedLine
  | .refused fault => .refused fault
  | .line text left rest => if text = "" then .done () rest else readTrailers left rest
termination_by input.length
decreasing_by exact readLine_length (by assumption)

/-- The size before the first semicolon of its line, in hexadecimal. -/
def readChunkSize (line : String) : Except RequestFlaw Nat :=
  let size := Text.trim ((Text.split ';' line).headD "")
  match Text.readNat 16 UInt64.size size with
  | some n => .ok n
  | none => .error (.badChunkSize size)

/-- Reads on after `length` octets of body, which stand last first in `taken`. -/
def readChunks (limit length : Nat) (taken : Bytes) (budget : Nat) (input : Bytes) : Reading Bytes :=
  match _h : readLine budget input with
  | .absent => .unlessMore .endInChunks
  | .started => .unlessMore .unterminatedLine
  | .refused fault => .refused fault
  | .line text left rest =>
    .check (readChunkSize text) fun size =>
      if size = 0 then (readTrailers left rest).map fun _ => taken.reverse
      else if length + size > limit then .refused (.bodyTooLarge limit)
      else match _after : rest.drop size with
        | a :: b :: after =>
          if a == 0x0D && b == 0x0A then
            readChunks limit (length + size) ((rest.take size).reverseAux taken) left after
          else .malformed .chunkWithoutBreak
        | _ => .unlessMore .shortBody
termination_by input.length
decreasing_by
  have := readLine_length (by assumption)
  have := congrArg List.length _after
  simp at this
  omega

def readChunkedBody (limit : Nat) (input : Bytes) : Reading Bytes :=
  readChunks limit 0 [] headLimit input

end ToolBridge.Http

/-! What can be wrong with a message on the wire, the wording, and the status it is answered with. -/

namespace ToolBridge.Http

/-- Bound on a request line with its header lines, and on the framing lines of a chunked body. -/
def headLimit : Nat := 65536

inductive RequestFlaw where
  | badRequestLine (line : String)
  | badMethod (method : String)
  | badHeader (line : String)
  | emptyHeaderName
  | badContentLength (value : String)
  | badChunkSize (size : String)
  | chunkWithoutBreak
  | unterminatedLine
  | notText
  | endInHeaders
  | endInChunks
  | shortBody
  | stated (reason : String)
deriving DecidableEq, Repr

def RequestFlaw.message : RequestFlaw → String
  | .badRequestLine line => s!"bad request line: {line}"
  | .badMethod method => s!"bad method: {method}"
  | .badHeader line => s!"bad header: {line}"
  | .emptyHeaderName => "empty header name"
  | .badContentLength value => s!"bad content-length: {value}"
  | .badChunkSize size => s!"bad chunk size: {size}"
  | .chunkWithoutBreak => "chunk not followed by CRLF"
  | .unterminatedLine => "unterminated line"
  | .notText => "non utf-8 header"
  | .endInHeaders => "eof inside headers"
  | .endInChunks => "eof inside chunked body"
  | .shortBody => "body shorter than declared"
  | .stated reason => reason

inductive ResponseFlaw where
  | endlessHead
  | headNotText
  | badStatusLine (line : String)
  | badStatus (line : String)
  | badHeader (line : String)
  | truncatedBody (declared got : Nat)
  | stated (reason : String)
deriving DecidableEq, Repr

def ResponseFlaw.message : ResponseFlaw → String
  | .endlessHead => "no header terminator"
  | .headNotText => "head is not utf-8"
  | .badStatusLine line => s!"bad status line: {line}"
  | .badStatus line => s!"bad status: {line}"
  | .badHeader line => s!"bad header: {line}"
  | .truncatedBody declared got => s!"body truncated: declared {declared}, got {got}"
  | .stated reason => reason

inductive Fault where
  | malformedRequest (flaw : RequestFlaw)
  | headersTooLarge
  | bodyTooLarge (limit : Nat)
  | malformedResponse (flaw : ResponseFlaw)
  | broken (reason : String)
deriving DecidableEq, Repr

namespace Fault

def message : Fault → String
  | .malformedRequest flaw => s!"malformed request: {flaw.message}"
  | .headersTooLarge => s!"header block exceeds {headLimit} bytes"
  | .bodyTooLarge limit => s!"body exceeds {limit} bytes"
  | .malformedResponse flaw => s!"malformed response: {flaw.message}"
  | .broken reason => s!"i/o error: {reason}"

/-- None where nobody is left to answer. -/
def status? : Fault → Option Nat
  | .malformedRequest _ => some 400
  | .malformedResponse _ => some 400
  | .headersTooLarge => some 431
  | .bodyTooLarge _ => some 413
  | .broken _ => none

end Fault

end ToolBridge.Http

import ToolBridge.Config.Basic
import ToolBridge.Http.Request
import ToolBridge.Http.Response
import ToolBridge.Json.Printer
import ToolBridge.Protocol.Version

/-! Who may ask for what: the reasons a request is refused for, and the checks that come before
anything else is looked at. -/

namespace ToolBridge

inductive Rejection where
  | unsupportedVersion (version : String)
  | originNotAllowed (origin : String)
  | unauthorized
  | sessionNotFound
  | missingSession
  | notFound
  | methodNotAllowed
deriving DecidableEq, Repr

namespace Access

def sessionHeader : String := "Mcp-Session-Id"

def versionHeader : String := "MCP-Protocol-Version"

def allowedMethods : String := "GET, POST, DELETE, OPTIONS"

end Access

namespace Rejection

def status : Rejection → Nat
  | .unsupportedVersion _ | .missingSession => 400
  | .unauthorized => 401
  | .originNotAllowed _ => 403
  | .sessionNotFound | .notFound => 404
  | .methodNotAllowed => 405

def message : Rejection → String
  | .unsupportedVersion version => s!"unsupported protocol version: {version}"
  | .originNotAllowed origin => s!"origin not allowed: {origin}"
  | .unauthorized => "missing or invalid API key"
  | .sessionNotFound => "session not found"
  | .missingSession => s!"{Access.sessionHeader} header required"
  | .notFound => "not found"
  | .methodNotAllowed => "method not allowed"

/-- The body of an answer that only tells what is wrong. -/
def errorBody (message : String) : String := (Json.obj [("error", .str message)]).text

def response (r : Rejection) : Http.Response :=
  let plain := Http.Response.json r.status (errorBody r.message)
  match r with
  | .unauthorized => (plain.withHeader "WWW-Authenticate" "Bearer").withHeader "Connection" "close"
  | .methodNotAllowed => plain.withHeader "Allow" Access.allowedMethods
  | _ => plain

/-- A wrong key ends the connection. -/
def closes : Rejection → Bool
  | .unauthorized => true
  | _ => false

end Rejection

namespace Access

def withoutEndSlashes (s : String) : String :=
  .ofList (s.toList.reverse.dropWhile (· == '/')).reverse

/-- Origins are compared without slashes at their ends, in any letter case. -/
def originAllowed (c : Config) (origin : String) : Bool :=
  c.allowedOrigins.isEmpty || c.allowedOrigins.any fun allowed =>
    allowed == "*" || Text.sameLetters (withoutEndSlashes allowed) (withoutEndSlashes origin)

/-- What an Authorization header offers as a key: the rest after the word bearer and a blank, or
all of it. -/
def offeredKey (authorization : String) : String :=
  let value := Text.trim authorization
  match Text.cutAt ' ' value with
  | some (scheme, token) => if Text.sameLetters scheme "bearer" then Text.trim token else value
  | none => value

def keyMatches (r : Http.Request) (key : String) : Bool :=
  ((r.header? "authorization").map offeredKey) == some key ||
    ((r.header? "x-api-key").map Text.trim) == some key

def checkVersion (r : Http.Request) : Except Rejection Unit :=
  match r.header? versionHeader with
  | some version =>
    if (Protocol.Version.ofDate? version).isSome then .ok () else .error (.unsupportedVersion version)
  | none => .ok ()

def checkOrigin (c : Config) (r : Http.Request) : Except Rejection Unit :=
  match r.header? "origin" with
  | some origin => if originAllowed c origin then .ok () else .error (.originNotAllowed origin)
  | none => .ok ()

def checkKey (c : Config) (r : Http.Request) : Except Rejection Unit :=
  match c.effectiveKey with
  | some key => if keyMatches r key then .ok () else .error .unauthorized
  | none => .ok ()

/-- Protocol version, origin and key, in this order. -/
def check (c : Config) (r : Http.Request) : Except Rejection Unit := do
  checkVersion r
  checkOrigin c r
  checkKey c r

/-- Headers that let a page of an allowed origin read the answer. -/
def originHeaders (c : Config) (r : Http.Request) : List (String × String) :=
  match r.header? "origin" with
  | some origin =>
    if originAllowed c origin then
      [("Access-Control-Allow-Origin", origin), ("Access-Control-Expose-Headers", sessionHeader),
        ("Vary", "Origin")]
    else []
  | none => []

end Access

end ToolBridge

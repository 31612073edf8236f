import ToolBridge.Access
import ToolBridge.Server.Hub
import ToolBridge.Text.Percent

/-! What becomes of one request: an answer at once, a place in the queue, or an event stream. A
request is refused before it changes anything. -/

namespace ToolBridge.Server

inductive Routed where
  | respond (response : Http.Response) (close : Bool)
  /-- The answer comes through a reply slot and goes out with these headers. -/
  | park (ticket : Nat) (headers : List (String × String))
  /-- The connection turns into a stream that starts with a preamble. -/
  | stream (session : String) (outbox : Nat) (preamble : String)

namespace Route

def healthPath : String := "/health"

/-- The parameter by which a client of the older transport names its session. -/
def sessionParameter : String := "sessionId"

def withHeaders (headers : List (String × String)) (r : Http.Response) : Http.Response :=
  { r with headers := r.headers ++ headers }

def reject (r : Rejection) : Routed := .respond r.response r.closes

def shuttingDown : Http.Response :=
  (Http.Response.json 503 (Rpc.Reply.shuttingDown .null).text).withHeader "Connection" "close"

/-- What a request is told that has waited for the executor for too long. -/
def timedOut : Http.Response := .json 503 (Rejection.errorBody "executor did not respond in time")

def answerResponse (a : Dispatch.Answer) : Http.Response :=
  let plain := match a.reply with
    | some reply => Http.Response.json 200 reply.text
    | none => .ofStatus 202
  match a.session with
  | some session => plain.withHeader Access.sessionHeader session
  | none => plain

def pending (r : Http.Request) (connection : Nat) (session : Option String) (route : Queue.Route) :
    Queue.Pending :=
  { connection, method := r.method, path := r.path, headers := r.headers, body := r.bodyText
    session, route }

def isHandshake (r : Http.Request) : Bool :=
  match Json.ofBytes r.body with
  | .ok body => ((body.member? "method").bind Json.asString?) == some "initialize"
  | .error _ => false

/-- A request of the older transport: accepted at once, its answer comes on the session's stream. -/
def postOnStream (now : Int) (r : Http.Request) (connection : Nat) (session : String) (h : Hub) :
    Except Rejection Http.Response × Hub :=
  let (known, h) := h.touch now session
  if !known then (.error .sessionNotFound, h)
  else match h.queue.push? (pending r connection (some session) .stream) with
    | some queue => (.ok (.ofStatus 202), { h with queue })
    | none => (.ok shuttingDown, h)

/-- Refreshes the named session. An unknown one may only ask to be set up anew. -/
def recognise (now : Int) (r : Http.Request) (session : Option String) (h : Hub) : Option Rejection × Hub :=
  match session with
  | none => (none, h)
  | some id =>
    let (known, h) := h.touch now id
    (if known || isHandshake r then none else some .sessionNotFound, h)

def postDirect (now : Int) (r : Http.Request) (connection : Nat) (headers : List (String × String))
    (h : Hub) : Routed × Hub :=
  let session := r.header? Access.sessionHeader
  match recognise now r session h with
  | (some rejection, h) => (reject rejection, h)
  | (none, h) =>
    let (ticket, slots) := h.slots.make
    match h.queue.push? (pending r connection session (.direct ticket)) with
    | some queue => (.park ticket headers, { h with queue, slots })
    | none => (.respond (withHeaders headers shuttingDown) false, h)

def post (now : Int) (r : Http.Request) (connection : Nat) (headers : List (String × String)) (h : Hub) :
    Routed × Hub :=
  match r.query.get? sessionParameter with
  | some session => match postOnStream now r connection session h with
    | (.ok response, h) => (.respond (withHeaders headers response) false, h)
    | (.error rejection, h) => (reject rejection, h)
  | none => postDirect now r connection headers h

/-- Where a client that came without a session is told to send its requests. -/
def endpointUrl (c : Config) (session : String) : String :=
  c.path ++ "?" ++ sessionParameter ++ "=" ++ Text.Percent.encode session

/-- The id a client wants to go on after, if one can. -/
def resumeAfter (r : Http.Request) : Option Int :=
  ((r.header? "last-event-id").bind fun value => Text.readInt 32 (Text.trim value)).filter
    fun id => 0 ≤ id ∧ id < Stream.lastId

/-- The session a stream is for: the known one it names, or a new one with its endpoint. -/
def streamSession (now : Int) (c : Config) (r : Http.Request) (h : Hub) :
    Except Rejection (String × Option EventStream.Frame) × Hub :=
  match r.header? Access.sessionHeader with
  | some session =>
    let (known, h) := h.touch now session
    (if known then .ok (session, none) else .error .sessionNotFound, h)
  | none =>
    let (session, sessions) := h.sessions.create now
    (.ok (session.id, some (.endpoint (endpointUrl c session.id))),
      { h with sessions }.emit (.sessionOpened session.id))

def openStream (now : Int) (c : Config) (r : Http.Request) (connection : Nat)
    (headers : List (String × String)) (h : Hub) : Routed × Hub :=
  match streamSession now c r h with
  | (.error rejection, h) => (reject rejection, h)
  | (.ok (session, endpoint), h) =>
    let (registration, streams) := h.streams.register connection session (resumeAfter r)
    let h := { h with streams }
    let h := match registration.superseded with
      | some old => h.emit (.streamClosed session old)
      | none => h
    let preamble := EventStream.head ((Access.sessionHeader, session) :: headers) ++
      endpoint.elim "" EventStream.Frame.encode
    (.stream session registration.outbox preamble, h.emit (.streamOpened session connection))

def closeSession (r : Http.Request) (h : Hub) : Except Rejection Http.Response × Hub :=
  match r.header? Access.sessionHeader with
  | none => (.error .missingSession, h)
  | some session =>
    let (known, sessions) := h.sessions.close session
    if known then
      let streams := (h.streams.closeSession session).2
      (.ok (.ofStatus 204), { h with sessions, streams }.emit (.sessionClosed session))
    else (.error .sessionNotFound, h)

/-- What a page of another origin asks before it asks. -/
def preflight (c : Config) (r : Http.Request) : Routed :=
  match Access.checkOrigin c r with
  | .error rejection => reject rejection
  | .ok () =>
    let response := ((Http.Response.ofStatus 204).withHeader
      "Access-Control-Allow-Methods" Access.allowedMethods).withHeader "Access-Control-Allow-Headers"
      "Content-Type, Authorization, X-API-Key, Mcp-Session-Id, MCP-Protocol-Version, Last-Event-ID"
    .respond (withHeaders (Access.originHeaders c r) response) false

/-- Under the configuration `c`, which need not be the one in force by now. -/
def route (now : Int) (c : Config) (r : Http.Request) (connection : Nat) (h : Hub) : Routed × Hub :=
  let headers := Access.originHeaders c r
  let respond (response : Http.Response) : Routed := .respond (withHeaders headers response) false
  if r.method = "OPTIONS" then (preflight c r, h)
  else match Access.check c r with
    | .error rejection => (reject rejection, h)
    | .ok () =>
      if r.path = healthPath ∧ r.method = "GET" then (respond (.json 200 h.health.text), h)
      else if r.path ≠ c.path then (reject .notFound, h)
      else if r.method = "POST" then post now r connection headers h
      else if r.method = "GET" ∧ r.accepts "text/event-stream" then
        openStream now c r connection headers h
      else if r.method = "DELETE" then
        match closeSession r h with
        | (.ok response, h) => (respond response, h)
        | (.error rejection, h) => (reject rejection, h)
      else (reject .methodNotAllowed, h)

end Route

end ToolBridge.Server

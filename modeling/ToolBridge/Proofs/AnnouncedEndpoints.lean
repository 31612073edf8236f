import ToolBridge.Proofs.Pipelining
import ToolBridge.Proofs.RequestTargets
import ToolBridge.Proofs.RoutedRequests

/-! The endpoint that a new stream announces. A request sent to it is read, and goes to the stream's own session. No
stream is opened on a path that could not be announced: that it could be asked for shows that it can be again. -/

namespace ToolBridge.Server.Route

open Http (Askable SentRequest headLimit readRequest)
open EventStream (Frame)
open Text.Percent (encode)

/-! ## The announcement -/

theorem endpointUrl_eq (c : Config) (session : String) :
    endpointUrl c session = c.path ++ "?" ++ (encode sessionParameter ++ "=" ++ encode session) := by
  have plain : encode sessionParameter = sessionParameter := rfl
  simp only [endpointUrl, plain, String.append_assoc]

theorem path_ne_empty {c : Config} (accepted : c.check = .ok ()) : c.path ≠ "" := by
  intro empty
  simp [Config.check, empty] at accepted

/-- The start of a stream that tells a client that came without a session where to go. -/
def Announces (preamble url : String) : Prop :=
  ∃ headers, preamble = EventStream.head headers ++ (Frame.endpoint url).encode

/-- A stream for no session is opened for a new one, on the path that is served. -/
theorem stream_announced {now : Int} {c : Config} {r : Http.Request} {connection outbox : Nat}
    {session preamble : String} {h : Hub} (unnamed : r.header? Access.sessionHeader = none)
    (opened : (route now c r connection h).1 = .stream session outbox preamble) :
    r.path = c.path ∧ session = (h.sessions.create now).1.id ∧ Announces preamble (endpointUrl c session) := by
  simp only [route] at opened
  split at opened
  · unfold preflight at opened
    split at opened <;> cases opened
  split at opened
  · cases opened
  split at opened
  · cases opened
  split at opened
  · cases opened
  next served =>
    split at opened
    next posts =>
      have result := post_result now r connection (Access.originHeaders c r) h
      rw [opened] at result
      generalize (post now r connection (Access.originHeaders c r) h).2 = after at result
      cases result with
      | opened gets => exact absurd (posts.symm.trans gets) (by decide)
    split at opened
    · simp only [openStream, streamSession, unnamed] at opened
      cases opened
      exact ⟨not_not.mp served, rfl, _, rfl⟩
    split at opened
    · split at opened <;> cases opened
    · cases opened

/-! ## The way back -/

def onStream (now : Int) (c : Config) (r : Http.Request) (connection : Nat) (session : String) (h : Hub) :
    Routed × Hub :=
  match postOnStream now r connection session h with
  | (.ok response, h) => (.respond (withHeaders (Access.originHeaders c r) response) false, h)
  | (.error rejection, h) => (reject rejection, h)

/-- The request is for the path, and past the checks goes to the session, under whatever configuration serves the
path by then; so while the session lives and the queue is open it is queued, its reply to go to the session's stream. -/
structure LeadsTo (path session : String) (r : Http.Request) : Prop where
  asked : r.path = path
  named : r.query.get? sessionParameter = some session
  routed : ∀ (now : Int) (c : Config) (connection : Nat) (h : Hub), c.path = path → Access.check c r = .ok () →
    route now c r connection h = onStream now c r connection session h
  queued : ∀ (now : Int) (c : Config) (connection : Nat) (h : Hub), c.path = path → Access.check c r = .ok () →
    h.sessions.contains session = true → h.queue.closed = false → ∃ response,
      route now c r connection h = (.respond response false,
        { h with
          sessions := h.sessions.refresh now session
          queue := { h.queue with items := h.queue.items ++ [pending r connection (some session) .stream] } }) ∧
      response.status = 202

theorem leadsTo {path session : String} {r : Http.Request} (method : r.method = "POST") (asked : r.path = path)
    (named : r.query.get? sessionParameter = some session) : LeadsTo path session r := by
  have routed (now : Int) (c : Config) (connection : Nat) (h : Hub) (served : c.path = path)
      (allowed : Access.check c r = .ok ()) : route now c r connection h = onStream now c r connection session h := by
    simp [route, post, method, asked, served, allowed, named]
    rfl
  refine ⟨asked, named, routed, ?_⟩
  intro now c connection h served allowed known opened
  refine ⟨withHeaders (Access.originHeaders c r) (.ofStatus 202), ?_, rfl⟩
  rw [routed now c connection h served allowed]
  simp [onStream, postOnStream, Hub.touch_known known, Queue.push?, opened]

theorem leadsTo_endpoint {c : Config} {session : String} (accepted : c.check = .ok ()) (askable : Askable c.path)
    {s : SentRequest} (method : s.head.method = "POST") (target : s.head.target = endpointUrl c session) :
    LeadsTo c.path session s.request := by
  have parted := Http.splitTarget_encoded askable (path_ne_empty accepted) sessionParameter session
  rw [← endpointUrl_eq, ← target] at parted
  obtain ⟨asked, named⟩ := Prod.mk.inj (s.request_target.trans parted)
  have found : s.request.query.get? sessionParameter = some session := by
    rw [named]
    exact if_pos rfl
  exact leadsTo method asked found

/-- The announced endpoint works. Where a request that was read and names no session opens a stream, a session is minted
for it and the stream starts with the endpoint. This can be the target of a request, and every such request whose head,
body and framing stay within the limits is read as it was sent, whatever follows it, and leads to that very session. -/
theorem endpoint_leads_back {now : Int} {c : Config} {input : Bytes} {r : Http.Request} {connection outbox : Nat}
    {session preamble : String} {h : Hub} (accepted : c.check = .ok ()) (word : c.maxBodyBytes < UInt64.size)
    (read : (readRequest c.maxBodyBytes input).atEnd = .ok (some r)) (unnamed : r.header? Access.sessionHeader = none)
    (opened : (route now c r connection h).1 = .stream session outbox preamble) :
    session = (h.sessions.create now).1.id ∧ Announces preamble (endpointUrl c session) ∧
      Text.Solid (endpointUrl c session) ∧
      ∀ s : SentRequest, s.head.method = "POST" → s.head.target = endpointUrl c session → s.Within c.maxBodyBytes →
        (∀ rest, readRequest c.maxBodyBytes (s.bytes ++ rest) = .done (some s.request) rest) ∧
          LeadsTo c.path session s.request := by
  obtain ⟨served, minted, announced⟩ := stream_announced unnamed opened
  have askable : Askable c.path := served ▸ (Http.readRequest_askable c.maxBodyBytes input).value (some r) read r rfl
  refine ⟨minted, announced, endpointUrl_eq c session ▸ Http.solid_encoded askable sessionParameter session, ?_⟩
  intro s method target within
  exact ⟨Http.readRequest_within word within, leadsTo_endpoint accepted askable method target⟩

/-! ## On a given path -/

private def acceptsStream : Http.HeaderLine where
  name := "Accept"
  gap := " "
  value := "text/event-stream"
  ending := .crlf
  named := by decide
  name_trimmed := by decide
  name_undivided := by decide
  name_single := by decide
  gap_plain := fun _ member => .inl (List.mem_singleton.mp member)
  value_trimmed := by decide
  value_single := by decide

/-- A client that has no session asks for a stream on a path. -/
private def streamAsked (path : String) (named : path ≠ "") (askable : Askable path) : SentRequest where
  head := { Http.postHead acceptsStream with
    method := "GET"
    target := path
    method_ne := by decide
    method_capital := by simp
    target_ne := named
    target_solid := askable.solid }
  body := .sized []
  announced := ⟨rfl, .inl ⟨rfl, rfl⟩⟩

/-- It sends an empty request to the endpoint that it was told of. -/
private def sendTo (url : String) (named : url ≠ "") (solid : Text.Solid url) : SentRequest where
  head := { Http.postHead acceptsStream with
    target := url
    headers := []
    target_ne := named
    target_solid := solid }
  body := .sized []
  announced := ⟨rfl, .inl ⟨rfl, rfl⟩⟩

private theorem bytes_streamAsked {path : String} (named : path ≠ "") (askable : Askable path) :
    (streamAsked path named askable).bytes =
      Text.utf8 ("GET " ++ path ++ " HTTP/1.1\r\nAccept: text/event-stream\r\n\r\n") := by
  have start : Text.utf8 "GET " = Text.utf8 "GET" ++ Text.utf8 " " := rfl
  have finish : Text.utf8 " HTTP/1.1\r\nAccept: text/event-stream\r\n\r\n" =
      Text.utf8 " " ++ (Text.utf8 "HTTP/1.1" ++ (0x0D :: 0x0A :: (acceptsStream.line.bytes ++ [0x0D, 0x0A]))) := rfl
  change Http.linesBytes [Http.Head.requestLine _, acceptsStream.line, .empty .crlf] ++ [] = _
  simp [Http.linesBytes, Http.SentLine.bytes, Http.SentLine.empty, Http.Head.requestLine, Http.postHead, streamAsked,
    Http.Ending.bytes, Text.utf8_append, start, finish]

private theorem line_sendTo {url : String} (named : url ≠ "") (solid : Text.Solid url) :
    (sendTo url named solid).bytes = (sendTo url named solid).head.requestLine.bytes ++ [0x0D, 0x0A] := by
  change Http.linesBytes [Http.Head.requestLine _, .empty .crlf] ++ [] = _
  simp [Http.linesBytes, Http.SentLine.bytes, Http.SentLine.empty, Http.Ending.bytes, Text.utf8]

private theorem bytes_sendTo {url : String} (named : url ≠ "") (solid : Text.Solid url) :
    (sendTo url named solid).bytes = Text.utf8 ("POST " ++ url ++ " HTTP/1.1\r\n\r\n") := by
  have start : Text.utf8 "POST " = Text.utf8 "POST" ++ Text.utf8 " " := rfl
  have finish : Text.utf8 " HTTP/1.1\r\n\r\n" =
      Text.utf8 " " ++ (Text.utf8 "HTTP/1.1" ++ [0x0D, 0x0A, 0x0D, 0x0A]) := rfl
  rw [line_sendTo]
  change Text.utf8 ("POST" ++ " " ++ url ++ " " ++ "HTTP/1.1") ++ [0x0D, 0x0A] ++ [0x0D, 0x0A] = _
  simp [Text.utf8_append, start, finish]

private theorem length_line_sendTo {url : String} (named : url ≠ "") (solid : Text.Solid url) :
    (sendTo url named solid).head.requestLine.bytes.length = (Text.utf8 url).length + 16 := by
  have method : (Text.utf8 "POST").length + (Text.utf8 " ").length = 5 := rfl
  have version : (Text.utf8 " ").length + (Text.utf8 "HTTP/1.1").length = 9 := rfl
  change (Text.utf8 ("POST" ++ " " ++ url ++ " " ++ "HTTP/1.1") ++ [0x0D, 0x0A]).length = _
  simp only [Text.utf8_append, List.length_append, List.length_cons, List.length_nil, method]
  omega

section
variable {path : String} (named : path ≠ "") (askable : Askable path)

private theorem headers_streamAsked :
    (streamAsked path named askable).request.headers = [("accept", "text/event-stream")] := by
  change Http.Fields.merged [acceptsStream.field] = _
  rfl

private theorem streamAsked_unnamed : (streamAsked path named askable).request.header? Access.sessionHeader = none := by
  rw [Http.Request.header?, headers_streamAsked]
  rfl

private theorem streamAsked_opens (apart : path ≠ healthPath) (now : Int) (connection : Nat) (h : Hub) :
    ∃ outbox preamble, (route now { path } (streamAsked path named askable).request connection h).1 =
      .stream (h.sessions.create now).1.id outbox preamble := by
  have asked : (streamAsked path named askable).request.path = path :=
    congrArg Prod.fst (Http.splitTarget_plain askable named)
  have method : (streamAsked path named askable).request.method = "GET" := rfl
  have silent (name : String) (other : Text.lower name ≠ "accept") :
      (streamAsked path named askable).request.header? name = none := by
    rw [Http.Request.header?, headers_streamAsked]
    exact if_neg (Ne.symm other)
  have allowed : Access.check { path } (streamAsked path named askable).request = .ok () := by
    simp only [Access.check, Access.checkVersion, Access.checkOrigin, silent Access.versionHeader (by decide),
      silent "origin" (by decide)]
    rfl
  have accepts : (streamAsked path named askable).request.accepts "text/event-stream" = true := by
    rw [Http.Request.accepts, Http.Request.header?, headers_streamAsked]
    rfl
  simp [route, method, allowed, asked, apart, accepts, openStream, streamSession, streamAsked_unnamed]

end

private theorem within_empty {s : SentRequest} (empty : s.body = .sized []) (short : s.bytes.length ≤ headLimit)
    (limit : Nat) : s.Within limit := by
  rw [SentRequest.bytes, empty] at short
  refine ⟨by simpa [Http.SentBody.bytes] using short, ?_, ?_⟩ <;> rw [empty] <;> exact Nat.zero_le _

def firstSession : String := "00000000000000000000000000000001"

private theorem minted_firstSession : (({} : Hub).sessions.create 0).1.id = firstSession := rfl

def oddPath : String := "/a+%41#é"

private theorem askable_oddPath : Askable oddPath := ⟨by simp [oddPath, Text.Solid, Text.isBlank], by decide⟩

theorem endpoint_leads_back_odd : ∃ p,
    readRequest 4194304 (Text.utf8 "POST /a+%41#é?sessionId=00000000000000000000000000000001 HTTP/1.1\r\n\r\n") =
      .done (some p) [] ∧ LeadsTo oddPath firstSession p := by
  obtain ⟨outbox, preamble, opened⟩ :=
    streamAsked_opens (by decide) askable_oddPath (by decide : oddPath ≠ healthPath) 0 1 {}
  have short : (streamAsked oddPath (by decide) askable_oddPath).bytes.length ≤ headLimit := by
    rw [bytes_streamAsked]
    decide
  have read := Http.readRequest_within (by decide : 4194304 < UInt64.size) (within_empty rfl short _) []
  obtain ⟨minted, _, solid, leads⟩ := endpoint_leads_back (c := { path := oddPath }) rfl (by decide)
    (congrArg Http.Reading.atEnd read) (streamAsked_unnamed (by decide) askable_oddPath) opened
  rw [minted_firstSession] at solid leads
  have short : (sendTo _ (by decide +kernel) solid).bytes.length ≤ headLimit := by
    rw [bytes_sendTo]
    decide
  obtain ⟨answered, leads⟩ := leads _ rfl rfl (within_empty rfl short _)
  rw [bytes_sendTo] at answered
  exact ⟨_, (answered [] : _), leads⟩

/-! ## Too long a path -/

/-- A path of a length that can be chosen. -/
def longPath (n : Nat) : String := .ofList ('/' :: List.replicate n 'a')

section
variable (n : Nat)

private theorem mem_longPath {c : Char} (member : c ∈ (longPath n).toList) : c = '/' ∨ c = 'a' := by
  rw [longPath, String.toList_ofList] at member
  exact (List.mem_cons.mp member).imp_right List.eq_of_mem_replicate

private theorem askable_longPath : Askable (longPath n) where
  solid := fun c member => by rcases mem_longPath n member with rfl | rfl <;> decide
  whole := fun member => (mem_longPath n member).elim (by decide) (by decide)

private theorem length_longPath : (Text.utf8 (longPath n)).length = n + 1 := by
  have ascii : ∀ c ∈ (longPath n).toList, c.toNat < 0x80 := fun c member => by
    rcases mem_longPath n member with rfl | rfl <;> decide
  rw [Text.length_utf8 ascii, longPath, String.toList_ofList, List.length_cons, List.length_replicate]

private theorem longPath_ne {path : String} (other : (Text.utf8 path).length ≠ n + 1) : longPath n ≠ path :=
  fun same => other (same ▸ length_longPath n)

end

private theorem endpointUrl_firstSession (c : Config) :
    endpointUrl c firstSession = c.path ++ ("?" ++ ("sessionId" ++ "=" ++ firstSession)) := by
  rw [endpointUrl_eq, String.append_assoc]
  congr 1

section
variable {n : Nat}

private theorem longPath_named : longPath n ≠ "" := longPath_ne n (by simp [Text.utf8])

private theorem check_longPath : Config.check { path := longPath n } = .ok () := by
  simp [Config.check, longPath]

private theorem longPath_opens (long : 8 ≤ n) (short : n + 45 ≤ headLimit) : ∃ r outbox preamble,
    readRequest 4194304 (Text.utf8 ("GET " ++ longPath n ++ " HTTP/1.1\r\nAccept: text/event-stream\r\n\r\n")) =
      .done (some r) [] ∧
    r.header? Access.sessionHeader = none ∧
    (route 0 { path := longPath n } r 1 {}).1 = .stream firstSession outbox preamble ∧
    Announces preamble (endpointUrl { path := longPath n } firstSession) := by
  have askable := askable_longPath n
  have length : (streamAsked _ longPath_named askable).bytes.length = n + 45 := by
    have start : (Text.utf8 "GET ").length = 4 := rfl
    have finish : (Text.utf8 " HTTP/1.1\r\nAccept: text/event-stream\r\n\r\n").length = 40 := rfl
    rw [bytes_streamAsked, Text.utf8_append, Text.utf8_append, List.length_append, List.length_append, length_longPath,
      start, finish]
    omega
  have read := Http.readRequest_within (by decide : 4194304 < UInt64.size)
    (within_empty rfl (length.trans_le short) 4194304) []
  rw [List.append_nil, bytes_streamAsked] at read
  have apart : longPath n ≠ healthPath := by
    have short : (Text.utf8 healthPath).length = 7 := rfl
    exact longPath_ne n (by omega)
  obtain ⟨outbox, preamble, opened⟩ := streamAsked_opens longPath_named askable apart 0 1 {}
  rw [minted_firstSession] at opened
  have unnamed := streamAsked_unnamed longPath_named askable
  exact ⟨_, outbox, preamble, read, unnamed, opened, (stream_announced unnamed opened).2.2⟩

private theorem length_endpointUrl :
    (Text.utf8 (endpointUrl { path := longPath n } firstSession)).length = n + 44 := by
  have rest : (Text.utf8 ("?" ++ ("sessionId" ++ "=" ++ firstSession))).length = 43 := rfl
  rw [endpointUrl_firstSession, Text.utf8_append, List.length_append, length_longPath, rest]

private theorem longPath_refused (long : headLimit < n + 60) :
    readRequest 4194304
        (Text.utf8 ("POST " ++ endpointUrl { path := longPath n } firstSession ++ " HTTP/1.1\r\n\r\n")) =
      .refused .headersTooLarge := by
  have solid := endpointUrl_eq { path := longPath n } firstSession ▸
    Http.solid_encoded (askable_longPath n) sessionParameter firstSession
  have named : endpointUrl { path := longPath n } firstSession ≠ "" := by
    intro empty
    have length := length_endpointUrl (n := n)
    simp [empty, Text.utf8] at length
  rw [← bytes_sendTo named solid, line_sendTo]
  refine Http.readRequest_long ?_ _ _
  rw [length_line_sendTo, length_endpointUrl]
  exact long

end

/-- A path can be short enough to be asked for, and too long to be announced: the line that asks for the endpoint is
longer than a head may be. -/
theorem endpoint_out_of_reach :
    Config.check { path := longPath 65479 } = .ok () ∧
    ∃ r outbox preamble,
      readRequest 4194304 (Text.utf8 ("GET " ++ longPath 65479 ++ " HTTP/1.1\r\nAccept: text/event-stream\r\n\r\n")) =
        .done (some r) [] ∧
      r.header? Access.sessionHeader = none ∧
      (route 0 { path := longPath 65479 } r 1 {}).1 = .stream firstSession outbox preamble ∧
      Announces preamble (endpointUrl { path := longPath 65479 } firstSession) ∧
      readRequest 4194304
          (Text.utf8 ("POST " ++ endpointUrl { path := longPath 65479 } firstSession ++ " HTTP/1.1\r\n\r\n")) =
        .refused .headersTooLarge := by
  obtain ⟨r, outbox, preamble, read, unnamed, opened, announced⟩ := longPath_opens (n := 65479) (by decide) (by decide)
  exact ⟨check_longPath, r, outbox, preamble, read, unnamed, opened, announced, longPath_refused (by decide)⟩

end ToolBridge.Server.Route

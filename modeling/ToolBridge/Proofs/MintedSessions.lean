import ToolBridge.Proofs.HubContents
import ToolBridge.Proofs.HubLaws
import ToolBridge.Proofs.ServerInvariants
import ToolBridge.Proofs.SessionNotices
import ToolBridge.Proofs.UnknownSessions

/-! Which sessions a server names to its clients. The head of a stream names one that has been minted. So does an
answer, unless it turns its call away: a request under an unknown session waits in the queue if it asks to be set up,
and goes back as it came if its version is wrong, or if the server stops. -/

namespace ToolBridge

/-! ## What an answer names -/

namespace Dispatch

/-- The call is turned away, for its version or because the server stops. -/
def Answer.TurnsAway (a : Answer) : Prop :=
  ∃ id, a.reply = some (Rpc.Request.versionRefusal id) ∨ a.reply = some (.shuttingDown id)

/-- An answer names one of these sessions, or turns its call away. -/
def Answer.Names (issued : List String) (a : Answer) : Prop :=
  ∀ session, a.session = some session → session ∈ issued ∨ a.TurnsAway

end Dispatch

/-- A request that waits for its answer names one of these sessions, or asks to be set up. -/
def Queue.Pending.Names (issued : List String) (p : Pending) : Prop :=
  p.route ≠ .stream → ∀ session, p.session = some session → session ∈ issued ∨ Rpc.Request.AsksHandshake p.body

theorem Dispatch.Answer.Names.mono {few more : List String} {a : Answer} (names : a.Names few) (inside : few ⊆ more) :
    a.Names more := fun session named => (names session named).imp_left fun member => inside member

theorem Queue.Pending.Names.mono {few more : List String} {p : Pending} (names : p.Names few) (inside : few ⊆ more) :
    p.Names more := fun direct session named => (names direct session named).imp_left fun member => inside member

namespace Server

theorem Hub.Settles.issued {before after : Hub} (settled : before.Settles after) :
    before.sessions.issued ⊆ after.sessions.issued := by
  rcases settled with ⟨new, minted⟩ | ⟨gone, ended⟩
  · rw [minted.issued]
    exact List.subset_append_left _ _
  · rw [ended.issued]
    exact List.Subset.refl _

theorem Hub.Settles.minted {before after : Hub} (settled : before.Settles after) (minted : before.sessions.Minted) :
    after.sessions.Minted := by
  intro session member
  rcases settled with ⟨new, mints⟩ | ⟨gone, ended⟩
  · rw [mints.ids] at member
    rw [mints.issued]
    exact List.mem_append.mpr ((List.mem_append.mp member).imp_left fun old => minted old)
  · rw [ended.ids] at member
    rw [ended.issued]
    exact minted (List.mem_filter.mp member).1

theorem Tick.sessions_process (registry : Tool.Registry) (now : Int) (p : Queue.Pending) (h : Hub) :
    (process registry now p h).sessions = (perform registry now p h).2.sessions := by
  unfold process
  generalize perform registry now p h = outcome
  obtain ⟨news, announced, _⟩ := announce_eq outcome.1 outcome.2
  simp only [announced, hand]
  split
  · rfl
  · split <;> rfl

/-- A request that waits for its answer is answered with a session that has been minted by then, or turned away. -/
theorem Tick.names_perform (registry : Tool.Registry) (now : Int) {p : Queue.Pending} {h : Hub}
    (minted : h.sessions.Minted) (direct : p.route ≠ .stream) (names : p.Names h.sessions.issued) :
    (perform registry now p h).1.Names (perform registry now p h).2.sessions.issued := by
  by_cases handshake : ∃ call, Rpc.Request.parse p.body = .ok call ∧ call.method = "initialize"
  · obtain ⟨call, read, method⟩ := handshake
    rw [perform_handshake registry now h read method]
    rintro _ ⟨⟩
    exact Or.inl (minted.ensure now p.session)
  · -- all other requests are answered under the session that they name
    obtain ⟨reply, performed⟩ := perform_plain registry now h fun call read method => handshake ⟨call, read, method⟩
    rw [performed]
    intro session named
    refine (names direct session named).imp_right fun asks => ?_
    obtain ⟨id, refused⟩ := asks.cases.resolve_left handshake
    cases performed.symm.trans (perform_refused registry now h refused)
    exact ⟨id, Or.inl rfl⟩

/-! ## What a hub carries -/

/-- Sessions that have not been minted are named only by requests that ask to be set up, and by answers that turn
those away. -/
structure Hub.Minted (h : Hub) : Prop where
  sessions : h.sessions.Minted
  carries : h.Carries (Queue.Pending.Names h.sessions.issued) (Dispatch.Answer.Names h.sessions.issued)

namespace Hub.Minted
variable {h after : Hub}

theorem settles (minted : h.Minted) (settled : h.Settles after)
    (carries : after.Carries (Queue.Pending.Names h.sessions.issued) (Dispatch.Answer.Names h.sessions.issued)) :
    after.Minted where
  sessions := settled.minted minted.sessions
  carries := carries.mono (fun _ names => names.mono settled.issued) fun _ names => names.mono settled.issued

theorem same (minted : h.Minted) (sessions : after.sessions = h.sessions) (queue : after.queue.items = h.queue.items)
    (slots : after.slots = h.slots) : after.Minted :=
  ⟨sessions ▸ minted.sessions, sessions ▸ minted.carries.same queue slots⟩

theorem route (minted : h.Minted) (now : Int) (c : Config) (r : Http.Request) (connection : Nat) :
    (Route.route now c r connection h).2.Minted := by
  have settled := Route.settles_route now c r connection h
  have result := Route.route_result now c r connection h
  have recognised {ticket headers session} (parks : (Route.route now c r connection h).1 = .park ticket headers)
    (named : r.header? Access.sessionHeader = some session) := Route.parks_recognised parks named
  generalize Route.route now c r connection h = routed at settled result recognised ⊢
  obtain ⟨routed, after⟩ := routed
  refine minted.settles settled ?_
  cases result with
  | told _ _ => exact minted.carries
  | queued _ _ _ taken => exact (minted.carries.push (fun direct => absurd rfl direct) taken).same rfl rfl
  | turnedAway _ => exact minted.carries.same rfl rfl
  | parked taken =>
    refine (minted.carries.push (fun _ session named => ?_) taken).make.same rfl rfl
    exact (recognised rfl named).imp minted.sessions.of_contains Route.asksHandshake_of_isHandshake
  | opened _ finds => cases finds <;> exact minted.carries.same rfl rfl
  | closed _ _ _ _ => exact minted.carries.same rfl rfl

theorem law : Hub.Law (fun _ => True) (fun before after => before.Minted → after.Minted) where
  refl _ := id
  trans first second := second ∘ first
  route now c r connection h _ minted := minted.route now c r connection
  fail connection session failed outbox h minted := by
    rw [failStream_eq]
    exact minted.same rfl rfl rfl
  ending connection session h minted := by
    rw [endStream_eq]
    exact minted.same rfl rfl rfl
  touch now session h minted := minted.settles (h.keeps_touch now session).settles (minted.carries.same rfl rfl)
  receive _ _ minted := minted.same rfl rfl rfl
  collect _ ticket minted := ⟨minted.sessions, minted.carries.collect ticket⟩

theorem process (minted : h.Minted) (registry : Tool.Registry) (now : Int) {p : Queue.Pending}
    (names : p.Names h.sessions.issued) : (Tick.process registry now p h).Minted := by
  have settled : h.Settles (Tick.process registry now p h) := Or.inl (Tick.process_mints registry now p h)
  have carries := minted.carries.mono (fun _ names => names.mono settled.issued) fun _ names => names.mono settled.issued
  refine ⟨settled.minted minted.sessions, carries.process registry now fun direct => ?_⟩
  rw [Tick.sessions_process]
  exact Tick.names_perform registry now minted.sessions direct names

theorem tick (minted : h.Minted) (registry : Tool.Registry) (now : Int) : (Tick.tick registry now h).2.Minted := by
  let batch := h.queue.take (max 1 h.config.maxRequestsPerTick)
  -- The batch has left the queue, so of its requests it has to be carried along that no id is ever taken back.
  have taken : Hub.Minted { h with queue := batch.2 } := ⟨minted.sessions, minted.carries.take _⟩
  have run : (Tick.tick registry now h).2.Minted ∧ h.sessions.issued ⊆ (Tick.tick registry now h).2.sessions.issued := by
    refine List.foldlRecOn batch.1 _ (motive := fun after : Hub => after.Minted ∧ h.sessions.issued ⊆ after.sessions.issued)
      ⟨taken, List.Subset.refl _⟩ ?_
    rintro after ⟨minted', more⟩ p member
    have names := (minted.carries.queued p (List.take_subset _ _ member)).mono more
    have settled : after.Settles (Tick.process registry now p after) := Or.inl (Tick.process_mints registry now p after)
    exact ⟨minted'.process registry now names, List.Subset.trans more settled.issued⟩
  exact run.1

theorem sweep (minted : h.Minted) (now : Int) : (h.sweep now).Minted := by
  have swept := (h.sweep_swept now).sessions
  have carries := minted.carries.sweep now
  have issued : (h.sweep now).sessions.issued = h.sessions.issued := by rw [swept, SessionTable.issued_sweep]
  refine ⟨fun session member => ?_, issued ▸ carries⟩
  rw [issued]
  rw [swept] at member
  exact minted.sessions.of_contains (SessionTable.contains_of_sweep (SessionTable.mem_ids.mp member))

theorem shutDown (minted : h.Minted) : h.shutDown.Minted :=
  minted.settles h.keeps_shutDown.settles (minted.carries.shutDown fun _ _ _ _ _ => Or.inr ⟨_, Or.inr rfl⟩)

end Hub.Minted

/-! ## What a server says -/

/-- The sessions that fields of a response name. -/
def announcedIn (fields : List (String × String)) : List String :=
  (fields.filter fun field => Text.sameLetters field.1 Access.sessionHeader).map (·.2)

theorem announcedIn_append (first last : List (String × String)) :
    announcedIn (first ++ last) = announcedIn first ++ announcedIn last := by
  rw [announcedIn, List.filter_append, List.map_append]
  rfl

theorem announcedIn_own (session : String) : announcedIn [(Access.sessionHeader, session)] = [session] := by
  have same : Text.sameLetters Access.sessionHeader Access.sessionHeader = true := by decide +kernel
  simp [announcedIn, same]

def Anonymous (fields : List (String × String)) : Prop := announcedIn fields = []

theorem Anonymous.append {first last : List (String × String)} (anonymous : Anonymous first) (also : Anonymous last) :
    Anonymous (first ++ last) := by
  rw [Anonymous, announcedIn_append, anonymous, also]
  rfl

theorem anonymous_iff {fields : List (String × String)} :
    Anonymous fields ↔ ∀ field ∈ fields, Text.sameLetters field.1 Access.sessionHeader = false := by
  simp [Anonymous, announcedIn]

theorem anonymous_stock {fields : List (String × String)} (stock : fields ⊆ Http.Response.stockFields) :
    Anonymous fields := by
  have others : ∀ field ∈ Http.Response.stockFields, Text.sameLetters field.1 Access.sessionHeader = false := by
    decide +kernel
  exact anonymous_iff.mpr fun field member => others field (stock member)

theorem anonymous_origin (c : Config) (r : Http.Request) : Anonymous (Access.originHeaders c r) := by
  have others : ∀ name ∈ ["Access-Control-Allow-Origin", "Access-Control-Expose-Headers", "Vary"],
      Text.sameLetters name Access.sessionHeader = false := by decide +kernel
  exact anonymous_iff.mpr fun field member => others field.1 (Access.originHeaders_names c r field member)

theorem announcedIn_closing (r : Http.Response) (close : Bool) :
    announcedIn (r.closing close).headers = announcedIn r.headers := by
  have other : Anonymous [("Connection", "close")] := anonymous_stock (by decide)
  cases close with
  | false => rfl
  | true =>
    change announcedIn (r.headers ++ [("Connection", "close")]) = _
    rw [announcedIn_append, other, List.append_nil]

theorem body_closing (r : Http.Response) (close : Bool) : (r.closing close).body = r.body := by
  cases close <;> rfl

def Utterance.announced : Utterance → List String
  | .response r => announcedIn r.headers
  | .opening headers _ => announcedIn headers
  | .silence | .frame _ | .comment => []

/-- A response says that its call is turned away, for its version or because the server stops. -/
def Utterance.TurnsAway : Utterance → Prop
  | .response r => ∃ id, r.body = Text.utf8 (Rpc.Request.versionRefusal id).text ∨
      r.body = Text.utf8 (Rpc.Reply.shuttingDown id).text
  | _ => False

/-- Only these sessions are named, except where a call is turned away. -/
def Utterance.Names (issued : List String) (u : Utterance) : Prop :=
  ∀ session ∈ u.announced, session ∈ issued ∨ u.TurnsAway

theorem Utterance.names_anonymous (issued : List String) {r : Http.Response} (anonymous : Anonymous r.headers) (close : Bool) :
    (Utterance.response (r.closing close)).Names issued := by
  intro session member
  rw [announced, announcedIn_closing, anonymous] at member
  cases member

theorem Route.body_answerResponse (reply : Rpc.Reply) (session : Option String) (created : Bool) :
    (answerResponse ⟨some reply, session, created⟩).body = Text.utf8 reply.text := by
  cases session <;> simp only [answerResponse, Http.Response.json, Http.Response.withBody, Http.Response.withHeader]

theorem Route.names_slotResponse {issued : List String} {slot : Queue.Slot}
    (names : ∀ a, slot = .answered a → a.Names issued) {headers : List (String × String)} (anonymous : Anonymous headers)
    (close : Bool) : (Utterance.response ((withHeaders headers (slotResponse slot)).closing close)).Names issued := by
  have down : Anonymous shuttingDown.headers := anonymous_stock stock_shuttingDown.fields
  cases slot with
  | waiting => exact Utterance.names_anonymous issued (down.append anonymous) close
  | closed => exact Utterance.names_anonymous issued (down.append anonymous) close
  | answered a =>
    obtain ⟨reply, named, created⟩ := a
    have plain : Anonymous (answerResponse ⟨reply, none, created⟩).headers := by
      cases reply with
      | none => exact anonymous_stock (Http.Response.stock_ofStatus (by decide)).fields
      | some reply => exact anonymous_stock (Http.Response.stock_json (by decide) _).fields
    cases named with
    | none => exact Utterance.names_anonymous issued (plain.append anonymous) close
    | some id =>
      intro session member
      rw [Utterance.announced, announcedIn_closing] at member
      change session ∈ announcedIn
        ((answerResponse ⟨reply, none, created⟩).headers ++ [(Access.sessionHeader, id)] ++ headers) at member
      rw [announcedIn_append, announcedIn_append, plain, anonymous, announcedIn_own] at member
      obtain rfl := List.mem_singleton.mp member
      have body (reply : Rpc.Reply) : ((withHeaders headers (slotResponse (.answered ⟨some reply, some session, created⟩))).closing
          close).body = Text.utf8 reply.text := by
        rw [body_closing, withHeaders, slotResponse, body_answerResponse]
      refine (names _ rfl session rfl).imp_right ?_
      rintro ⟨number, rfl | rfl⟩
      · exact ⟨number, Or.inl (body _)⟩
      · exact ⟨number, Or.inr (body _)⟩

theorem Route.Finds.mem_issued {now : Int} {r : Http.Request} {h found : Hub} {session : String}
    (finds : Finds now r h session found) (minted : h.sessions.Minted) : session ∈ found.sessions.issued := by
  cases finds with
  | known _ known =>
    rw [issued_seen]
    exact minted.of_contains known
  | minted _ =>
    rw [SessionTable.issued_create]
    exact List.mem_append_right _ (List.mem_singleton_self _)

namespace Connection
variable {c : Connection} {h : Hub} {config : Config} {now : Int} {id : Nat}

theorem sessions_serve (r : Http.Request) :
    (c.serve now id config r h).hub.sessions = (Route.route now config r id h).2.sessions := by
  rcases hub_serve now id config r c h with same | ⟨_, _, same⟩ <;> rw [same]
  rw [Hub.failStream_eq]

theorem routed_names (minted : h.sessions.Minted) (r : Http.Request) :
    ((Route.route now config r id h).1.utterance config r).Names (Route.route now config r id h).2.sessions.issued := by
  have worded := Route.route_worded now config r id h
  have result := Route.route_result now config r id h
  have origin := anonymous_origin config r
  generalize Route.route now config r id h = routed at worded result ⊢
  obtain ⟨routed, after⟩ := routed
  -- only the head of a stream names a session at once, and the stream has been opened for it
  cases worded with
  | rejected rejection => exact Utterance.names_anonymous _ (anonymous_stock rejection.stock.fields) _
  | told _ stock _ => exact Utterance.names_anonymous _ ((anonymous_stock stock.fields).append origin) _
  | turnedAway _ =>
    have down : Anonymous Route.shuttingDown.headers := anonymous_stock Route.stock_shuttingDown.fields
    exact Utterance.names_anonymous _ (down.append origin) _
  | parked _ => exact fun _ member => absurd member List.not_mem_nil
  | @opened session outbox _ _ =>
    intro named member
    change named ∈ announcedIn ([(Access.sessionHeader, session)] ++ Access.originHeaders config r) at member
    rw [announcedIn_append, announcedIn_own, origin, List.append_nil] at member
    obtain rfl := List.mem_singleton.mp member
    cases result with
    | opened _ finds => exact Or.inl (finds.mem_issued minted)

theorem slot_names (minted : h.Minted) (ticket : Nat) (keepAlive : Bool) {headers : List (String × String)}
    (anonymous : Anonymous headers) :
    (Utterance.response ((Route.withHeaders headers (Route.slotResponse (h.slots.poll ticket).1)).closing
      (!keepAlive))).Names h.sessions.issued := by
  refine Route.names_slotResponse (fun a same => ?_) anonymous _
  unfold Queue.Slots.poll at same
  split at same <;> cases same
  exact minted.carries.answered ticket a (by assumption)

theorem heard_ne_lost (heard : c.heard = true) : c.peer ≠ .lost := by
  intro lost
  simp [Connection.heard, lost] at heard

/-- Whatever reaches the other side names no session that has not been minted by then, except where it turns a call
away. -/
theorem utterance_names (minted : h.Minted) (anonymous : c.Parks Anonymous) (heard : c.heard = true) {step : Step}
    (taken : c.step? now id h = some step) : (c.utterance now id h).Names step.hub.sessions.issued := by
  have settled := settles_step taken
  unfold step? at taken
  unfold utterance
  cases phase : c.phase with
  | reading config =>
    simp only [phase] at taken ⊢
    rw [stepReading_eq (heard_ne_lost heard)] at taken
    obtain ⟨found, here, rfl⟩ := Option.map_eq_some_iff.mp taken
    rw [here, Option.elim_some]
    cases found with
    | request r rest =>
      rw [Found.step, sessions_serve]
      exact routed_names minted.sessions r
    | fault flaw =>
      rw [Found.utterance]
      cases told : flaw.response? with
      | none => exact fun _ member => absurd member List.not_mem_nil
      | some response =>
        exact Utterance.names_anonymous _ (anonymous_stock (Http.Fault.stock_response? told).fields) false
    | nothing => exact fun _ member => absurd member List.not_mem_nil
  | parked ticket keepAlive headers =>
    simp only
    have names := slot_names minted ticket keepAlive (anonymous ticket keepAlive headers phase)
    split
    · exact fun _ member => absurd member List.not_mem_nil
    · exact fun session member => (names session member).imp_left fun issued => settled.issued issued
  | streaming session outbox =>
    simp only
    split <;> exact fun _ member => absurd member List.not_mem_nil
  | closed => exact fun _ member => absurd member List.not_mem_nil

theorem announced_overtime (anonymous : c.Parks Anonymous) (timer : Timer) : (c.overtime timer).announced = [] := by
  unfold overtime
  split
  next ticket keepAlive headers phase =>
    have plain : Anonymous Route.timedOut.headers := anonymous_stock Route.stock_timedOut.fields
    have parked : Anonymous (Route.withHeaders headers Route.timedOut).headers :=
      plain.append (anonymous ticket keepAlive headers phase)
    rw [Utterance.announced, announcedIn_closing, parked]
  · rfl
  · rfl

theorem parting_names (minted : h.Minted) (anonymous : c.Parks Anonymous) :
    (c.parting h).Names h.sessions.issued := by
  unfold parting
  split
  next ticket keepAlive headers phase =>
    exact slot_names minted ticket keepAlive (anonymous ticket keepAlive headers phase)
  next => exact fun _ member => absurd member List.not_mem_nil

end Connection

theorem Hub.Minted.invariant : Invariant Hub.Minted (Connection.Parks Anonymous) where
  begun _ := Connection.parks_of_ticket? rfl
  phase _ _ same parks := parks.phase same
  moves minted parks moves := ⟨law.moves moves (fun _ _ _ _ => trivial) minted,
    Connection.parks_moves parks moves fun _ r _ _ config => anonymous_origin config r⟩
  finish id c _ minted := law.finish id c _ minted
  tick registry now _ minted := minted.tick registry now
  sweep now _ minted := minted.sweep now
  shutDown _ minted := minted.shutDown
  reopen _ minted := minted.same rfl rfl rfl
  emit _ _ minted := minted.same rfl rfl rfl
  configure _ _ minted := minted.same rfl rfl rfl

/-! ## Strays -/

end Server

def Dispatch.Answer.Stray (issued : List String) (a : Answer) : Prop :=
  ∃ session, a.session = some session ∧ session ∉ issued

def Queue.Pending.Stray (issued : List String) (p : Pending) : Prop :=
  ∃ session, p.session = some session ∧ session ∉ issued

namespace Server

/-- Running a request answers it under a session that has not been minted just if the request names such a session and
its version is wrong. -/
theorem Tick.stray_perform_iff (registry : Tool.Registry) (now : Int) {p : Queue.Pending} {h : Hub}
    (minted : h.sessions.Minted) (direct : p.route ≠ .stream) (names : p.Names h.sessions.issued) :
    (perform registry now p h).1.Stray (perform registry now p h).2.sessions.issued ↔
      p.Stray h.sessions.issued ∧ ∃ id, Rpc.Request.parse p.body = .error (Rpc.Request.versionRefusal id) := by
  constructor
  · rintro ⟨session, named, stray⟩
    by_cases handshake : ∃ call, Rpc.Request.parse p.body = .ok call ∧ call.method = "initialize"
    · obtain ⟨call, read, method⟩ := handshake
      rw [perform_handshake registry now h read method] at named stray
      cases named
      exact absurd (minted.ensure now p.session) stray
    · obtain ⟨reply, performed⟩ := perform_plain registry now h fun call read method => handshake ⟨call, read, method⟩
      rw [performed] at named stray
      have asks := (names direct session named).resolve_left stray
      exact ⟨⟨session, named, stray⟩, asks.cases.resolve_left handshake⟩
  · rintro ⟨stray, id, refused⟩
    rw [perform_refused registry now h refused]
    exact stray

/-- A server names only sessions that it has minted, except where it turns a call away. That a call under another
session waits for its answer takes a body that asks to be set up, and that it is answered under that session takes a
wrong version or a stop. -/
structure Vouches (s : Server) : Prop where
  /-- All that reaches the other side of a connection, be it a response, the head of a stream or a frame. -/
  said : ∀ id now c step, s.connections.get? id = some c → c.step? now id s.hub = some step →
    step.sent = (if c.heard then (c.utterance now id s.hub).bytes else []) ∧
      (c.heard = true → (c.utterance now id s.hub).Names step.hub.sessions.issued)
  /-- All that reaches it when it has waited for too long. -/
  overtime : ∀ timer id now c step, s.connections.get? id = some c → c.lapse? timer now id s.hub = some step →
    step.sent = (if c.heard then (c.overtime timer).bytes else []) ∧ (c.overtime timer).announced = []
  /-- All that reaches it when the server stops. -/
  parting : ∀ id data, .data id data ∈ s.stop.1 →
    ∃ response, data = response.toBytes ∧ (Utterance.response response).Names s.hub.sessions.issued
  waiting : ∀ p ∈ s.hub.queue.items, p.Names s.hub.sessions.issued
  /-- What becomes of those that wait, whenever they are run. -/
  performed : ∀ p ∈ s.hub.queue.items, p.route ≠ .stream → ∀ registry now (h : Hub), h.sessions.Minted →
    s.hub.sessions.issued ⊆ h.sessions.issued →
    ((Tick.perform registry now p h).1.Stray (Tick.perform registry now p h).2.sessions.issued ↔
      p.Stray h.sessions.issued ∧ ∃ id, Rpc.Request.parse p.body = .error (Rpc.Request.versionRefusal id))
  /-- What becomes of them when the server stops. -/
  refused : ∀ p ∈ s.hub.queue.items,
    ((Hub.refusal p).Stray s.hub.sessions.issued ↔ p.Stray s.hub.sessions.issued)

theorem Hub.Minted.initial (config : Config) (info : ServerInfo) :
    (ofConfig config info).Holds Hub.Minted (Connection.Parks Anonymous) where
  hub := ⟨List.nil_subset _, List.forall_mem_nil _, fun _ _ found => by cases found⟩
  connections := List.forall_mem_nil _

theorem stop_names {s : Server} (holds : s.Holds Hub.Minted (Connection.Parks Anonymous)) {id : Nat} {data : Bytes}
    (sent : .data id data ∈ s.stop.1) :
    ∃ response, data = response.toBytes ∧ (Utterance.response response).Names s.hub.sessions.issued := by
  unfold stop at sent
  split at sent
  · have kept : s.hub.shutDown.Minted ∧ s.hub.Keeps s.hub.shutDown := ⟨holds.hub.shutDown, s.hub.keeps_shutDown⟩
    have finish (id : Nat) (c : Connection) (h : Hub) (before : h.Minted ∧ s.hub.Keeps h) :
        (c.finish id h).hub.Minted ∧ s.hub.Keeps (c.finish id h).hub :=
      ⟨Hub.Minted.law.finish id c h before.1, before.2.trans (Connection.keeps_finish id c h)⟩
    obtain ⟨c, after, member, ⟨minted, same⟩, spoken, rfl⟩ := finishAll_data finish kept sent
    obtain ⟨response, parting⟩ := (c.parting_cases after).resolve_left spoken
    have names := Connection.parting_names minted (holds.connections _ member)
    rw [parting, same.issued, List.append_nil] at names
    exact ⟨response, by rw [parting, Utterance.bytes], names⟩
  · cases sent

/-- In every run, a server names only sessions that it has minted, except where it turns a call away for its version
or because it stops. -/
theorem sessions_vouched_for (config : Config) (info : ServerInfo) (moves : List Move) :
    ((ofConfig config info).run moves).Vouches := by
  have holds := Hub.Minted.invariant.run (Hub.Minted.initial config info) moves
  generalize (ofConfig config info).run moves = s at holds ⊢
  constructor
  · intro id now c step found taken
    have anonymous := holds.connections _ (Entries.mem_of_get? found)
    exact ⟨Connection.sent_step taken, fun heard => Connection.utterance_names holds.hub anonymous heard taken⟩
  · intro timer id now c step found lapsed
    have anonymous := holds.connections _ (Entries.mem_of_get? found)
    exact ⟨Connection.sent_lapse lapsed, Connection.announced_overtime anonymous timer⟩
  · exact fun id data sent => stop_names holds sent
  · exact holds.hub.carries.queued
  · intro p member direct registry now h minted more
    exact Tick.stray_perform_iff registry now minted direct ((holds.hub.carries.queued p member).mono more)
  · exact fun _ _ => Iff.rfl

/-- A client guesses a session, and asks to be set up without telling the version. -/
private def guessing : List Move :=
  [.attach {}, .start .ok 0, .connect,
    .arrive 1 (Text.utf8
      "POST / HTTP/1.1\r\nMcp-Session-Id: made-up\r\nContent-Length: 23\r\n\r\n\x7b\"method\":\"initialize\"\x7d"),
    .act 1 0, .tick 0]

private def guessed : Server := (ofConfig {} {}).run guessing

private def underGuess : Connection := { phase := .parked 1 true [] }

theorem sessions_vouched_for_guessed :
    guessed.connections.get? 1 = some underGuess ∧ underGuess.heard = true ∧ guessed.hub.sessions.issued = [] ∧
      (underGuess.utterance 0 1 guessed.hub).announced = ["made-up"] ∧
      (underGuess.utterance 0 1 guessed.hub).TurnsAway := by
  have found : guessed.connections.get? 1 = some underGuess := by decide +kernel
  have heard : underGuess.heard = true := by decide +kernel
  have none_issued : (underGuess.step? 0 1 guessed.hub).map (·.hub.sessions.issued) = some [] := by decide +kernel
  have announced : (underGuess.utterance 0 1 guessed.hub).announced = ["made-up"] := by decide +kernel
  obtain ⟨step, taken, issued⟩ := Option.map_eq_some_iff.mp none_issued
  have names := ((sessions_vouched_for {} {} guessing).said 1 0 underGuess step found taken).2 heard
  refine ⟨found, heard, by decide +kernel, announced, (names "made-up" (announced ▸ List.mem_singleton_self _)).resolve_left ?_⟩
  exact fun member => List.not_mem_nil (issued ▸ member)

end Server

end ToolBridge

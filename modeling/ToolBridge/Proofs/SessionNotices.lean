import Mathlib.Data.List.Induction
import ToolBridge.Proofs.HubHistory
import ToolBridge.Proofs.LateRequests
import ToolBridge.Proofs.ServerRuns
import ToolBridge.Proofs.TextPieces

/-! What observers are told of sessions. A session is announced where it is minted, and its end is told where it
leaves the table, so the sessions whose end has not been told are those of the table. No step of a server does
both: it mints, or it ends sessions. -/

namespace ToolBridge

namespace Server

def Event.begun? : Event → Option String
  | .sessionOpened session => some session
  | _ => none

def Event.ended? : Event → Option String
  | .sessionClosed session => some session
  | _ => none

theorem Event.begun?_eq_some {event : Event} {session : String} :
    event.begun? = some session ↔ event = .sessionOpened session := by
  cases event <;> simp [begun?]

theorem Event.ended?_eq_some {event : Event} {session : String} :
    event.ended? = some session ↔ event = .sessionClosed session := by
  cases event <;> simp [ended?]

namespace Hub

/-- Observers are told of sessions, of their beginnings and of their ends, each in this order. -/
def Tells (begun ended : List String) (before after : Hub) : Prop :=
  ∃ news, after.events = before.events ++ news ∧ news.filterMap Event.begun? = begun ∧
    news.filterMap Event.ended? = ended

/-- Sessions are minted, in this order, and observers are told of each. -/
structure Mints (new : List String) (before after : Hub) : Prop where
  ids : after.sessions.ids = before.sessions.ids ++ new
  issued : after.sessions.issued = before.sessions.issued ++ new
  told : before.Tells new [] after

/-- Sessions of the table end, and observers are told of each. -/
structure Ends (gone : List String) (before after : Hub) : Prop where
  inside : gone.Sublist before.sessions.ids
  ids : after.sessions.ids = before.sessions.ids.filter (· ∉ gone)
  issued : after.sessions.issued = before.sessions.issued
  told : before.Tells [] gone after

/-- The sessions stay, and observers hear of none. -/
abbrev Keeps : Hub → Hub → Prop := Mints []

/-- Sessions are minted, or they end. -/
def Settles (before after : Hub) : Prop := (∃ new, before.Mints new after) ∨ ∃ gone, before.Ends gone after

section
variable {before middle after : Hub} {first last gone : List String}

theorem Tells.trans {begun ended : List String} (told : before.Tells first gone middle)
    (more : middle.Tells begun ended after) : before.Tells (first ++ begun) (gone ++ ended) after := by
  obtain ⟨news, events, rfl, rfl⟩ := told
  obtain ⟨later, after_events, rfl, rfl⟩ := more
  exact ⟨news ++ later, by rw [after_events, events, List.append_assoc], List.filterMap_append, List.filterMap_append⟩

theorem Mints.trans (minted : before.Mints first middle) (more : middle.Mints last after) :
    before.Mints (first ++ last) after :=
  ⟨by rw [more.ids, minted.ids, List.append_assoc], by rw [more.issued, minted.issued, List.append_assoc],
    minted.told.trans more.told⟩

theorem Keeps.apart {news : List Event} (ids : after.sessions.ids = before.sessions.ids)
    (issued : after.sessions.issued = before.sessions.issued) (events : after.events = before.events ++ news)
    (aside : ∀ event ∈ news, event.begun? = none ∧ event.ended? = none) : before.Keeps after :=
  ⟨by simp [ids], by simp [issued], news, events, List.filterMap_eq_nil_iff.mpr fun event member => (aside event member).1,
    List.filterMap_eq_nil_iff.mpr fun event member => (aside event member).2⟩

theorem Keeps.silent (ids : after.sessions.ids = before.sessions.ids)
    (issued : after.sessions.issued = before.sessions.issued) (events : after.events = before.events) :
    before.Keeps after :=
  .apart ids issued (events.trans (List.append_nil _).symm) (List.forall_mem_nil _)

theorem Keeps.same (sessions : after.sessions = before.sessions) (events : after.events = before.events) :
    before.Keeps after :=
  .silent (congrArg _ sessions) (congrArg _ sessions) events

theorem Keeps.refl (h : Hub) : h.Keeps h := .same rfl rfl

theorem Keeps.ends (kept : before.Keeps middle) (ended : middle.Ends gone after) : before.Ends gone after := by
  have ids : middle.sessions.ids = before.sessions.ids := kept.ids.trans (List.append_nil _)
  have issued : middle.sessions.issued = before.sessions.issued := kept.issued.trans (List.append_nil _)
  exact ⟨ids ▸ ended.inside, ids ▸ ended.ids, ended.issued.trans issued, kept.told.trans ended.told⟩

theorem Keeps.settles (kept : before.Keeps after) : before.Settles after := Or.inl ⟨[], kept⟩

theorem Settles.keeps (settled : before.Settles middle) (kept : middle.Keeps after) : before.Settles after := by
  rcases settled with ⟨new, minted⟩ | ⟨gone, ended⟩
  · exact Or.inl ⟨new ++ [], minted.trans kept⟩
  · have ids : after.sessions.ids = middle.sessions.ids := kept.ids.trans (List.append_nil _)
    have issued : after.sessions.issued = middle.sessions.issued := kept.issued.trans (List.append_nil _)
    refine Or.inr ⟨gone, ended.inside, ids.trans ended.ids, issued.trans ended.issued, ?_⟩
    simpa using ended.told.trans kept.told

end

/-! ## Single actions -/

section
variable (h : Hub)

theorem keeps_touch (now : Int) (session : String) : h.Keeps (h.touch now session).2 :=
  .silent SessionTable.ids_touch SessionTable.issued_touch rfl

theorem keeps_failStream (connection : Nat) (session : String) (failed : Option EventStream.Frame) (outbox : Nat) :
    h.Keeps (h.failStream connection session failed outbox) := by
  rw [failStream_eq]
  exact .apart rfl rfl rfl (by simp [Event.begun?, Event.ended?])

theorem keeps_endStream (connection : Nat) (session : String) : h.Keeps (h.endStream connection session) := by
  rw [endStream_eq]
  exact .apart rfl rfl rfl (by simp [Event.begun?, Event.ended?])

theorem keeps_shutDown : h.Keeps h.shutDown := by
  obtain ⟨slots, shut⟩ := h.shutDown_eq
  rw [shut]
  exact .same rfl rfl

theorem begun_closingNotices (sessions : List String) (r : Stream.Registry) :
    (closingNotices sessions r).filterMap Event.begun? = [] := by
  induction sessions generalizing r with
  | nil => rfl
  | cons session rest ih =>
    rw [closingNotices, List.filterMap_append, List.filterMap_cons_none rfl, ih, List.filterMap_map]
    cases (r.closeSession session).1 <;> rfl

theorem ended_closingNotices (sessions : List String) (r : Stream.Registry) :
    (closingNotices sessions r).filterMap Event.ended? = sessions := by
  induction sessions generalizing r with
  | nil => rfl
  | cons session rest ih =>
    simp only [closingNotices, List.filterMap_append, List.filterMap_cons, Event.ended?, ih, List.filterMap_map]
    cases (r.closeSession session).1 <;> rfl

theorem ends_sweep (now : Int) (distinct : h.sessions.ids.Nodup) :
    h.Ends (h.sessions.sweep now h.config.sessionIdle).1 (h.sweep now) := by
  have swept := h.sweep_swept now
  refine ⟨SessionTable.swept_sublist, ?_, ?_, _, swept.events, begun_closingNotices .., ended_closingNotices ..⟩
  · rw [swept.sessions, SessionTable.ids_sweep distinct]
  · rw [swept.sessions, SessionTable.issued_sweep]

end

end Hub

namespace Route

theorem ids_seen {now : Int} {named : Option String} {t : SessionTable} : (seen now named t).ids = t.ids := by
  cases named with
  | none => rfl
  | some session => exact SessionTable.ids_touch

theorem issued_seen {now : Int} {named : Option String} {t : SessionTable} : (seen now named t).issued = t.issued := by
  cases named with
  | none => rfl
  | some session => exact SessionTable.issued_touch

theorem finds_mints {now : Int} {r : Http.Request} {h found : Hub} {session : String}
    (finds : Finds now r h session found) : ∃ new, h.Mints new found := by
  cases finds with
  | known named known => exact ⟨[], Hub.Keeps.silent ids_seen issued_seen rfl⟩
  | minted unnamed =>
    exact ⟨[(h.sessions.create now).1.id], SessionTable.ids_create, SessionTable.issued_create,
      [.sessionOpened (h.sessions.create now).1.id], rfl, rfl, rfl⟩

theorem settles_route (now : Int) (c : Config) (r : Http.Request) (connection : Nat) (h : Hub) :
    h.Settles (route now c r connection h).2 := by
  have result := route_result now c r connection h
  generalize route now c r connection h = routed at result ⊢
  obtain ⟨routed, after⟩ := routed
  cases result with
  | told _ _ => exact (Hub.Keeps.refl _).settles
  | queued _ _ _ _ => exact Hub.Keeps.settles (.silent ids_seen issued_seen rfl)
  | turnedAway _ => exact Hub.Keeps.settles (.silent ids_seen issued_seen rfl)
  | parked _ => exact Hub.Keeps.settles (.silent ids_seen issued_seen rfl)
  | opened _ finds =>
    obtain ⟨new, minted⟩ := finds_mints finds
    refine Or.inl ⟨new ++ [], minted.trans (Hub.Keeps.apart rfl rfl rfl fun event member => ?_)⟩
    simp only [openingNotices, List.mem_append, List.mem_map, List.mem_singleton] at member
    obtain ⟨_, _, rfl⟩ | rfl := member <;> exact ⟨rfl, rfl⟩
  | @closed session _ _ _ known _ _ =>
    refine Or.inr ⟨[session], List.singleton_sublist.mpr (SessionTable.mem_ids.mpr known), SessionTable.ids_close, rfl, ?_⟩
    exact ⟨[.sessionClosed session], rfl, rfl, rfl⟩

end Route

namespace Tick
variable (registry : Tool.Registry) (now : Int) (p : Queue.Pending) (h : Hub)

theorem keeps_hand (a : Dispatch.Answer) : h.Keeps (hand p a h) := by
  unfold hand
  split
  · exact .same rfl rfl
  · split
    · exact .same rfl rfl
    · exact .refl h

/-- A request mints a session where it sets one up, and observers are told of it at once. -/
theorem process_mints : ∃ new, h.Mints new (process registry now p h) := by
  have announced : ∃ new, h.Mints new (announce (perform registry now p h).1 (perform registry now p h).2) := by
    by_cases handshake : ∃ call, Rpc.Request.parse p.body = .ok call ∧ call.method = "initialize"
    · obtain ⟨call, read, method⟩ := handshake
      rw [perform_handshake registry now h read method]
      rcases h.sessions.ensure_cases p.session with ⟨session, kept⟩ | minted
      · rw [kept]
        exact ⟨[], Hub.Keeps.silent SessionTable.ids_refresh rfl rfl⟩
      · rw [minted]
        exact ⟨[(h.sessions.create now).1.id], SessionTable.ids_create, SessionTable.issued_create,
          [.sessionOpened (h.sessions.create now).1.id], rfl, rfl, rfl⟩
    · obtain ⟨reply, performed⟩ := perform_plain registry now h fun call read method => handshake ⟨call, read, method⟩
      rw [performed]
      exact ⟨[], Hub.Keeps.refl h⟩
  obtain ⟨new, minted⟩ := announced
  rw [process_eq]
  exact ⟨new ++ [], minted.trans (keeps_hand p _ _)⟩

theorem tick_mints : ∃ new, h.Mints new (tick registry now h).2 := by
  let batch := h.queue.take (max 1 h.config.maxRequestsPerTick)
  have start : h.Keeps { h with queue := batch.2 } := .same rfl rfl
  refine List.foldlRecOn batch.1 _ (motive := fun after => ∃ new, h.Mints new after) ⟨[], start⟩ ?_
  rintro after ⟨new, minted⟩ p _
  obtain ⟨more, processed⟩ := process_mints registry now p after
  exact ⟨new ++ more, minted.trans processed⟩

end Tick

namespace Connection

theorem settles_serve (now : Int) (id : Nat) (config : Config) (r : Http.Request) (c : Connection) (h : Hub) :
    h.Settles (c.serve now id config r h).hub := by
  have result := Route.settles_route now config r id h
  rcases hub_serve now id config r c h with same | ⟨_, _, same⟩ <;> rw [same]
  · exact result
  · exact result.keeps (Hub.keeps_failStream ..)

/-- Only a request that is served can bring a session into being. -/
theorem settles_step {now : Int} {id : Nat} {c : Connection} {h : Hub} {step : Step}
    (taken : c.step? now id h = some step) : h.Settles step.hub := by
  rcases step?_cases taken with ⟨_, _, taken⟩ | ⟨_, _, _, _, taken⟩ | ⟨session, outbox, _, taken⟩
  · rcases stepReading_cases taken with ⟨r, rest, _, rfl⟩ | ⟨_, _, same⟩
    · exact settles_serve ..
    · exact same ▸ (Hub.Keeps.refl h).settles
  · obtain ⟨slot, slots, _, _, rfl⟩ := stepParked_cases taken
    rw [hub_answered]
    exact Hub.Keeps.settles (.same rfl rfl)
  · refine Hub.Keeps.settles ?_
    cases stepStreaming_cases taken with
    | @writes _ outboxes =>
      have received : h.Keeps { h with streams := { h.streams with outboxes } } := .same rfl rfl
      exact received.trans (Hub.keeps_touch ..)
    | @fails _ outboxes =>
      have received : h.Keeps { h with streams := { h.streams with outboxes } } := .same rfl rfl
      exact received.trans (Hub.keeps_failStream ..)
    | ends => exact Hub.keeps_endStream ..
    | gives => exact Hub.keeps_failStream ..
    | drops => exact .refl h

theorem settles_moves {now : Int} {id : Nat} {c : Connection} {h : Hub} {step : Step} (moves : c.Moves now id h step) :
    h.Settles step.hub := by
  cases moves with
  | acts taken => exact settles_step taken
  | lapses lapsed =>
    refine Hub.Keeps.settles ?_
    cases lapse?_cases lapsed with
    | leaves => exact .refl h
    | excuses =>
      rw [hub_respond]
      exact .same rfl rfl
    | comments => exact Hub.keeps_touch ..
    | fails => exact Hub.keeps_failStream ..

theorem keeps_finish (id : Nat) (c : Connection) (h : Hub) : h.Keeps (c.finish id h).hub := by
  unfold finish
  split
  · exact .refl h
  · exact .refl h
  · simp only [hub_answered]
    exact .same rfl rfl
  · exact Hub.keeps_endStream ..

end Connection

theorem keeps_finishAll (connections : List (Nat × Connection)) (h : Hub) : h.Keeps (finishAll connections h).2 := by
  induction connections generalizing h with
  | nil => exact .refl h
  | cons entry rest ih =>
    obtain ⟨id, c⟩ := entry
    exact (Connection.keeps_finish id c h).trans (ih _)

/-! ## Runs -/

/-- Observers have been told of all sessions minted so far, and of the end of each that has left the table. -/
structure Hub.Balanced (h : Hub) : Prop where
  begun : h.events.filterMap Event.begun? = h.sessions.issued
  once : (h.events.filterMap Event.ended?).Nodup
  issued : ∀ session ∈ h.events.filterMap Event.ended?, session ∈ h.sessions.issued
  current : h.sessions.ids = h.sessions.issued.filter (· ∉ h.events.filterMap Event.ended?)

namespace Hub.Balanced
variable {h after : Hub}

theorem distinct (balanced : h.Balanced) : h.sessions.ids.Nodup :=
  balanced.current ▸ h.sessions.nodup_issued.filter _

theorem contains_iff (balanced : h.Balanced) {session : String} : h.sessions.contains session ↔
    session ∈ h.sessions.issued ∧ session ∉ h.events.filterMap Event.ended? := by
  rw [← SessionTable.mem_ids, balanced.current, List.mem_filter, decide_eq_true_iff]

theorem mints_preserves (balanced : h.Balanced) {new : List String} (minted : h.Mints new after) : after.Balanced := by
  obtain ⟨news, events, begun, ended⟩ := minted.told
  have same : after.events.filterMap Event.ended? = h.events.filterMap Event.ended? := by
    rw [events, List.filterMap_append, ended, List.append_nil]
  have fresh : ∀ session ∈ new, session ∉ h.events.filterMap Event.ended? := by
    intro session member told
    have distinct := minted.issued ▸ after.sessions.nodup_issued
    exact (List.nodup_append.mp distinct).2.2 session (balanced.issued session told) session member rfl
  refine ⟨?_, same ▸ balanced.once, ?_, ?_⟩
  · rw [events, List.filterMap_append, begun, balanced.begun, minted.issued]
  · rw [same, minted.issued]
    exact fun session told => List.mem_append_left new (balanced.issued session told)
  · rw [same, minted.ids, minted.issued, List.filter_append, ← balanced.current,
      List.filter_eq_self.mpr fun session member => decide_eq_true (fresh session member)]

theorem ends_preserves (balanced : h.Balanced) {gone : List String} (ended : h.Ends gone after) : after.Balanced := by
  obtain ⟨news, events, begun, told⟩ := ended.told
  have all : after.events.filterMap Event.ended? = h.events.filterMap Event.ended? ++ gone := by
    rw [events, List.filterMap_append, told]
  have known : ∀ session ∈ gone, h.sessions.contains session :=
    fun session member => SessionTable.mem_ids.mp (ended.inside.subset member)
  refine ⟨?_, ?_, ?_, ?_⟩
  · rw [events, List.filterMap_append, begun, List.append_nil, balanced.begun, ended.issued]
  · rw [all, List.nodup_append]
    refine ⟨balanced.once, balanced.distinct.sublist ended.inside, ?_⟩
    rintro session before _ member rfl
    exact (balanced.contains_iff.mp (known session member)).2 before
  · rw [all, ended.issued]
    intro session member
    rcases List.mem_append.mp member with before | now
    · exact balanced.issued session before
    · exact (balanced.contains_iff.mp (known session now)).1
  · rw [all, ended.ids, ended.issued, balanced.current, List.filter_filter]
    refine List.filter_congr fun session _ => ?_
    simp [and_comm]

theorem settles_preserves (balanced : h.Balanced) (settled : h.Settles after) : after.Balanced := by
  rcases settled with ⟨new, minted⟩ | ⟨gone, ended⟩
  · exact balanced.mints_preserves minted
  · exact balanced.ends_preserves ended

theorem mem_opened (balanced : h.Balanced) {session : String} :
    .sessionOpened session ∈ h.events ↔ session ∈ h.sessions.issued := by
  rw [← balanced.begun, List.mem_filterMap]
  constructor
  · exact fun told => ⟨_, told, rfl⟩
  · rintro ⟨event, told, same⟩
    exact Event.begun?_eq_some.mp same ▸ told

theorem mem_closed {session : String} :
    .sessionClosed session ∈ h.events ↔ session ∈ h.events.filterMap Event.ended? := by
  rw [List.mem_filterMap]
  constructor
  · exact fun told => ⟨_, told, rfl⟩
  · rintro ⟨event, told, same⟩
    exact Event.ended?_eq_some.mp same ▸ told

theorem count_opened (balanced : h.Balanced) {session : String} (told : .sessionOpened session ∈ h.events) :
    h.events.count (.sessionOpened session) = 1 := by
  rw [Event.count_eq fun _ => Event.begun?_eq_some, balanced.begun]
  exact List.count_eq_one_of_mem h.sessions.nodup_issued (balanced.mem_opened.mp told)

theorem count_closed (balanced : h.Balanced) (session : String) : h.events.count (.sessionClosed session) ≤ 1 := by
  rw [Event.count_eq fun _ => Event.ended?_eq_some]
  exact List.nodup_iff_count_le_one.mp balanced.once session

/-- In one step observers hear of the beginning of what is new in the table, and of the end of what has left it. -/
theorem settles_told (balanced : h.Balanced) (settled : h.Settles after) : ∃ news, after.events = h.events ++ news ∧
    ∀ session,
      news.count (.sessionOpened session) =
        (if ¬ h.sessions.contains session ∧ after.sessions.contains session then 1 else 0) ∧
      news.count (.sessionClosed session) =
        if h.sessions.contains session ∧ ¬ after.sessions.contains session then 1 else 0 := by
  rcases settled with ⟨new, minted⟩ | ⟨gone, ended⟩
  · obtain ⟨news, events, begun, told⟩ := minted.told
    refine ⟨news, events, fun session => ?_⟩
    have distinct := minted.issued ▸ after.sessions.nodup_issued
    have fresh : session ∈ new → ¬ h.sessions.contains session := fun member known =>
      (List.nodup_append.mp distinct).2.2 session (balanced.contains_iff.mp known).1 session member rfl
    have known : after.sessions.contains session ↔ h.sessions.contains session ∨ session ∈ new := by
      rw [← SessionTable.mem_ids, minted.ids, List.mem_append, SessionTable.mem_ids]
    have kept : ¬ (h.sessions.contains session ∧ ¬ after.sessions.contains session) := by tauto
    rw [Event.count_eq fun _ => Event.begun?_eq_some, Event.count_eq fun _ => Event.ended?_eq_some, begun, told,
      (List.nodup_append.mp distinct).2.1.count, if_neg kept]
    exact ⟨if_congr (by tauto) rfl rfl, rfl⟩
  · obtain ⟨news, events, begun, told⟩ := ended.told
    refine ⟨news, events, fun session => ?_⟩
    have inside : session ∈ gone → h.sessions.contains session :=
      fun member => SessionTable.mem_ids.mp (ended.inside.subset member)
    have known : after.sessions.contains session ↔ h.sessions.contains session ∧ session ∉ gone := by
      rw [← SessionTable.mem_ids, ended.ids, List.mem_filter, decide_eq_true_iff, SessionTable.mem_ids]
    have unminted : ¬ (¬ h.sessions.contains session ∧ after.sessions.contains session) := by tauto
    rw [Event.count_eq fun _ => Event.begun?_eq_some, Event.count_eq fun _ => Event.ended?_eq_some, begun, told,
      (balanced.distinct.sublist ended.inside).count, if_neg unminted]
    exact ⟨rfl, if_congr (by tauto) rfl rfl⟩

end Hub.Balanced

theorem settles_start (bind : Binder) (now : Int) (s : Server) (distinct : s.hub.sessions.ids.Nodup) :
    s.hub.Settles (s.start bind now).2.hub := by
  rcases s.start_cases bind now with same | ⟨_, endpoint, hub, swept, started⟩
  · rw [same]
    exact (Hub.Keeps.refl _).settles
  · have told : s.hub.Keeps (Hub.emit (.started endpoint) { s.hub with queue := s.hub.queue.reopen }) :=
      .apart rfl rfl rfl (by simp [Event.begun?, Event.ended?])
    rw [started, swept]
    exact Or.inr ⟨_, told.ends (Hub.ends_sweep _ now distinct)⟩

theorem keeps_stop (s : Server) : s.hub.Keeps s.stop.2.hub := by
  unfold stop
  split
  · refine ((Hub.keeps_shutDown s.hub).trans (keeps_finishAll s.connections _)).trans (Hub.Keeps.apart rfl rfl rfl ?_)
    simp [Event.begun?, Event.ended?]
  · exact .refl s.hub

theorem settles_perform (s : Server) (distinct : s.hub.sessions.ids.Nodup) (move : Move) :
    s.hub.Settles (s.perform move).hub := by
  have still : s.hub.Settles s.hub := (Hub.Keeps.refl s.hub).settles
  have owned := s.owned_cases move
  cases move with
  | connect =>
    simp only [perform, connect]
    split <;> exact still
  | arrive id data => exact (hub_modify id _ s) ▸ still
  | leave id peer => exact (hub_modify id _ s) ▸ still
  | act | lapse =>
    rcases owned trivial with same | ⟨_, _, _, _, _, moves, same⟩ <;> rw [same]
    · exact still
    · exact Connection.settles_moves moves
  | tick now =>
    simp only [perform]
    split
    · exact Or.inl (Tick.tick_mints ..)
    · exact still
  | sweep now => exact Or.inr ⟨_, s.hub.ends_sweep now distinct⟩
  | attach tools =>
    simp only [perform, attach]
    split <;> exact still
  | detach => exact still
  | setApiKey _ | setAllowedOrigins _ => exact Hub.Keeps.settles (.same rfl rfl)
  | start bind now => exact s.settles_start bind now distinct
  | stop => exact s.keeps_stop.settles

theorem balanced_run (config : Config) (info : ServerInfo) (moves : List Move) :
    ((ofConfig config info).run moves).hub.Balanced :=
  List.foldlRecOn moves perform (motive := fun s : Server => s.hub.Balanced)
    ⟨rfl, List.nodup_nil, List.forall_mem_nil _, rfl⟩
    fun s balanced move _ => balanced.settles_preserves (s.settles_perform balanced.distinct move)

theorem events_run {s : Server} (balanced : s.hub.Balanced) (moves : List Move) :
    s.hub.events <+: (s.run moves).hub.events := by
  induction moves generalizing s with
  | nil => exact List.prefix_rfl
  | cons move rest ih =>
    have settled := s.settles_perform balanced.distinct move
    obtain ⟨news, events, _⟩ := balanced.settles_told settled
    exact (events ▸ List.prefix_append _ news).trans (ih (balanced.settles_preserves settled))

/-- Observers hear once of every session that was ever in the table, and of no other. They hear of the end of a
session at most once, and the sessions whose end they have not heard of are those in the table. Either is told in the
very step that puts the session into the table or takes it out. -/
theorem session_events_balance (config : Config) (info : ServerInfo) (moves : List Move) :
    (∀ session,
      ((∃ first, first <+: moves ∧ ((ofConfig config info).run first).hub.sessions.contains session) ↔
        .sessionOpened session ∈ ((ofConfig config info).run moves).hub.events) ∧
      (.sessionOpened session ∈ ((ofConfig config info).run moves).hub.events →
        ((ofConfig config info).run moves).hub.events.count (.sessionOpened session) = 1) ∧
      ((ofConfig config info).run moves).hub.events.count (.sessionClosed session) ≤ 1 ∧
      ((.sessionOpened session ∈ ((ofConfig config info).run moves).hub.events ∧
          .sessionClosed session ∉ ((ofConfig config info).run moves).hub.events) ↔
        ((ofConfig config info).run moves).hub.sessions.contains session)) ∧
    ∀ move, ∃ news, (((ofConfig config info).run moves).perform move).hub.events =
        ((ofConfig config info).run moves).hub.events ++ news ∧
      ∀ session,
        news.count (.sessionOpened session) =
          (if ¬ ((ofConfig config info).run moves).hub.sessions.contains session ∧
            (((ofConfig config info).run moves).perform move).hub.sessions.contains session then 1 else 0) ∧
        news.count (.sessionClosed session) =
          if ((ofConfig config info).run moves).hub.sessions.contains session ∧
            ¬ (((ofConfig config info).run moves).perform move).hub.sessions.contains session then 1 else 0 := by
  have told : ∀ moves move, _ := fun moves move => (balanced_run config info moves).settles_told
    (((ofConfig config info).run moves).settles_perform (balanced_run config info moves).distinct move)
  have balanced := balanced_run config info moves
  refine ⟨fun session => ⟨⟨?_, ?_⟩, balanced.count_opened, balanced.count_closed session, ?_⟩, told moves⟩
  · rintro ⟨first, ⟨last, rfl⟩, known⟩
    have earlier := balanced_run config info first
    rw [run_append]
    exact (events_run earlier last).subset (earlier.mem_opened.mpr (earlier.contains_iff.mp known).1)
  · -- The step that told of the session put it into the table.
    clear balanced
    induction moves using List.reverseRecOn with
    | nil =>
      intro opened
      exact absurd opened List.not_mem_nil
    | append_singleton earlier move ih =>
      intro opened
      obtain ⟨news, events, counts⟩ := told earlier move
      rw [run_append, run, List.foldl_cons, List.foldl_nil, events, List.mem_append] at opened
      rcases opened with before | now
      · obtain ⟨first, inside, known⟩ := ih before
        exact ⟨first, inside.trans (List.prefix_append ..), known⟩
      · refine ⟨earlier ++ [move], List.prefix_rfl, ?_⟩
        rw [run_append]
        have positive := List.count_pos_iff.mpr now
        rw [(counts session).1] at positive
        by_contra unknown
        rw [if_neg fun put => unknown put.2] at positive
        exact absurd positive (lt_irrefl 0)
  · rw [balanced.mem_opened, Hub.Balanced.mem_closed, balanced.contains_iff]

end Server

end ToolBridge

import ToolBridge.Proofs.HubHistory
import ToolBridge.Proofs.StreamSequence

/-! What observers are told of streams. Every stream that is opened is announced once. That it has ended is told once
where a newer stream, its writer or a sweep ended it, and not at all where a deletion, a delivery or a stop did. -/

namespace ToolBridge

theorem Entries.found_of_mem_keys {κ α : Type} [DecidableEq κ] {key : κ} {entries : Entries κ α}
    (member : key ∈ keys entries) : get? key entries ≠ none := by
  induction entries with
  | nil => cases member
  | cons entry rest ih =>
    obtain ⟨k, v⟩ := entry
    unfold get?
    split
    · exact Option.some_ne_none v
    next differ => exact ih ((List.mem_cons.mp member).resolve_left (Ne.symm differ))

namespace Stream.Registry
variable {r : Registry} {connection : Nat}

theorem OpenFor.found {session : String} (open_ : r.OpenFor connection session) :
    r.connections.get? connection ≠ none := by
  intro absent
  simp [OpenFor, absent] at open_

theorem OpenFor.of_subset {after : Registry} {session : String} (open_ : after.OpenFor connection session)
    (kept : ∀ stream, after.connections.get? connection = some stream →
      r.connections.get? connection = some stream) : r.OpenFor connection session := by
  obtain ⟨stream, found, belongs⟩ := Option.map_eq_some_iff.mp open_
  rw [OpenFor, kept stream found, Option.map_some, belongs]

theorem openFor_of_found (found : r.connections.get? connection ≠ none) : ∃ session, r.OpenFor connection session := by
  obtain ⟨stream, there⟩ := Option.ne_none_iff_exists'.mp found
  exact ⟨stream.session, by rw [OpenFor, there, Option.map_some]⟩

theorem openFor_deliver (r : Registry) {session data other : String}
    (open_ : (r.deliver session data).2.OpenFor connection other) : r.OpenFor connection other := by
  rcases r.deliver_cases session data with ⟨number, stream, accepts, _, streamed⟩ | ⟨_, _, same⟩
  · rw [OpenFor, streamed.connections] at open_
    split at open_
    next here => rwa [here, OpenFor, accepts.2.1]
    next => exact open_
  · rw [same] at open_
    exact open_.of_subset fun stream => r.withoutStream_subset session connection

end Stream.Registry

theorem Stream.World.openings_run (w : World) {actions : List Action}
    (unopened : ∀ connection session resume, .register connection session resume ∉ actions) :
    (w.run actions).openings = w.openings := by
  refine List.foldlRecOn actions step (motive := fun after => after.openings = w.openings) rfl ?_
  intro after same action member
  rw [← same]
  refine (step_narrowed action ?_).openings
  rintro connection session resume rfl
  exact unopened connection session resume member

namespace Server

def Event.opened? : Event → Option (String × Nat)
  | .streamOpened session connection => some (session, connection)
  | _ => none

def Event.closed? : Event → Option (String × Nat)
  | .streamClosed session connection => some (session, connection)
  | _ => none

theorem Event.opened?_eq_some {event : Event} {session : String} {connection : Nat} :
    event.opened? = some (session, connection) ↔ event = .streamOpened session connection := by
  cases event <;> simp [opened?]

theorem Event.closed?_eq_some {event : Event} {session : String} {connection : Nat} :
    event.closed? = some (session, connection) ↔ event = .streamClosed session connection := by
  cases event <;> simp [closed?]

/-- The stream that a deed ends as its writer. -/
def Deed.writer? : Deed → Option Stream.Opening
  | .fail stream _ | .unregister stream => some stream
  | _ => none

/-- The event is about no stream. -/
def Event.Aside (event : Event) : Prop := event.opened? = none ∧ event.closed? = none

namespace Chronicle

theorem mem_lost {before after : Stream.Registry} {connection : Nat} : connection ∈ hushes.lost before after ↔
    before.connections.get? connection ≠ none ∧ after.connections.get? connection = none := by
  rw [hushes.lost, List.mem_filter, Option.isNone_iff_eq_none]
  refine and_congr_left fun _ => ⟨Entries.found_of_mem_keys, ?_⟩
  intro found
  obtain ⟨stream, there⟩ := Option.ne_none_iff_exists'.mp found
  exact Entries.mem_keys there

/-- What a deed tells of streams, given which it opens and which it ends in silence. -/
structure Notes (before after : Stream.Registry) (added : List Stream.Opening) (quiet : List Nat)
    (news : List Event) : Prop where
  opened : news.filterMap Event.opened? = added.map fun o => (o.session, o.connection)
  once : (news.filterMap Event.closed?).Nodup
  closed : ∀ session connection, (session, connection) ∈ news.filterMap Event.closed? ↔
    before.OpenFor connection session ∧ after.connections.get? connection = none ∧ connection ∉ quiet
  quiet : ∀ connection ∈ quiet,
    before.connections.get? connection ≠ none ∧ after.connections.get? connection = none
  kept : ∀ connection session, after.OpenFor connection session →
    before.OpenFor connection session ∨ connection ∈ added.map (·.connection)
  there : ∀ opening ∈ added, after.connections.get? opening.connection ≠ none

namespace Notes
variable {before middle after : Stream.Registry}

private theorem aside_none {news : List Event} (aside : ∀ event ∈ news, event.Aside) :
    news.filterMap Event.opened? = [] ∧ news.filterMap Event.closed? = [] :=
  ⟨List.filterMap_eq_nil_iff.mpr fun event member => (aside event member).1,
    List.filterMap_eq_nil_iff.mpr fun event member => (aside event member).2⟩

theorem silent {news : List Event} (aside : ∀ event ∈ news, event.Aside)
    (kept : ∀ connection session, after.OpenFor connection session → before.OpenFor connection session) :
    Notes before after [] (hushes.lost before after) news := by
  obtain ⟨unopened, unclosed⟩ := aside_none aside
  refine ⟨unopened, by simp [unclosed], ?_, fun connection member => mem_lost.mp member,
    fun connection session found => Or.inl (kept connection session found), List.forall_mem_nil _⟩
  intro session connection
  rw [unclosed]
  refine iff_of_false List.not_mem_nil ?_
  rintro ⟨open_, gone, loud⟩
  exact loud (mem_lost.mpr ⟨open_.found, gone⟩)

theorem still {news : List Event} (aside : ∀ event ∈ news, event.Aside)
    (same : ∀ connection session, after.OpenFor connection session ↔ before.OpenFor connection session) :
    Notes before after [] [] news := by
  obtain ⟨unopened, unclosed⟩ := aside_none aside
  refine ⟨unopened, by simp [unclosed], ?_, List.forall_mem_nil _,
    fun connection session found => Or.inl ((same ..).mp found), List.forall_mem_nil _⟩
  intro session connection
  rw [unclosed]
  refine iff_of_false List.not_mem_nil ?_
  rintro ⟨open_, gone, _⟩
  exact ((same ..).mpr open_).found gone

theorem removed {session : String} {connection : Nat} (own : before.OpenFor connection session)
    (connections : ∀ other, after.connections.get? other =
      if other = connection then none else before.connections.get? other) :
    Notes before after [] [] [.streamClosed session connection] := by
  refine ⟨rfl, by simp [Event.closed?], ?_, List.forall_mem_nil _, ?_, List.forall_mem_nil _⟩
  · intro other number
    simp only [List.filterMap_cons, Event.closed?, List.filterMap_nil, List.mem_singleton, Prod.mk.injEq, connections]
    constructor
    · rintro ⟨rfl, rfl⟩
      exact ⟨own, if_pos rfl, List.not_mem_nil⟩
    · rintro ⟨open_, gone, _⟩
      split at gone
      next same => exact ⟨Option.some.inj ((same ▸ open_).symm.trans own), same⟩
      next => exact absurd gone open_.found
  · intro number other found
    rw [Stream.Registry.OpenFor, connections] at found
    split at found
    · cases found
    · exact Or.inl found

theorem append {first last : List Event} (earlier : Notes before middle [] [] first)
    (later : Notes middle after [] [] last) : Notes before after [] [] (first ++ last) := by
  have back : ∀ connection session, after.OpenFor connection session → middle.OpenFor connection session :=
    fun connection session found => (later.kept connection session found).resolve_right List.not_mem_nil
  have start : ∀ connection session, middle.OpenFor connection session → before.OpenFor connection session :=
    fun connection session found => (earlier.kept connection session found).resolve_right List.not_mem_nil
  refine ⟨?_, ?_, ?_, List.forall_mem_nil _, fun connection session found => Or.inl (start _ _ (back _ _ found)),
    List.forall_mem_nil _⟩
  · rw [List.filterMap_append, earlier.opened, later.opened]
    rfl
  · rw [List.filterMap_append, List.nodup_append]
    refine ⟨earlier.once, later.once, ?_⟩
    rintro ⟨session, connection⟩ told _ again rfl
    exact ((later.closed session connection).mp again).1.found ((earlier.closed session connection).mp told).2.1
  · intro session connection
    rw [List.filterMap_append, List.mem_append, earlier.closed, later.closed]
    simp only [List.not_mem_nil, not_false_eq_true, and_true]
    constructor
    · rintro (⟨open_, gone⟩ | ⟨open_, gone⟩)
      · refine ⟨open_, ?_⟩
        by_contra found
        obtain ⟨other, found⟩ := Stream.Registry.openFor_of_found found
        exact (back connection other found).found gone
      · exact ⟨start connection session open_, gone⟩
    · rintro ⟨open_, gone⟩
      by_cases there : middle.connections.get? connection = none
      · exact Or.inl ⟨open_, there⟩
      · obtain ⟨other, found⟩ := Stream.Registry.openFor_of_found there
        obtain rfl : session = other := Option.some.inj (open_.symm.trans (start connection other found))
        exact Or.inr ⟨found, gone⟩

/-- A new stream takes the place of the one that its session had, and of no other. -/
private theorem closed_opening {connection : Nat} {session : String} {resume : Option Int} {sent left : List String}
    {result : Stream.Registration} (valid : before.Consistent) (unused : before.connections.get? connection = none)
    (opened : before.Opened connection session resume sent left result after) (other : String) (number : Nat) :
    (other = session ∧ before.current.get? session = some number) ↔
      before.OpenFor number other ∧ after.connections.get? number = none := by
  rw [opened.connections]
  constructor
  · rintro ⟨rfl, seen⟩
    obtain ⟨stream, found, belongs⟩ := valid.found seen
    have different : number ≠ connection := by
      rintro rfl
      cases unused.symm.trans found
    refine ⟨by rw [Stream.Registry.OpenFor, found, Option.map_some, belongs], ?_⟩
    rw [if_neg different, if_pos seen]
  · rintro ⟨open_, gone⟩
    split at gone
    · cases gone
    split at gone
    next seen =>
      obtain ⟨stream, found, belongs⟩ := valid.found seen
      rw [Stream.Registry.OpenFor, found, Option.map_some, belongs] at open_
      exact ⟨(Option.some.inj open_).symm, seen⟩
    next => exact absurd gone open_.found

theorem opening {connection : Nat} {session : String} {resume : Option Int} {sent left : List String}
    {result : Stream.Registration} (valid : before.Consistent) (unused : before.connections.get? connection = none)
    (opened : before.Opened connection session resume sent left result after) {news : List Event}
    (aside : ∀ event ∈ news, event.Aside) :
    Notes before after [⟨connection, session, result.outbox⟩] []
      (news ++ Route.openingNotices session connection result.superseded) := by
  obtain ⟨unopened, unclosed⟩ := aside_none aside
  have told : (news ++ Route.openingNotices session connection result.superseded).filterMap Event.closed? =
      (before.current.get? session).toList.map (session, ·) := by
    rw [List.filterMap_append, unclosed, valid.opened_superseded unused opened, Route.openingNotices,
      List.filterMap_append, List.filterMap_map]
    cases before.current.get? session <;> rfl
  refine ⟨?_, ?_, ?_, List.forall_mem_nil _, ?_, ?_⟩
  · rw [List.filterMap_append, unopened, Route.openingNotices, List.filterMap_append, List.filterMap_map]
    cases result.superseded <;> rfl
  · rw [told]
    cases before.current.get? session <;> simp
  · intro other number
    rw [told, ← and_assoc, ← closed_opening valid unused opened]
    cases before.current.get? session <;> simp [eq_comm]
  · intro number other found
    rw [Stream.Registry.OpenFor, opened.connections] at found
    split at found
    next same => exact Or.inr (by simp [same])
    split at found
    · cases found
    · exact Or.inl found
  · intro other member
    rw [List.mem_singleton.mp member, opened.connections, if_pos rfl]
    exact Option.some_ne_none _

private theorem aside_sessionClosed (session : String) : ∀ event ∈ [Event.sessionClosed session], event.Aside := by
  simp [Event.Aside, Event.opened?, Event.closed?]

private theorem closed_one (valid : before.Consistent) (session : String) :
    Notes before (before.closeSession session).2 [] []
      ((before.closeSession session).1.toList.map (.streamClosed session)) := by
  have connections : ∀ other, (before.closeSession session).2.connections.get? other =
      if before.current.get? session = some other then none else before.connections.get? other := by
    intro other
    rw [before.closeSession_after]
    exact Stream.Registry.connections_withoutStream ..
  cases seen : before.current.get? session with
  | none =>
    have nothing : (before.closeSession session).1 = none := by
      simp [Stream.Registry.closeSession, Stream.Registry.current_setPending, seen]
    rw [nothing]
    refine still (List.forall_mem_nil _) fun connection other => ?_
    rw [Stream.Registry.OpenFor, connections, seen, if_neg (Option.some_ne_none _).symm, Stream.Registry.OpenFor]
  | some connection =>
    obtain ⟨stream, found, belongs⟩ := valid.found seen
    have closed : (before.closeSession session).1 = some connection :=
      before.closed_iff.mpr ⟨seen, by rw [found]; rfl⟩
    rw [closed]
    refine removed (by rw [Stream.Registry.OpenFor, found, Option.map_some, belongs]) fun other => ?_
    rw [connections, seen]
    simp only [Option.some.injEq, eq_comm (a := connection)]

/-- Sessions expire one after the other, and observers are told of the stream of each. -/
theorem expired (sessions : List String) (valid : before.Consistent) :
    Notes before ((sessions.map Stream.Action.closeSession).foldl Stream.Action.perform before) [] []
      (Hub.closingNotices sessions before) := by
  induction sessions generalizing before with
  | nil => exact still (List.forall_mem_nil _) fun _ _ => Iff.rfl
  | cons session rest ih =>
    have told : Notes (before.closeSession session).2 (before.closeSession session).2 [] [] [.sessionClosed session] :=
      still (aside_sessionClosed session) fun _ _ => Iff.rfl
    exact (closed_one valid session).append (told.append (ih (valid.closeSession_preserves session)))

/-- A sweep tells of the stream of every session that it ends; what it drops after that belongs to no stream. -/
theorem swept (swept : List String × SessionTable) (valid : before.Consistent) :
    Notes before ((Hub.sweptActions swept before).foldl Stream.Action.perform before) [] []
      (Hub.closingNotices swept.1 before) := by
  rw [Hub.sweptActions, List.foldl_append, ← List.append_nil (Hub.closingNotices _ _)]
  refine (expired swept.1 valid).append (still (List.forall_mem_nil _) fun connection session => ?_)
  rw [Stream.Registry.OpenFor, Stream.Registry.discardAll_eq, Stream.Registry.OpenFor]

end Notes

theorem lost_self (r : Stream.Registry) : hushes.lost r r = [] := by
  rw [List.eq_nil_iff_forall_not_mem]
  intro connection member
  obtain ⟨found, gone⟩ := mem_lost.mp member
  exact found gone

/-- What routing a request tells of streams. It opens one, or ends one in silence, or does neither. -/
theorem route_notes (now : Int) (config : Config) (r : Http.Request) (connection : Nat) (h : Hub) :
    (∃ session resume news, (Route.route now config r connection h).1.actions r connection =
        [.register connection session resume] ∧ r.method ≠ "DELETE" ∧ (∀ event ∈ news, event.Aside) ∧
      (Route.route now config r connection h).2.streams = (h.streams.register connection session resume).2 ∧
      (Route.route now config r connection h).2.events = h.events ++ (news ++ Route.openingNotices session connection
        (h.streams.register connection session resume).1.superseded)) ∨
    (∀ number session resume, .register number session resume ∉
        (Route.route now config r connection h).1.actions r connection) ∧
      ∃ news, (Route.route now config r connection h).2.events = h.events ++ news ∧
        Notes h.streams (Route.route now config r connection h).2.streams []
          (hushes h.streams (Route.route now config r connection h).2.streams (.serve now config r connection)) news := by
  have result := Route.route_result now config r connection h
  generalize Route.route now config r connection h = routed at result ⊢
  obtain ⟨routed, after⟩ := routed
  have same : ∃ news, h.events = h.events ++ news ∧ Notes h.streams h.streams []
      (hushes h.streams h.streams (.serve now config r connection)) news := by
    refine ⟨[], (List.append_nil _).symm, ?_⟩
    simp only [hushes, lost_self, ite_self]
    exact .still (List.forall_mem_nil _) fun _ _ => Iff.rfl
  cases result with
  | @opened session preamble found method finds =>
    have other : r.method ≠ "DELETE" := method ▸ by decide
    cases finds with
    | known named known => exact Or.inl ⟨session, _, [], rfl, other, List.forall_mem_nil _, rfl, rfl⟩
    | minted unnamed =>
      refine Or.inl ⟨_, _, [.sessionOpened (h.sessions.create now).1.id], rfl, other, ?_, rfl, ?_⟩
      · simp [Event.Aside, Event.opened?, Event.closed?]
      · rw [List.append_assoc]
  | @closed session response close named known method status =>
    refine Or.inr ⟨by simp [Routed.actions, method, status], [.sessionClosed session], rfl, ?_⟩
    rw [hushes, if_pos method]
    refine .silent (Notes.aside_sessionClosed session) fun number other found => found.of_subset fun stream there => ?_
    rw [h.streams.closeSession_after] at there
    exact Stream.Registry.withoutStream_subset (h.streams.setPending session []) _ _ there
  | told unqueued unclosed => exact Or.inr ⟨by simp only [Routed.actions]; split <;> simp, same⟩
  | queued => exact Or.inr ⟨by simp only [Routed.actions]; split <;> simp, same⟩
  | turnedAway => exact Or.inr ⟨by simp only [Routed.actions]; split <;> simp, same⟩
  | parked => exact Or.inr ⟨by simp [Routed.actions], same⟩

/-- Observers have been told of every stream that it was opened, and, unless it was ended in silence, that it ended. -/
structure Noticed (c : Chronicle) : Prop extends Faithful c where
  single : (c.streams.openings.map (·.connection)).Nodup
  opened : c.hub.events.filterMap Event.opened? = c.streams.openings.map fun o => (o.session, o.connection)
  once : (c.hub.events.filterMap Event.closed?).Nodup
  closed : ∀ session connection, (session, connection) ∈ c.hub.events.filterMap Event.closed? ↔
    (∃ outbox, ⟨connection, session, outbox⟩ ∈ c.streams.openings) ∧
      c.hub.streams.connections.get? connection = none ∧ connection ∉ c.hushed
  hushed : ∀ connection ∈ c.hushed, c.hub.streams.connections.get? connection = none ∧
    connection ∈ c.streams.openings.map (·.connection)

namespace Noticed
variable {c : Chronicle}

theorem initial (config : Config) (info : ServerInfo) : (start config info).Noticed :=
  ⟨.initial config info, by simp [start], rfl, by simp [start], by simp [start], by simp [start]⟩

theorem registered (noticed : c.Noticed) {connection : Nat}
    (found : c.hub.streams.connections.get? connection ≠ none) :
    connection ∈ c.streams.openings.map (·.connection) := by
  obtain ⟨stream, there⟩ := Option.ne_none_iff_exists'.mp found
  rw [← noticed.mirrored] at there
  exact List.mem_map_of_mem (noticed.recorded.opened connection stream there)

/-- The session of an open stream is the one it was opened for. -/
theorem openFor_iff (noticed : c.Noticed) {opening : Stream.Opening} (member : opening ∈ c.streams.openings)
    {session : String} : c.hub.streams.OpenFor opening.connection session ↔
      c.hub.streams.connections.get? opening.connection ≠ none ∧ opening.session = session := by
  rw [Stream.Registry.OpenFor]
  cases found : c.hub.streams.connections.get? opening.connection with
  | none => simp
  | some stream =>
    rw [← noticed.mirrored] at found
    have same : opening = ⟨opening.connection, stream.session, stream.outbox⟩ :=
      List.inj_on_of_nodup_map noticed.single member (noticed.recorded.opened _ stream found) rfl
    have session' : opening.session = stream.session := congrArg Stream.Opening.session same
    simp [session']

theorem note (noticed : c.Noticed) {after : Chronicle} (faithful : after.Faithful)
    (single : (after.streams.openings.map (·.connection)).Nodup) {news : List Event} {added : List Stream.Opening}
    {quiet : List Nat} (events : after.hub.events = c.hub.events ++ news)
    (openings : after.streams.openings = c.streams.openings ++ added) (hushed : after.hushed = c.hushed ++ quiet)
    (notes : Notes c.hub.streams after.hub.streams added quiet news) : after.Noticed := by
  have fresh : ∀ connection ∈ added.map (·.connection), connection ∉ c.streams.openings.map (·.connection) := by
    rw [openings, List.map_append, List.nodup_append] at single
    exact fun connection new old => single.2.2 connection old connection new rfl
  have still : ∀ connection ∈ c.streams.openings.map (·.connection),
      c.hub.streams.connections.get? connection = none → after.hub.streams.connections.get? connection = none := by
    intro connection old gone
    by_contra found
    obtain ⟨session, open_⟩ := Stream.Registry.openFor_of_found found
    exact (notes.kept connection session open_).elim (fun there => there.found gone) fun new => fresh connection new old
  refine ⟨faithful, single, ?_, ?_, ?_, ?_⟩
  · rw [events, openings, List.filterMap_append, List.map_append, noticed.opened, notes.opened]
  · rw [events, List.filterMap_append, List.nodup_append]
    refine ⟨noticed.once, notes.once, ?_⟩
    rintro ⟨session, connection⟩ before _ told rfl
    exact ((notes.closed session connection).mp told).1.found ((noticed.closed session connection).mp before).2.1
  · intro session connection
    rw [events, openings, hushed, List.filterMap_append, List.mem_append, noticed.closed, notes.closed, List.mem_append,
      not_or]
    constructor
    · rintro (⟨⟨outbox, member⟩, gone, loud⟩ | ⟨open_, gone, loud⟩)
      · refine ⟨⟨outbox, List.mem_append_left _ member⟩, still connection (List.mem_map_of_mem member) gone, loud, ?_⟩
        exact fun quiet => (notes.quiet connection quiet).1 gone
      · obtain ⟨opening, member, rfl⟩ := List.mem_map.mp (noticed.registered open_.found)
        obtain ⟨_, rfl⟩ := (noticed.openFor_iff member).mp open_
        refine ⟨⟨opening.outbox, List.mem_append_left _ member⟩, gone, ?_, loud⟩
        exact fun quiet => open_.found (noticed.hushed _ quiet).1
    · rintro ⟨⟨outbox, member⟩, gone, loud, unhushed⟩
      rcases List.mem_append.mp member with old | new
      · by_cases found : c.hub.streams.connections.get? connection = none
        · exact Or.inl ⟨⟨outbox, old⟩, found, loud⟩
        · exact Or.inr ⟨(noticed.openFor_iff old).mpr ⟨found, rfl⟩, gone, unhushed⟩
      · exact absurd gone (notes.there _ new)
  · intro connection member
    rw [hushed, List.mem_append] at member
    rw [openings, List.map_append, List.mem_append]
    rcases member with old | new
    · obtain ⟨gone, before⟩ := noticed.hushed connection old
      exact ⟨still connection before gone, Or.inl before⟩
    · obtain ⟨found, gone⟩ := notes.quiet connection new
      exact ⟨gone, Or.inl (noticed.registered found)⟩

private theorem unopened_preserves (noticed : c.Noticed) {deed : Deed} (fresh : c.Fresh deed)
    (unopened : ∀ connection session resume, .register connection session resume ∉ deed.actions c.hub c.desk)
    {news : List Event} (events : (c.step deed).hub.events = c.hub.events ++ news)
    (notes : Notes c.hub.streams (c.step deed).hub.streams [] (hushes c.hub.streams (c.step deed).hub.streams deed) news) :
    (c.step deed).Noticed := by
  have openings : (c.step deed).streams.openings = c.streams.openings := c.streams.openings_run unopened
  refine noticed.note (noticed.toFaithful.step_preserves deed fresh) (openings ▸ noticed.single) events ?_ rfl notes
  rw [openings, List.append_nil]

end Noticed

/-- Streams are opened under fresh connections, and the writers that end them are those of opened streams. -/
def Attended (c : Chronicle) (deed : Deed) : Prop :=
  c.Fresh deed ∧ ∀ stream ∈ deed.writer?, stream ∈ c.streams.openings

instance (c : Chronicle) (deed : Deed) : Decidable (c.Attended deed) :=
  inferInstanceAs (Decidable (_ ∧ _))

namespace Noticed
variable {c : Chronicle}

private theorem serve_preserves (noticed : c.Noticed) (now : Int) (config : Config) (r : Http.Request)
    (connection : Nat) (fresh : c.Fresh (.serve now config r connection)) :
    (c.step (.serve now config r connection)).Noticed := by
  have faithful := noticed.toFaithful.step_preserves _ fresh
  rcases route_notes now config r connection c.hub with ⟨session, resume, news, actions, method, aside, streams, events⟩ |
    ⟨unopened, news, events, notes⟩
  · have permitted : c.streams.Lawful Stream.World.Fresh [.register connection session resume] := actions ▸ fresh
    have registered : (c.step (.serve now config r connection)).streams =
        c.streams.stepRegister connection session resume := by
      rw [streams_step, Deed.actions, actions]
      rfl
    obtain ⟨sent, left, opened⟩ := c.hub.streams.register_opened connection session resume
    have unused : c.hub.streams.connections.get? connection = none := by
      by_contra found
      obtain ⟨opening, member, same⟩ := List.mem_map.mp (noticed.registered found)
      exact permitted.1 opening member same
    have notes := Notes.opening noticed.consistent unused opened aside
    rw [← streams] at notes
    refine noticed.note faithful ?_ events ?_ ?_ notes
    · rw [registered]
      exact Stream.World.single_step noticed.single permitted.1
    · rw [registered, Stream.World.stepRegister_openings, opened.outbox, noticed.mirrored]
    · rw [hushed_step, hushes, if_neg method]
  · exact noticed.unopened_preserves fresh unopened events notes

private theorem ended_preserves (noticed : c.Noticed) {stream : Stream.Opening} (own : stream ∈ c.streams.openings)
    {deed : Deed} (fresh : c.Fresh deed)
    (unopened : ∀ connection session resume, .register connection session resume ∉ deed.actions c.hub c.desk)
    (loud : hushes c.hub.streams (c.step deed).hub.streams deed = []) {removed : Option Stream.Connection}
    (found : removed.isSome = (c.hub.streams.connections.get? stream.connection).isSome)
    (events : (c.step deed).hub.events =
      c.hub.events ++ removed.toList.map fun _ => .streamClosed stream.session stream.connection)
    (connections : ∀ other, (c.step deed).hub.streams.connections.get? other =
      if other = stream.connection then none else c.hub.streams.connections.get? other) : (c.step deed).Noticed := by
  refine noticed.unopened_preserves fresh unopened events ?_
  rw [loud]
  cases removed with
  | none =>
    have absent : c.hub.streams.connections.get? stream.connection = none := by simpa using found.symm
    refine .still (List.forall_mem_nil _) fun connection session => ?_
    rw [Stream.Registry.OpenFor, connections]
    split
    next same => rw [same, Stream.Registry.OpenFor, absent]
    next => exact Iff.rfl
  | some stream' =>
    have there : c.hub.streams.connections.get? stream.connection ≠ none := by
      rw [← Option.isSome_iff_ne_none, ← found]
      rfl
    exact .removed ((noticed.openFor_iff own).mpr ⟨there, rfl⟩) connections

private theorem elsewhere (noticed : c.Noticed) {deed : Deed} (fresh : c.Fresh deed) {news : List Event}
    (unopened : ∀ connection session resume, .register connection session resume ∉ deed.actions c.hub c.desk)
    (events : (deed.perform c.hub c.desk).1.events = c.hub.events ++ news) (aside : ∀ event ∈ news, event.Aside)
    (same : (deed.perform c.hub c.desk).1.streams.connections = c.hub.streams.connections)
    (loud : hushes c.hub.streams (deed.perform c.hub c.desk).1.streams deed = []) : (c.step deed).Noticed := by
  have hub := c.hub_step deed
  refine noticed.unopened_preserves fresh unopened (hub ▸ events) ?_
  rw [hub, loud]
  exact .still aside fun connection session => by rw [Stream.Registry.OpenFor, same, Stream.Registry.OpenFor]

private theorem fail_preserves (noticed : c.Noticed) {stream : Stream.Opening} (own : stream ∈ c.streams.openings)
    {failed : Option EventStream.Frame} (fresh : c.Fresh (.fail stream failed)) :
    (c.step (.fail stream failed)).Noticed := by
  have hub := c.hub_step (.fail stream failed)
  refine noticed.ended_preserves own fresh (by simp [Deed.actions]) rfl ?_
    ((congrArg Hub.events hub).trans (congrArg Hub.events (Hub.failStream_eq ..))) ?_
  · cases found : c.hub.streams.connections.get? stream.connection with
    | none => rw [Stream.Registry.fail_absent _ _ _ found]
    | some old => rw [(Stream.Registry.fail_failed _ _ _ found).1]; rfl
  · intro other
    rw [hub, Deed.perform, Hub.failStream_eq]
    exact Stream.Registry.connections_fail ..

private theorem unregister_preserves (noticed : c.Noticed) {stream : Stream.Opening} (own : stream ∈ c.streams.openings)
    (fresh : c.Fresh (.unregister stream)) : (c.step (.unregister stream)).Noticed := by
  have hub := c.hub_step (.unregister stream)
  refine noticed.ended_preserves own fresh (by simp [Deed.actions]) rfl ?_
    ((congrArg Hub.events hub).trans (congrArg Hub.events (Hub.endStream_eq ..))) ?_
  · rw [Stream.Registry.unregister, Stream.Registry.remove_found, Option.isSome_map]
  · intro other
    rw [hub, Deed.perform, Hub.endStream_eq]
    exact Stream.Registry.connections_remove ..

private theorem sweep_preserves (noticed : c.Noticed) {now : Int} (fresh : c.Fresh (.sweep now)) :
    (c.step (.sweep now)).Noticed := by
  have swept := c.hub.sweep_swept now
  refine noticed.unopened_preserves fresh ?_ ((congrArg Hub.events (c.hub_step _)).trans swept.events) ?_
  · simp [Deed.actions, Hub.sweepActions, Hub.sweptActions]
  · have notes := Notes.swept (c.hub.sessions.sweep now c.hub.config.sessionIdle) noticed.consistent
    rw [← swept.streams] at notes
    exact notes

private theorem dispatch_preserves (noticed : c.Noticed) {registry : Tool.Registry} {now : Int}
    (fresh : c.Fresh (.dispatch registry now)) : (c.step (.dispatch registry now)).Noticed := by
  have unopened : ∀ connection session resume,
      .register connection session resume ∉ (Deed.dispatch registry now).actions c.hub c.desk := by simp [Deed.actions]
  rcases c.desk.dispatch_cases c.hub registry now with ⟨w, batch, news, _, _, _, opened, same⟩ | same
  · refine noticed.elsewhere fresh unopened (congrArg (·.1.events) same) ?_ (congrArg (·.1.streams.connections) same) rfl
    intro event member
    obtain ⟨session, rfl⟩ := opened event member
    exact ⟨rfl, rfl⟩
  · exact noticed.elsewhere fresh unopened ((congrArg (·.1.events) same).trans (List.append_nil _).symm)
      (List.forall_mem_nil _) (congrArg (·.1.streams.connections) same) rfl

private theorem deliver_preserves (noticed : c.Noticed) (fresh : c.Fresh .deliver) : (c.step .deliver).Noticed := by
  have unopened : ∀ connection session resume,
      .register connection session resume ∉ Deed.deliver.actions c.hub c.desk := by
    simp only [Deed.actions]
    split <;> simp
  have hub := c.hub_step .deliver
  rcases c.desk.deliver_cases c.hub with ⟨w, session, reply, _, same⟩ | ⟨_, same⟩
  · have after : (c.step .deliver).hub = { c.hub with streams := (c.hub.streams.deliver session reply.text).2 } :=
      hub.trans (congrArg Prod.fst same)
    refine noticed.unopened_preserves fresh unopened
      ((congrArg Hub.events after).trans (List.append_nil _).symm) (.silent (List.forall_mem_nil _) ?_)
    rw [after]
    exact fun _ _ found => c.hub.streams.openFor_deliver found
  · have after : (c.step .deliver).hub = c.hub := hub.trans (congrArg Prod.fst same)
    refine noticed.unopened_preserves fresh unopened
      ((congrArg Hub.events after).trans (List.append_nil _).symm) (.silent (List.forall_mem_nil _) ?_)
    rw [after]
    exact fun _ _ found => found

theorem step_preserves (noticed : c.Noticed) (deed : Deed) (attended : c.Attended deed) : (c.step deed).Noticed := by
  obtain ⟨fresh, own⟩ := attended
  cases deed with
  | serve now config r connection => exact noticed.serve_preserves now config r connection fresh
  | fail stream failed => exact noticed.fail_preserves (own stream rfl) fresh
  | unregister stream => exact noticed.unregister_preserves (own stream rfl) fresh
  | sweep now => exact noticed.sweep_preserves fresh
  | dispatch registry now => exact noticed.dispatch_preserves fresh
  | deliver => exact noticed.deliver_preserves fresh
  | check =>
    rcases c.desk.check_cases c.hub with ⟨_, _, _, _, _, _, same⟩ | ⟨_, _, _, same⟩ | same <;>
      exact noticed.elsewhere fresh (by simp [Deed.actions]) ((congrArg (·.1.events) same).trans (List.append_nil _).symm)
        (List.forall_mem_nil _) (congrArg (·.1.streams.connections) same) rfl
  | refuse =>
    obtain ⟨slots, refused⟩ := Hub.refuseAll_eq c.hub.queue.items { c.hub with queue := c.hub.queue.close.2 }
    exact noticed.elsewhere fresh (by simp [Deed.actions]) ((congrArg Hub.events refused).trans (List.append_nil _).symm)
      (List.forall_mem_nil _) (congrArg (·.streams.connections) refused) rfl
  | closeAll =>
    refine noticed.unopened_preserves fresh (by simp [Deed.actions]) (List.append_nil _).symm
      (.silent (List.forall_mem_nil _) ?_)
    intro connection session found
    cases found
  | reopen _ | halt =>
    exact noticed.elsewhere fresh (by simp [Deed.actions]) rfl (by simp [Event.Aside, Event.opened?, Event.closed?]) rfl rfl
  | receive _ | touch _ _ | take | configure _ | collect _ =>
    exact noticed.elsewhere fresh (by simp [Deed.actions]) (List.append_nil _).symm (List.forall_mem_nil _) rfl rfl

theorem count_opened (noticed : c.Noticed) {opening : Stream.Opening} (member : opening ∈ c.streams.openings) :
    c.hub.events.count (.streamOpened opening.session opening.connection) = 1 := by
  rw [Event.count_eq fun _ => Event.opened?_eq_some, noticed.opened]
  refine List.count_eq_one_of_mem (List.Nodup.of_map Prod.snd ?_) (List.mem_map_of_mem member)
  rw [List.map_map]
  exact noticed.single

theorem mem_closed (noticed : c.Noticed) {session : String} {connection : Nat} :
    .streamClosed session connection ∈ c.hub.events ↔
      (∃ outbox, ⟨connection, session, outbox⟩ ∈ c.streams.openings) ∧
        c.hub.streams.connections.get? connection = none ∧ connection ∉ c.hushed := by
  rw [← noticed.closed, List.mem_filterMap]
  exact ⟨fun told => ⟨_, told, rfl⟩, fun ⟨event, told, same⟩ => Event.closed?_eq_some.mp same ▸ told⟩

theorem mem_opened (noticed : c.Noticed) {session : String} {connection : Nat} :
    .streamOpened session connection ∈ c.hub.events ↔
      ∃ outbox, ⟨connection, session, outbox⟩ ∈ c.streams.openings := by
  have read : .streamOpened session connection ∈ c.hub.events ↔
      (session, connection) ∈ c.hub.events.filterMap Event.opened? := by
    rw [List.mem_filterMap]
    exact ⟨fun told => ⟨_, told, rfl⟩, fun ⟨event, told, same⟩ => Event.opened?_eq_some.mp same ▸ told⟩
  rw [read, noticed.opened, List.mem_map]
  constructor
  · rintro ⟨⟨_, _, outbox⟩, member, same⟩
    cases same
    exact ⟨outbox, member⟩
  · rintro ⟨outbox, member⟩
    exact ⟨_, member, rfl⟩

end Noticed

/-- Observers hear of every stream that it was opened, once. That it ended they hear once, after it has left the
registry, unless a deletion, a delivery or a stop ended it: of those they never hear. So the streams whose end is
missing are the registered ones and those. -/
theorem stream_events_balance (config : Config) (info : ServerInfo) (deeds : List Deed)
    (lawful : Lawful Attended (start config info) deeds) :
    (∀ opening ∈ ((start config info).run deeds).streams.openings,
      ((start config info).run deeds).hub.events.count (.streamOpened opening.session opening.connection) = 1 ∧
      ((start config info).run deeds).hub.events.count (.streamClosed opening.session opening.connection) =
        if ((start config info).run deeds).hub.streams.OpenFor opening.connection opening.session ∨
          opening.connection ∈ ((start config info).run deeds).hushed then 0 else 1) ∧
    ∀ session connection, (.streamOpened session connection ∈ ((start config info).run deeds).hub.events ∧
        .streamClosed session connection ∉ ((start config info).run deeds).hub.events) ↔
      ((start config info).run deeds).hub.streams.OpenFor connection session ∨
        ∃ outbox, ⟨connection, session, outbox⟩ ∈ ((start config info).run deeds).streams.openings ∧
          connection ∈ ((start config info).run deeds).hushed := by
  have noticed : ((start config info).run deeds).Noticed :=
    run_preserves (fun _ deed held attended => held.step_preserves deed attended) (.initial config info) lawful
  generalize (start config info).run deeds = c at noticed ⊢
  constructor
  · intro opening member
    refine ⟨noticed.count_opened member, ?_⟩
    have told : .streamClosed opening.session opening.connection ∈ c.hub.events ↔
        ¬ (c.hub.streams.OpenFor opening.connection opening.session ∨ opening.connection ∈ c.hushed) := by
      rw [noticed.mem_closed, noticed.openFor_iff member, not_or]
      simp only [and_true, not_not]
      exact ⟨fun ⟨_, ended⟩ => ended, fun ended => ⟨⟨opening.outbox, member⟩, ended⟩⟩
    split
    next untold => exact List.count_eq_zero_of_not_mem fun closed => told.mp closed untold
    next untold =>
      have closed := told.mpr untold
      rw [Event.count_eq fun _ => Event.closed?_eq_some]
      exact List.count_eq_one_of_mem noticed.once (List.mem_filterMap.mpr ⟨_, closed, rfl⟩)
  · intro session connection
    rw [noticed.mem_opened, noticed.mem_closed]
    constructor
    · rintro ⟨⟨outbox, member⟩, untold⟩
      by_cases hushed : connection ∈ c.hushed
      · exact Or.inr ⟨outbox, member, hushed⟩
      · refine Or.inl ((noticed.openFor_iff member).mpr ⟨?_, rfl⟩)
        exact fun gone => untold ⟨⟨outbox, member⟩, gone, hushed⟩
    · rintro (open_ | ⟨outbox, member, hushed⟩)
      · obtain ⟨opening, member, rfl⟩ := List.mem_map.mp (noticed.registered open_.found)
        obtain ⟨found, rfl⟩ := (noticed.openFor_iff member).mp open_
        exact ⟨⟨opening.outbox, member⟩, fun ended => found ended.2.1⟩
      · exact ⟨⟨outbox, member⟩, fun ended => ended.2.2 hushed⟩

private def follow (session : List (String × String)) : Http.Request :=
  { method := "GET", path := "/", version := "HTTP/1.1", headers := ("accept", "text/event-stream") :: session }

private def leave (session : String) : Http.Request :=
  { method := "DELETE", path := "/", version := "HTTP/1.1", headers := [("mcp-session-id", session)] }

private def own : String := "00000000000000000000000000000001"

/-- A stream is superseded, the next one fails, and the last one goes with its session. -/
private def replaced : List Deed :=
  [.serve 0 {} (follow []) 1, .serve 1 {} (follow [("mcp-session-id", own)]) 2, .unregister ⟨1, own, 1⟩,
    .fail ⟨2, own, 2⟩ none, .serve 2 {} (follow [("mcp-session-id", own)]) 3, .serve 3 {} (leave own) 4,
    .unregister ⟨3, own, 3⟩]

theorem stream_events_balance_deleted : Lawful Attended (start {} {}) replaced ∧
    ((start {} {}).run replaced).hub.events.count (.streamClosed own 1) = 1 ∧
    ((start {} {}).run replaced).hub.events.count (.streamClosed own 2) = 1 ∧
    ((start {} {}).run replaced).hub.events.count (.streamClosed own 3) = 0 := by
  have lawful : Lawful Attended (start {} {}) replaced := by decide +kernel
  have balance := (stream_events_balance {} {} replaced lawful).1
  refine ⟨lawful, (balance ⟨1, own, 1⟩ ?_).2.trans ?_, (balance ⟨2, own, 2⟩ ?_).2.trans ?_,
    (balance ⟨3, own, 3⟩ ?_).2.trans ?_⟩ <;> decide +kernel

end Chronicle

end Server

end ToolBridge

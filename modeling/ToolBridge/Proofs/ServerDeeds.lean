import ToolBridge.Proofs.ServerRuns
import ToolBridge.Proofs.StreamHousing
import ToolBridge.Proofs.StreamNotices

/-! Whatever a server does is a run of deeds. A connection has a number of its own and turns into a stream once at most,
so these are runs in which streams are opened under fresh connections, and are ended by their own writers with at most
the frame that those took last. What holds after every such run holds of the hub of every server. -/

namespace ToolBridge

namespace Stream

/-- What is neither an opening nor a failure is permitted anywhere. -/
def Action.Plain : Action → Prop
  | .register _ _ _ | .fail _ _ _ => False
  | _ => True

theorem World.lawful_plain (w : World) {actions : List Action} (plain : ∀ action ∈ actions, action.Plain) :
    w.Lawful (fun w action => w.Fresh action ∧ w.Given action) actions := by
  induction actions generalizing w with
  | nil => trivial
  | cons action rest ih =>
    obtain ⟨first, later⟩ := List.forall_mem_cons.mp plain
    refine ⟨?_, ih (w.step action) later⟩
    cases action with
    | register _ _ _ | fail _ _ _ => exact first.elim
    | _ => exact ⟨trivial, trivial⟩

/-- The frame that a writer finds is the last that it has taken. -/
theorem World.getLast?_receive {w : World} {outbox : Nat} {frame : EventStream.Frame} {outboxes : Outboxes}
    (received : w.registry.outboxes.receive outbox = (.frame frame, outboxes)) :
    ((w.step (.receive outbox)).taken outbox).getLast? = some frame := by
  simp [step, stepReceive, received]

end Stream

namespace Server

/-- A connection with a stream is the writer of one that was opened under its number, and under the number of any other
connection none was. -/
def Phase.Writes (openings : List Stream.Opening) (id : Nat) : Phase → Prop
  | .streaming session outbox => ⟨id, session, outbox⟩ ∈ openings
  | _ => ∀ opening ∈ openings, opening.connection ≠ id

/-- The deed opens no stream and ends none as its writer. -/
def Deed.Plain (deed : Deed) : Prop :=
  deed.writer? = none ∧ ∀ (h : Hub) (d : Desk), ∀ action ∈ deed.actions h d, action.Plain

theorem Deed.Executes.plain {deed : Deed} (executes : deed.Executes) : deed.Plain := by
  refine ⟨?_, fun h d action member => ?_⟩
  · cases deed <;> first | rfl | exact executes.elim
  · rcases actions_executes executes h d with none_ | ⟨session, data, one⟩
    · rw [none_] at member
      cases member
    · rw [one] at member
      rw [List.mem_singleton.mp member]
      trivial

theorem Deed.plain_sweep (now : Int) : (Deed.sweep now).Plain := by
  refine ⟨rfl, fun h _ action member => ?_⟩
  rcases List.mem_append.mp member with closing | drop
  · obtain ⟨_, _, rfl⟩ := List.mem_map.mp closing
    trivial
  · obtain ⟨_, _, rfl⟩ := List.mem_map.mp drop
    trivial

namespace Chronicle

/-- Streams are opened under fresh connections, and ended by their own writers. -/
def Proper (c : Chronicle) (deed : Deed) : Prop :=
  c.Does (fun w action => w.Fresh action ∧ w.Given action) deed ∧ ∀ stream ∈ deed.writer?, stream ∈ c.streams.openings

theorem Proper.attended {c : Chronicle} {deed : Deed} (proper : c.Proper deed) : c.Attended deed := by
  refine ⟨?_, proper.2⟩
  have does := proper.1
  unfold Fresh
  unfold Does at does ⊢
  generalize deed.actions c.hub c.desk = actions at does ⊢
  generalize c.streams = w at does ⊢
  induction actions generalizing w with
  | nil => trivial
  | cons action rest ih => exact ⟨does.1.1, ih (w.step action) does.2⟩

/-- Proper deeds lead from one chronicle to the other. -/
def Leads (before after : Chronicle) : Prop := ∃ deeds, Lawful Proper before deeds ∧ before.run deeds = after

variable {c : Chronicle}

namespace Leads

theorem refl (c : Chronicle) : c.Leads c := ⟨[], trivial, rfl⟩

theorem one {deed : Deed} (proper : c.Proper deed) : c.Leads (c.step deed) := ⟨[deed], ⟨proper, trivial⟩, rfl⟩

theorem trans {middle after : Chronicle} (first : c.Leads middle) (second : middle.Leads after) : c.Leads after := by
  obtain ⟨deeds, lawful, rfl⟩ := first
  obtain ⟨more, later, rfl⟩ := second
  exact ⟨deeds ++ more, lawful.append later, run_append ..⟩

theorem mirrored {after : Chronicle} (leads : c.Leads after) (mirrored : c.streams.registry = c.hub.streams) :
    after.streams.registry = after.hub.streams := by
  obtain ⟨deeds, _, rfl⟩ := leads
  exact List.foldlRecOn deeds step (motive := fun after => after.streams.registry = after.hub.streams) mirrored
    fun _ same deed _ => step_mirrored same deed

end Leads

/-! ## Single deeds -/

theorem proper_plain {deed : Deed} (unwritten : deed.writer? = none)
    (plain : ∀ action ∈ deed.actions c.hub c.desk, action.Plain) : c.Proper deed :=
  ⟨c.streams.lawful_plain plain, by simp [unwritten]⟩

theorem proper_fail {stream : Stream.Opening} {failed : Option EventStream.Frame} (member : stream ∈ c.streams.openings)
    (last : failed = none ∨ failed = (c.streams.taken stream.outbox).getLast?) : c.Proper (.fail stream failed) := by
  refine ⟨⟨⟨trivial, ⟨stream, member, rfl, rfl⟩, last⟩, trivial⟩, ?_⟩
  rintro _ ⟨⟩
  exact member

theorem proper_unregister {stream : Stream.Opening} (member : stream ∈ c.streams.openings) :
    c.Proper (.unregister stream) := by
  refine ⟨⟨⟨trivial, trivial⟩, trivial⟩, ?_⟩
  rintro _ ⟨⟩
  exact member

theorem openings_plain {deed : Deed} (plain : ∀ action ∈ deed.actions c.hub c.desk, action.Plain) :
    (c.step deed).streams.openings = c.streams.openings :=
  c.streams.openings_run fun _ _ _ member => plain _ member

/-! ## What a connection does -/

/-- An action of a connection, as deeds. Streams are opened under its number alone. -/
structure Follows (id : Nat) (step : Step) (before after : Chronicle) : Prop where
  leads : before.Leads after
  hub : after.hub = step.hub
  desk : after.desk = before.desk
  kept : before.streams.openings ⊆ after.streams.openings
  own : ∀ opening ∈ after.streams.openings, opening ∈ before.streams.openings ∨ opening.connection = id
  writes : step.connection.isOpen = true → step.connection.phase.Writes after.streams.openings id

/-- Where no stream is opened, a connection that stays open without one has none, and one with a stream had it. -/
theorem Follows.still {id : Nat} {step : Step} {after : Chronicle} (leads : c.Leads after) (hub : after.hub = step.hub)
    (desk : after.desk = c.desk) (openings : after.streams.openings = c.streams.openings)
    (writes : step.connection.isOpen = true → step.connection.phase.Writes c.streams.openings id) :
    c.Follows id step after where
  leads := leads
  hub := hub
  desk := desk
  kept := openings ▸ List.Subset.refl _
  own := fun _ member => Or.inl (openings ▸ member)
  writes := openings ▸ writes

section
variable {now : Int} {id : Nat} {d : Connection} {step : Step}

private theorem closed_writes {openings : List Stream.Opening} (closed : d.phase = .closed) (open_ : d.isOpen = true) :
    d.phase.Writes openings id := by
  simp [Connection.isOpen, closed] at open_

private theorem respond_writes {openings : List Stream.Opening} (unopened : ∀ opening ∈ openings, opening.connection ≠ id)
    (response : Http.Response) (close : Bool) (d : Connection) (h : Hub)
    (open_ : (d.respond response close h).connection.isOpen = true) :
    (d.respond response close h).connection.phase.Writes openings id := by
  rcases d.phase_respond response close h with closed | reading
  · exact closed_writes closed open_
  · rw [reading]
    exact unopened

theorem serve_follows (mirrored : c.streams.registry = c.hub.streams)
    (unopened : ∀ opening ∈ c.streams.openings, opening.connection ≠ id) (config : Config) (r : Http.Request) :
    ∃ after, c.Follows id (d.serve now id config r c.hub) after := by
  let served := c.step (.serve now config r id)
  have result := Route.route_result now config r id c.hub
  have hub : served.hub = (Route.route now config r id c.hub).2 := rfl
  have actions : Deed.actions c.hub c.desk (.serve now config r id) =
    (Route.route now config r id c.hub).1.actions r id := rfl
  unfold Connection.serve
  generalize Route.route now config r id c.hub = routed at result hub actions ⊢
  obtain ⟨routed, after⟩ := routed
  cases routed with
  | respond response close =>
    have plain : ∀ action ∈ Deed.actions c.hub c.desk (.serve now config r id), action.Plain := by
      intro action member
      rw [actions, Routed.actions] at member
      split at member
      · obtain ⟨_, _, rfl⟩ := List.mem_map.mp member
        trivial
      · cases member
    exact ⟨served, .still (.one (proper_plain rfl plain)) (hub.trans (Connection.hub_respond ..).symm) rfl
      (openings_plain plain) (respond_writes unopened response (close || !r.keepsAlive) d after)⟩
  | park ticket headers =>
    have plain : ∀ action ∈ Deed.actions c.hub c.desk (.serve now config r id), action.Plain := by
      rw [actions]
      exact List.forall_mem_nil _
    exact ⟨served, .still (.one (proper_plain rfl plain)) hub rfl (openings_plain plain) fun _ => unopened⟩
  | stream session outbox preamble =>
    have proper : c.Proper (.serve now config r id) := by
      refine ⟨?_, fun _ member => by cases member⟩
      rw [Does, actions]
      exact ⟨⟨unopened, trivial⟩, trivial⟩
    have openings : served.streams.openings = c.streams.openings ++ [⟨id, session, outbox⟩] := by
      rw [streams_step, actions]
      cases result with
      | opened method finds =>
        cases finds <;> simp only [Routed.actions, Stream.World.run, List.foldl, Stream.World.step,
          Stream.World.stepRegister, mirrored]
    have own : ∀ opening ∈ served.streams.openings, opening ∈ c.streams.openings ∨ opening.connection = id := by
      intro opening member
      rw [openings] at member
      exact (List.mem_append.mp member).imp_right fun new => by rw [List.mem_singleton.mp new]
    have kept : c.streams.openings ⊆ served.streams.openings := openings ▸ List.subset_append_left ..
    have opened : ⟨id, session, outbox⟩ ∈ served.streams.openings := by simp [openings]
    dsimp only
    split
    · exact ⟨served, .one proper, hub, rfl, kept, own, fun _ => opened⟩
    · have failed : served.Proper (.fail ⟨id, session, outbox⟩ none) := proper_fail opened (Or.inl rfl)
      refine ⟨_, (Leads.one proper).trans (.one failed), ?_, rfl, kept, own, closed_writes rfl⟩
      rw [hub_step, hub]
      rfl

private theorem respond_follows (unopened : ∀ opening ∈ c.streams.openings, opening.connection ≠ id)
    (slots : Queue.Slots) (response : Http.Response) (close : Bool) (d : Connection) :
    c.Follows id (d.respond response close { c.hub with slots }) (c.step (.collect slots)) :=
  .still (.one (proper_plain rfl (List.forall_mem_nil _))) (Connection.hub_respond ..).symm rfl rfl
    (respond_writes unopened response close d _)

theorem streaming_follows (mirrored : c.streams.registry = c.hub.streams) {session : String} {outbox : Nat}
    (phase : d.phase = .streaming session outbox) (opened : ⟨id, session, outbox⟩ ∈ c.streams.openings)
    (streams : d.Streams now id session outbox c.hub step) : ∃ after, c.Follows id step after := by
  have receives : c.Proper (.receive outbox) := proper_plain rfl (List.forall_mem_singleton.mpr trivial)
  have stays : ∀ e : Connection, e.phase = d.phase → e.phase.Writes c.streams.openings id := by
    intro e same
    rw [same, phase]
    exact opened
  cases streams with
  | writes received written =>
    have touches : (c.step (.receive outbox)).Proper (.touch now session) := proper_plain rfl (List.forall_mem_nil _)
    refine ⟨_, .still ((Leads.one receives).trans (.one touches)) ?_ rfl rfl fun _ => stays _ (d.phase_write _)⟩
    simp only [hub_step, Deed.perform, Stream.Action.perform, received]
  | @fails frame outboxes received unwritten =>
    have last := Stream.World.getLast?_receive (mirrored ▸ received)
    have fails : (c.step (.receive outbox)).Proper (.fail ⟨id, session, outbox⟩ (some frame)) :=
      proper_fail opened (Or.inr last.symm)
    refine ⟨_, .still ((Leads.one receives).trans (.one fails)) ?_ rfl rfl (closed_writes rfl)⟩
    simp only [hub_step, Deed.perform, Stream.Action.perform, received]
  | ends received =>
    exact ⟨_, .still (.one (proper_unregister opened)) rfl rfl rfl (closed_writes rfl)⟩
  | gives received absent =>
    exact ⟨_, .still (.one (proper_fail opened (Or.inl rfl))) rfl rfl rfl (closed_writes rfl)⟩
  | drops received present arrived =>
    exact ⟨c, .still (.refl c) rfl rfl rfl fun _ => stays _ rfl⟩

theorem lapse_follows (writes : d.phase.Writes c.streams.openings id) {timer : Timer}
    (lapses : d.Lapses now id c.hub timer step) : ∃ after, c.Follows id step after := by
  cases lapses with
  | leaves phase idle => exact ⟨c, .still (.refl c) rfl rfl rfl (closed_writes rfl)⟩
  | excuses phase polled =>
    rw [phase] at writes
    exact ⟨_, respond_follows writes ..⟩
  | @comments session outbox phase written =>
    have touches : c.Proper (.touch now session) := proper_plain rfl (List.forall_mem_nil _)
    refine ⟨_, .still (.one touches) rfl rfl rfl fun _ => ?_⟩
    rw [Connection.phase_write]
    exact writes
  | @fails session outbox phase unwritten =>
    have opened : ⟨id, session, outbox⟩ ∈ c.streams.openings := by rwa [phase] at writes
    exact ⟨_, .still (.one (proper_fail opened (Or.inl rfl))) rfl rfl rfl (closed_writes rfl)⟩

theorem moves_follow (mirrored : c.streams.registry = c.hub.streams) (writes : d.phase.Writes c.streams.openings id)
    (moves : d.Moves now id c.hub step) : ∃ after, c.Follows id step after := by
  cases moves with
  | acts taken =>
    rcases Connection.step?_cases taken with ⟨config, phase, taken⟩ | ⟨ticket, keepAlive, headers, phase, taken⟩ |
      ⟨session, outbox, phase, taken⟩ <;> rw [phase] at writes
    · rcases Connection.stepReading_cases taken with ⟨r, rest, _, rfl⟩ | ⟨_, closed, same⟩
      · exact serve_follows mirrored writes config r
      · exact ⟨c, .still (.refl c) same.symm rfl rfl (closed_writes closed)⟩
    · obtain ⟨slot, slots, _, _, rfl⟩ := Connection.stepParked_cases taken
      exact ⟨_, respond_follows writes ..⟩
    · exact streaming_follows mirrored phase writes (Connection.stepStreaming_cases taken)
  | lapses lapsed => exact lapse_follows writes (Connection.lapse?_cases lapsed)

end

/-! ## What a server does -/

/-- The chronicle tells of the server. Its executor has nothing before it, as a tick is one move of a server. -/
structure Tells (c : Chronicle) (s : Server) : Prop where
  mirrored : c.streams.registry = c.hub.streams
  hub : c.hub = s.hub
  free : c.desk.Free
  below : ∀ opening ∈ c.streams.openings, opening.connection < s.nextConnection
  writes : ∀ id d, s.connections.get? id = some d → d.phase.Writes c.streams.openings id

theorem leads_plain {deeds : List Deed} (plain : ∀ deed ∈ deeds, deed.Plain) :
    c.Leads (c.run deeds) ∧ (c.run deeds).streams.openings = c.streams.openings := by
  refine List.foldlRecOn deeds step (motive := fun after => c.Leads after ∧
    after.streams.openings = c.streams.openings) ⟨.refl c, rfl⟩ ?_
  rintro after ⟨leads, openings⟩ deed member
  obtain ⟨unwritten, acts⟩ := plain deed member
  have here := acts after.hub after.desk
  exact ⟨leads.trans (.one (proper_plain unwritten here)), (openings_plain here).trans openings⟩

theorem finishAll_leads {connections : List (Nat × Connection)}
    (writes : ∀ entry ∈ connections, entry.2.phase.Writes c.streams.openings entry.1) : ∃ after, c.Leads after ∧
      after.hub = (finishAll connections c.hub).2 ∧ after.desk = c.desk ∧
      after.streams.openings = c.streams.openings := by
  induction connections generalizing c with
  | nil => exact ⟨c, .refl c, rfl, rfl, rfl⟩
  | cons entry rest ih =>
    obtain ⟨id, d⟩ := entry
    obtain ⟨own, others⟩ := List.forall_mem_cons.mp writes
    have collects : ∀ slots, c.Proper (.collect slots) := fun _ => proper_plain rfl (List.forall_mem_nil _)
    obtain ⟨middle, leads, hub, desk, openings⟩ : ∃ middle, c.Leads middle ∧ middle.hub = (d.finish id c.hub).hub ∧
        middle.desk = c.desk ∧ middle.streams.openings = c.streams.openings := by
      unfold Connection.finish
      split
      · exact ⟨c, .refl c, rfl, rfl, rfl⟩
      · exact ⟨c, .refl c, rfl, rfl, rfl⟩
      · exact ⟨_, .one (collects _), (Connection.hub_answered ..).symm, rfl, rfl⟩
      next session outbox phase =>
        have opened : ⟨id, session, outbox⟩ ∈ c.streams.openings := by rwa [phase] at own
        exact ⟨_, .one (proper_unregister opened), rfl, rfl, rfl⟩
    obtain ⟨after, more, finished, idle, same⟩ := ih (openings ▸ others)
    refine ⟨after, leads.trans more, ?_, idle.trans desk, same.trans openings⟩
    rw [finished, hub]
    rfl

namespace Tells
variable {s : Server}

theorem initial (config : Config) (info : ServerInfo) : (start config info).Tells (ofConfig config info) where
  mirrored := rfl
  hub := rfl
  free := ⟨rfl, rfl⟩
  below := List.forall_mem_nil _
  writes := nofun

/-- What opens no stream and takes none from its connection may change the rest of the server. -/
theorem change (tells : c.Tells s) {after : Chronicle} {t : Server} (leads : c.Leads after)
    (openings : after.streams.openings = c.streams.openings) (free : after.desk.Free) (hub : after.hub = t.hub)
    (next : s.nextConnection ≤ t.nextConnection)
    (connections : ∀ id d, t.connections.get? id = some d → ∃ e, s.connections.get? id = some e ∧ d.phase = e.phase) :
    after.Tells t where
  mirrored := leads.mirrored tells.mirrored
  hub := hub
  free := free
  below := fun opening member => Nat.lt_of_lt_of_le (tells.below opening (openings ▸ member)) next
  writes := by
    intro id d found
    obtain ⟨e, before, same⟩ := connections id d found
    rw [same, openings]
    exact tells.writes id e before

private theorem unchanged (tells : c.Tells s) {t : Server} (hub : t.hub = s.hub)
    (next : s.nextConnection ≤ t.nextConnection)
    (connections : ∀ id d, t.connections.get? id = some d → ∃ e, s.connections.get? id = some e ∧ d.phase = e.phase) :
    c.Tells t :=
  tells.change (.refl c) rfl tells.free (tells.hub.trans hub.symm) next connections

theorem apply (tells : c.Tells s) (numbered : s.Numbered) {id : Nat} {d : Connection} {step : Step} {after : Chronicle}
    (found : s.connections.get? id = some d) (follows : c.Follows id step after) : after.Tells (s.apply id step) where
  mirrored := follows.leads.mirrored tells.mirrored
  hub := follows.hub
  free := follows.desk ▸ tells.free
  below := by
    intro opening member
    rcases follows.own opening member with old | same
    · exact tells.below opening old
    · rw [same]
      exact numbered.below id (Entries.mem_keys found)
  writes := by
    intro other e there
    rw [get?_apply] at there
    split at there
    next same =>
      subst same
      unfold Step.current at there
      split at there
      next open_ =>
        cases there
        exact follows.writes open_
      next => cases there
    next apart =>
      have before := tells.writes other e there
      unfold Phase.Writes at before ⊢
      split at before
      · exact follows.kept before
      · intro opening member same
        rcases follows.own opening member with old | own
        · exact before opening old same
        · exact apart (own.symm.trans same)

private theorem modify (tells : c.Tells s) (id : Nat) {change : Connection → Option Connection}
    (kept : ∀ d e, change d = some e → e.phase = d.phase) : c.Tells (s.modify id change) := by
  refine tells.unchanged (hub_modify ..) ?_ ?_
  · unfold Server.modify
    split <;> exact Nat.le_refl _
  · intro other e found
    rw [get?_modify] at found
    split at found
    next same =>
      obtain ⟨d, before, rfl⟩ := Option.map_eq_some_iff.mp found
      refine ⟨d, before, ?_⟩
      cases changed : change d with
      | none => rfl
      | some e => exact kept d e changed
    next => exact ⟨e, found, rfl⟩

private theorem connect (tells : c.Tells s) {t : Server} (hub : t.hub = s.hub)
    (next : t.nextConnection = s.nextConnection + 1)
    (connections : t.connections = s.connections.put s.nextConnection { phase := .reading s.hub.config }) :
    c.Tells t where
  mirrored := tells.mirrored
  hub := tells.hub.trans hub.symm
  free := tells.free
  below := fun opening member => next ▸ Nat.lt_succ_of_lt (tells.below opening member)
  writes := by
    intro id d found
    rw [connections, Entries.get?_put] at found
    split at found
    next own =>
      cases found
      exact fun opening member => own ▸ Nat.ne_of_lt (tells.below opening member)
    next => exact tells.writes id d found

/-- The connections and the executor stay as they are. -/
private theorem plainly (tells : c.Tells s) (deed : Deed) (plain : deed.Plain) (listener : Option Net.Endpoint) {hub : Hub}
    (performed : deed.perform s.hub c.desk = (hub, c.desk)) :
    c.Leads (c.step deed) ∧ (c.step deed).Tells { s with hub, listener } := by
  have unopened := plain.2 c.hub c.desk
  have leads : c.Leads (c.step deed) := .one (proper_plain plain.1 unopened)
  rw [← tells.hub] at performed
  refine ⟨leads, tells.change leads (openings_plain unopened) ?_ ?_ (Nat.le_refl _) fun _ d found => ⟨d, found, rfl⟩⟩
  · rw [desk_step, performed]
    exact tells.free
  · rw [hub_step, performed]

private theorem sweeps (tells : c.Tells s) (now : Int) (listener : Option Net.Endpoint) {hub : Hub}
    (swept : hub = s.hub.sweep now) :
    c.Leads (c.step (.sweep now)) ∧ (c.step (.sweep now)).Tells { s with hub, listener } :=
  tells.plainly (.sweep now) (Deed.plain_sweep now) listener (by rw [swept, Deed.perform])

/-- A stop is one deed for all that is queued, one for all streams, and one for each connection. -/
private theorem stop (tells : c.Tells s) (numbered : s.Numbered) : ∃ after, c.Leads after ∧ after.Tells s.stop.2 := by
  unfold Server.stop
  split
  · obtain ⟨refused, first⟩ := tells.plainly .refuse ⟨rfl, fun _ _ => List.forall_mem_nil _⟩ s.listener rfl
    obtain ⟨closed, second⟩ := first.plainly .closeAll ⟨rfl, fun _ _ => List.forall_mem_singleton.mpr trivial⟩
      s.listener rfl
    obtain ⟨after, ended, hub, desk, openings⟩ := finishAll_leads fun entry member =>
      second.writes entry.1 entry.2 (Entries.get?_of_mem numbered.distinct member)
    have finished : after.Tells { s with hub := (finishAll s.connections s.hub.shutDown).2, connections := [] } := by
      refine second.change ended openings (desk ▸ second.free) ?_ (Nat.le_refl _) nofun
      rw [hub, second.hub]
      rfl
    obtain ⟨halted, last⟩ := finished.plainly .halt ⟨rfl, fun _ _ => List.forall_mem_nil _⟩ none rfl
    exact ⟨_, refused.trans (closed.trans (ended.trans halted)), last⟩
  · exact ⟨c, .refl c, tells⟩

/-- Whatever a server does next is done by proper deeds. -/
theorem perform (tells : c.Tells s) (numbered : s.Numbered) (move : Move) :
    ∃ after, c.Leads after ∧ after.Tells (s.perform move) := by
  have same : ∀ id d, s.connections.get? id = some d → ∃ e, s.connections.get? id = some e ∧ d.phase = e.phase :=
    fun id d found => ⟨d, found, rfl⟩
  have owned := s.owned_cases move
  cases move with
  | connect =>
    simp only [Server.perform, Server.connect]
    split
    · exact ⟨c, .refl c, tells.connect rfl rfl rfl⟩
    · exact ⟨c, .refl c, tells⟩
  | arrive id data => exact ⟨c, .refl c, tells.modify id fun _ _ => Connection.phase_hear⟩
  | leave id peer =>
    refine ⟨c, .refl c, tells.modify id ?_⟩
    rintro d _ ⟨⟩
    rfl
  | act | lapse =>
    rcases owned trivial with idle | ⟨now, id, d, step, found, moves, took⟩
    · rw [idle]
      exact ⟨c, .refl c, tells⟩
    · rw [← tells.hub] at moves
      obtain ⟨after, follows⟩ := moves_follow tells.mirrored (tells.writes id d found) moves
      rw [took]
      exact ⟨after, follows.leads, tells.apply numbered found follows⟩
  | tick now =>
    simp only [Server.perform]
    split
    next tools _ =>
      let registry := tools.registry (.ofNanos now)
      have plain : ∀ deed ∈ Deed.ticking registry now c.hub, deed.Plain :=
        fun deed member => (Deed.executes_ticking deed member).plain
      obtain ⟨leads, openings⟩ := leads_plain plain
      obtain ⟨more, hub, desk, _⟩ := c.run_ticking registry now tells.free
      have free : (c.run (Deed.ticking registry now c.hub)).desk.Free :=
        ⟨congrArg Desk.batch desk, congrArg Desk.stage desk⟩
      exact ⟨_, leads, tells.change leads openings free (by rw [hub, tells.hub]) (Nat.le_refl _) same⟩
    · exact ⟨c, .refl c, tells⟩
  | sweep now => exact ⟨_, tells.sweeps now s.listener rfl⟩
  | attach tools =>
    simp only [Server.perform, attach]
    split
    · exact ⟨c, .refl c, tells⟩
    · exact ⟨c, .refl c, tells.unchanged rfl (Nat.le_refl _) same⟩
  | detach => exact ⟨c, .refl c, tells.unchanged rfl (Nat.le_refl _) same⟩
  | setApiKey key =>
    let config := { s.hub.config with apiKey := key }
    exact ⟨_, tells.plainly (.configure config) ⟨rfl, fun _ _ => List.forall_mem_nil _⟩ s.listener rfl⟩
  | setAllowedOrigins origins =>
    let config := { s.hub.config with allowedOrigins := origins }
    exact ⟨_, tells.plainly (.configure config) ⟨rfl, fun _ _ => List.forall_mem_nil _⟩ s.listener rfl⟩
  | start bind now =>
    simp only [Server.perform]
    rcases s.start_cases bind now with idle | ⟨_, endpoint, hub, swept, started⟩
    · rw [idle]
      exact ⟨c, .refl c, tells⟩
    · obtain ⟨reopened, first⟩ := tells.plainly (.reopen endpoint) ⟨rfl, fun _ _ => List.forall_mem_nil _⟩ s.listener rfl
      obtain ⟨cleared, second⟩ := first.sweeps now (some endpoint) swept
      rw [started]
      exact ⟨_, reopened.trans cleared, second⟩
  | stop => exact tells.stop numbered

end Tells

end Chronicle

/-- Every run of a server is a run of proper deeds. -/
theorem run_deeds (config : Config) (info : ServerInfo) (moves : List Move) :
    ∃ deeds, Chronicle.Lawful Chronicle.Proper (.start config info) deeds ∧
      ((Chronicle.start config info).run deeds).Tells ((ofConfig config info).run moves) := by
  have told : ((ofConfig config info).run moves).Numbered ∧
      ∃ after, (Chronicle.start config info).Leads after ∧ after.Tells ((ofConfig config info).run moves) := by
    refine List.foldlRecOn moves Server.perform (motive := fun s => s.Numbered ∧
      ∃ after, (Chronicle.start config info).Leads after ∧ after.Tells s) ?_ ?_
    · exact ⟨.empty rfl, _, .refl _, .initial config info⟩
    · rintro s ⟨numbered, c, leads, tells⟩ move _
      obtain ⟨after, more, told⟩ := tells.perform numbered move
      exact ⟨numbered.perform move, after, leads.trans more, told⟩
  obtain ⟨_, _, ⟨deeds, lawful, rfl⟩, tells⟩ := told
  exact ⟨deeds, lawful, tells⟩

/-- What proper deeds preserve holds of the hub of every server. -/
theorem run_holds {holds : Chronicle → Prop} (config : Config) (info : ServerInfo) (moves : List Move)
    (start : holds (.start config info)) (preserves : ∀ c deed, holds c → c.Proper deed → holds (c.step deed)) :
    ∃ c, holds c ∧ c.hub = ((ofConfig config info).run moves).hub := by
  obtain ⟨deeds, lawful, tells⟩ := run_deeds config info moves
  exact ⟨_, Chronicle.run_preserves preserves start lawful, tells.hub⟩

/-- Whatever a server does, each of its streams belongs to a session that it knows. -/
theorem streams_known (config : Config) (info : ServerInfo) (moves : List Move) {connection : Nat}
    {stream : Stream.Connection}
    (open_ : ((ofConfig config info).run moves).hub.streams.connections.get? connection = some stream) :
    ((ofConfig config info).run moves).hub.sessions.contains stream.session = true := by
  obtain ⟨c, housed, same⟩ := run_holds config info moves (.initial config info)
    fun c deed (held : c.Housed) proper => held.step_preserves deed proper.attended.1
  rw [← same] at open_ ⊢
  exact housed.housed connection stream open_

/-- Observers of a server are told of every stream once, of its end once at most, and of no end without the opening. -/
theorem stream_ends_told (config : Config) (info : ServerInfo) (moves : List Move) :
    let events := ((ofConfig config info).run moves).hub.events
    (events.filterMap Event.opened?).Nodup ∧ (events.filterMap Event.closed?).Nodup ∧
      events.filterMap Event.closed? ⊆ events.filterMap Event.opened? := by
  obtain ⟨c, noticed, same⟩ := run_holds config info moves (.initial config info)
    fun c deed (held : c.Noticed) proper => held.step_preserves deed proper.attended
  rw [← same]
  refine ⟨?_, noticed.once, fun (session, connection) told => ?_⟩
  · rw [noticed.opened]
    refine List.Nodup.of_map Prod.snd ?_
    rw [List.map_map]
    exact noticed.single
  · obtain ⟨⟨outbox, member⟩, _⟩ := (noticed.closed session connection).mp told
    rw [noticed.opened]
    exact List.mem_map_of_mem member

end Server

end ToolBridge

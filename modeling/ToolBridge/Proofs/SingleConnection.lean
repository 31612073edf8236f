import ToolBridge.Proofs.ServerRuns

/-! One connection among the others of a server: only what happens on it changes it, and its number is given once. When
it has ended or streams, what still arrives on it has no effect: the server does all else as if nothing had come. -/

namespace ToolBridge

namespace Entries
variable {κ α : Type} [DecidableEq κ]

theorem put_of_get? {key : κ} {value : α} {entries : Entries κ α} (found : entries.get? key = some value) :
    entries.put key value = entries := by
  induction entries with
  | nil => cases found
  | cons entry rest ih =>
    obtain ⟨k, v⟩ := entry
    rw [get?] at found
    rw [put]
    split at found
    next here =>
      cases found
      rw [if_pos here]
    next elsewhere => rw [if_neg elsewhere, ih found]

/-- Changes every value at a key. -/
def adjust (key : κ) (change : α → α) (entries : Entries κ α) : Entries κ α :=
  entries.map fun (k, v) => (k, if k = key then change v else v)

variable {key : κ} {change : α → α} {entries : Entries κ α}

theorem get?_adjust (other : κ) : (entries.adjust key change).get? other =
    if other = key then (entries.get? other).map change else entries.get? other := by
  induction entries with
  | nil => exact (ite_self _).symm
  | cons entry rest ih =>
    obtain ⟨k, v⟩ := entry
    rw [adjust, List.map_cons, get?, get?]
    split
    next here =>
      rw [here]
      split <;> rfl
    next => exact ih

theorem adjust_put (other : κ) (value : α) : (entries.put other value).adjust key change =
    (entries.adjust key change).put other (if other = key then change value else value) := by
  induction entries with
  | nil => rfl
  | cons entry rest ih =>
    obtain ⟨k, v⟩ := entry
    simp only [put, adjust, List.map_cons] at ih ⊢
    split
    next here =>
      subst here
      rfl
    next => exact congrArg _ ih

theorem adjust_erase (other : κ) :
    (entries.erase other).adjust key change = (entries.adjust key change).erase other := by
  simp only [erase, adjust, List.filter_map]
  rfl

theorem adjust_adjust (same : ∀ v, change (change v) = change v) :
    (entries.adjust key change).adjust key change = entries.adjust key change := by
  rw [adjust, adjust, List.map_map]
  refine List.map_congr_left fun (k, v) _ => ?_
  by_cases here : k = key <;> simp [here, same]

end Entries

namespace Server

/-! ## What becomes of a connection -/

def entryAfter (id : Nat) (s : Server) : Move → Option Connection
  | .arrive other data =>
    if other = id then (s.connections.get? id).map fun c => (hear? data c).getD c else s.connections.get? id
  | .leave other peer =>
    if other = id then (s.connections.get? id).map fun c => { c with peer } else s.connections.get? id
  | .act other now =>
    if other = id then (s.connections.get? id).bind fun c => (c.step? now other s.hub).elim (some c) Step.current
    else s.connections.get? id
  | .lapse timer other now =>
    if other = id then (s.connections.get? id).bind fun c => (c.lapse? timer now other s.hub).elim (some c) Step.current
    else s.connections.get? id
  | .stop => if s.isRunning then none else s.connections.get? id
  | _ => s.connections.get? id

section
variable {s : Server} {id : Nat}

private theorem get?_owned (other : Nat) (next : Connection → Option Step) :
    (match (s.connections.get? other).bind next with
      | some step => s.apply other step
      | none => s).connections.get? id =
      if other = id then (s.connections.get? id).bind fun c => (next c).elim (some c) Step.current
      else s.connections.get? id := by
  split
  next step acts =>
    obtain ⟨c, found, taken⟩ := Option.bind_eq_some_iff.mp acts
    rw [get?_apply]
    split
    next here =>
      subst here
      rw [found, Option.bind_some, taken, Option.elim_some]
    next => rfl
  next waits =>
    split
    next here =>
      subst here
      cases found : s.connections.get? other with
      | none => rfl
      | some c =>
        rw [found, Option.bind_some] at waits
        rw [Option.bind_some, waits, Option.elim_none]
    next => rfl

/-- Moves of the host, which leave the connections to themselves. -/
def Move.Hosts : Move → Prop
  | .tick _ | .sweep _ | .attach _ | .detach | .setApiKey _ | .setAllowedOrigins _ | .start _ _ => True
  | _ => False

/-- What the host does has nothing to do with which connections there are. -/
theorem perform_hosts {move : Move} (hosts : move.Hosts) (s : Server) : ∃ hub listener executor,
    ∀ (connections : Entries Nat Connection) (nextConnection : Nat),
      ({ s with connections, nextConnection } : Server).perform move =
        { hub, listener, executor, connections, nextConnection } := by
  cases move with
  | tick now =>
    cases s.executor with
    | none => exact ⟨s.hub, s.listener, none, fun _ _ => by simp only [perform]⟩
    | some tools => exact ⟨_, s.listener, some tools, fun _ _ => by simp only [perform]; rfl⟩
  | attach tools =>
    cases s.executor with
    | none => exact ⟨s.hub, s.listener, some tools, fun _ _ => by simp only [perform, attach]; rfl⟩
    | some other => exact ⟨s.hub, s.listener, some other, fun _ _ => by simp only [perform, attach]; rfl⟩
  | start bind now =>
    refine ⟨(s.start bind now).2.hub, (s.start bind now).2.listener, s.executor, fun _ _ => ?_⟩
    simp only [perform, start, isRunning]
    split
    · rfl
    split
    · rfl
    split
    · rfl
    split
    · rfl
    · dsimp only
  | sweep now => exact ⟨s.hub.sweep now, s.listener, s.executor, fun _ _ => rfl⟩
  | detach => exact ⟨s.hub, s.listener, none, fun _ _ => rfl⟩
  | setApiKey key => exact ⟨(s.setApiKey key).hub, s.listener, s.executor, fun _ _ => rfl⟩
  | setAllowedOrigins origins => exact ⟨(s.setAllowedOrigins origins).hub, s.listener, s.executor, fun _ _ => rfl⟩
  | connect | arrive | leave | act | lapse | stop => exact hosts.elim

theorem hosts_kept {move : Move} (hosts : move.Hosts) (s : Server) :
    (s.perform move).connections = s.connections ∧ (s.perform move).nextConnection = s.nextConnection := by
  obtain ⟨hub, listener, executor, same⟩ := s.perform_hosts hosts
  have here := same s.connections s.nextConnection
  exact ⟨congrArg (·.connections) here, congrArg (·.nextConnection) here⟩

theorem get?_perform (begun : id < s.nextConnection) (move : Move) :
    (s.perform move).connections.get? id = s.entryAfter id move := by
  cases move with
  | connect =>
    simp only [perform, connect]
    split
    · exact (Entries.get?_put ..).trans (if_neg (Nat.ne_of_gt begun))
    · rfl
  | arrive other data => exact get?_modify other (hear? data)
  | leave other peer => exact get?_modify other fun c => some { c with peer }
  | act other now => exact get?_owned other fun c => c.step? now other s.hub
  | lapse timer other now => exact get?_owned other fun c => c.lapse? timer now other s.hub
  | stop =>
    simp only [perform, stop, entryAfter]
    split <;> rfl
  | tick | attach | start | sweep | detach | setApiKey | setAllowedOrigins =>
    exact congrArg (Entries.get? id) (s.hosts_kept (by trivial)).1

theorem nextConnection_perform (s : Server) (move : Move) : s.nextConnection ≤ (s.perform move).nextConnection := by
  cases move with
  | connect =>
    simp only [perform, connect]
    split
    · exact Nat.le_succ _
    · exact Nat.le_refl _
  | arrive | leave =>
    simp only [perform, modify]
    split <;> exact Nat.le_refl _
  | act | lapse =>
    simp only [perform]
    split <;> exact Nat.le_refl _
  | stop =>
    simp only [perform, stop]
    split <;> exact Nat.le_refl _
  | tick | attach | start | sweep | detach | setApiKey | setAllowedOrigins =>
    exact Nat.le_of_eq (s.hosts_kept (by trivial)).2.symm

end

/-! ## Input that nobody reads -/

/-- The connection has ended or streams, and does not come again. -/
structure HungUp (id : Nat) (s : Server) : Prop where
  begun : id < s.nextConnection
  streams : ∀ c, s.connections.get? id = some c → ∃ session outbox, c.phase = .streaming session outbox

/-- What has arrived on the connection, and is not read yet, is dropped. -/
def Connection.muted (c : Connection) : Connection := { c with inbox := [] }

def mute (id : Nat) (s : Server) : Server := { s with connections := s.connections.adjust id Connection.muted }

def Move.Feeds (id : Nat) : Move → Prop
  | .arrive other _ => other = id
  | _ => False

instance (id : Nat) : (move : Move) → Decidable (move.Feeds id)
  | .arrive other _ => inferInstanceAs (Decidable (other = id))
  | .connect | .leave _ _ | .act _ _ | .lapse _ _ _ | .tick _ | .sweep _ | .attach _ | .detach | .setApiKey _
  | .setAllowedOrigins _ | .start _ _ | .stop => inferInstanceAs (Decidable False)

namespace Connection
variable {now : Int} {id : Nat} {session : String} {outbox : Nat} {c : Connection} {h : Hub}

theorem finish_muted (id : Nat) (c : Connection) (h : Hub) : c.muted.finish id h = c.finish id h := by
  obtain ⟨inbox, peer, phase⟩ := c
  cases phase with
  | parked ticket keepAlive headers =>
    simp only [finish, muted, answered, respond]
    generalize Http.Response.toBytes _ = data
    cases keepAlive <;> cases peer <;> rfl
  | reading | streaming | closed => rfl

def stepOrStay (now : Int) (id : Nat) (c : Connection) (h : Hub) : Step := (c.step? now id h).getD ⟨c, h, []⟩

/-- A stream goes on as if nothing had arrived. -/
theorem stepOrStay_muted (phase : c.phase = .streaming session outbox) (now : Int) (id : Nat) (h : Hub) :
    (c.muted.stepOrStay now id h).hub = (c.stepOrStay now id h).hub ∧
      (c.muted.stepOrStay now id h).connection.muted = (c.stepOrStay now id h).connection.muted := by
  obtain ⟨inbox, peer, _⟩ := c
  subst phase
  simp only [stepOrStay, step?, muted]
  unfold stepStreaming
  split
  · cases peer <;> exact ⟨rfl, rfl⟩
  · exact ⟨rfl, rfl⟩
  · cases peer with
    | present => by_cases arrived : inbox = [] <;> simp [arrived]
    | finished | gone | lost => exact ⟨rfl, rfl⟩

theorem lapse?_muted (phase : c.phase = .streaming session outbox) (timer : Timer) (now : Int) (id : Nat) (h : Hub) :
    c.muted.lapse? timer now id h =
      (c.lapse? timer now id h).map fun step => { step with connection := step.connection.muted } := by
  obtain ⟨inbox, peer, _⟩ := c
  subst phase
  cases timer with
  | patience => rfl
  | keepAlive =>
    simp only [lapse?, muted, lapseStreaming]
    cases peer <;> rfl

/-- A stream stays one until it ends. -/
theorem streaming_isOpen {step : Step} (phase : c.phase = .streaming session outbox) (moves : c.Moves now id h step)
    (open_ : step.connection.isOpen) : step.connection.phase = c.phase := by
  cases moves with
  | acts taken =>
    rw [step?, phase] at taken
    dsimp only at taken
    cases stepStreaming_cases taken with
    | writes => exact phase_write ..
    | fails | ends | gives => cases open_
    | drops => rfl
  | lapses lapsed =>
    cases lapse?_cases lapsed with
    | leaves reads => cases phase.symm.trans reads
    | excuses parked => cases phase.symm.trans parked
    | comments => exact phase_write ..
    | fails => cases open_

end Connection

section
variable {s t : Server} {id : Nat}

theorem get?_mute (other : Nat) : (s.mute id).connections.get? other =
    if other = id then (s.connections.get? other).map Connection.muted else s.connections.get? other :=
  Entries.get?_adjust other

theorem muted_twice (connections : Entries Nat Connection) :
    (connections.adjust id Connection.muted).adjust id Connection.muted = connections.adjust id Connection.muted :=
  Entries.adjust_adjust fun _ => rfl

theorem mute_mute : (s.mute id).mute id = s.mute id := by
  simp only [mute, muted_twice]

namespace HungUp

theorem mute (hungUp : s.HungUp id) : (s.mute id).HungUp id := by
  refine ⟨hungUp.begun, fun c found => ?_⟩
  rw [get?_mute, if_pos rfl] at found
  obtain ⟨d, known, rfl⟩ := Option.map_eq_some_iff.mp found
  exact hungUp.streams d known

private theorem owned (hungUp : s.HungUp id) (other : Nat) {now : Int} {next : Connection → Option Step}
    (moves : ∀ c step, next c = some step → c.Moves now other s.hub step) {d : Connection}
    (found : (if other = id then (s.connections.get? id).bind fun c => (next c).elim (some c) Step.current
      else s.connections.get? id) = some d) : ∃ session outbox, d.phase = .streaming session outbox := by
  split at found
  · obtain ⟨c, known, stepped⟩ := Option.bind_eq_some_iff.mp found
    obtain ⟨session, outbox, phase⟩ := hungUp.streams c known
    cases taken : next c with
    | none =>
      rw [taken] at stepped
      cases stepped
      exact ⟨session, outbox, phase⟩
    | some step =>
      rw [taken, Option.elim_some, Step.current] at stepped
      split at stepped
      next open_ =>
        cases stepped
        exact ⟨session, outbox, (Connection.streaming_isOpen phase (moves c step taken) open_).trans phase⟩
      next => cases stepped
  · exact hungUp.streams d found

theorem perform (hungUp : s.HungUp id) (move : Move) : (s.perform move).HungUp id := by
  refine ⟨Nat.lt_of_lt_of_le hungUp.begun (s.nextConnection_perform move), fun d found => ?_⟩
  rw [get?_perform hungUp.begun] at found
  cases move with
  | arrive other data =>
    simp only [entryAfter] at found
    split at found
    · obtain ⟨c, known, rfl⟩ := Option.map_eq_some_iff.mp found
      unfold hear?
      split <;> exact hungUp.streams c known
    · exact hungUp.streams d found
  | leave other peer =>
    simp only [entryAfter] at found
    split at found
    · obtain ⟨c, known, rfl⟩ := Option.map_eq_some_iff.mp found
      exact hungUp.streams c known
    · exact hungUp.streams d found
  | act other now => exact hungUp.owned other (fun _ _ taken => .acts taken) found
  | lapse timer other now => exact hungUp.owned other (fun _ _ lapsed => .lapses lapsed) found
  | stop =>
    simp only [entryAfter] at found
    split at found
    · cases found
    · exact hungUp.streams d found
  | connect | tick | attach | start | sweep | detach | setApiKey | setAllowedOrigins => exact hungUp.streams d found

end HungUp

/-! ### The server but for what has arrived on the connection -/

theorem mute_feed {move : Move} (feeds : move.Feeds id) : (s.perform move).mute id = s.mute id := by
  cases move with
  | arrive other data =>
    obtain rfl : other = id := feeds
    simp only [perform, modify]
    split
    next d changed =>
      obtain ⟨c, found, heard⟩ := Option.bind_eq_some_iff.mp changed
      have same : d.muted = c.muted := by
        unfold hear? at heard
        split at heard <;> cases heard
        rfl
      have there : (s.mute other).connections.get? other = some c.muted := by
        rw [get?_mute, if_pos rfl, found, Option.map_some]
      rw [mute, Entries.adjust_put, if_pos rfl, same]
      exact congrArg (fun connections => { s with connections }) (Entries.put_of_get? there)
    next => rfl
  | _ => exact feeds.elim

/-- Two values that differ only in what has arrived make no difference. -/
private theorem mute_put (other : Nat) {c d : Connection} (hub : Hub) (nextConnection : Nat)
    (same : (if other = id then c.muted else c) = if other = id then d.muted else d) :
    ({ s.mute id with hub, connections := (s.mute id).connections.put other c, nextConnection } : Server).mute id =
      ({ s with hub, connections := s.connections.put other d, nextConnection } : Server).mute id := by
  simp only [mute, Entries.adjust_put, same, muted_twice]

private theorem mute_erase (other : Nat) (hub : Hub) :
    ({ s.mute id with hub, connections := (s.mute id).connections.erase other } : Server).mute id =
      ({ s with hub, connections := s.connections.erase other } : Server).mute id := by
  simp only [mute, Entries.adjust_erase, muted_twice]

private theorem mute_modify (other : Nat) (change : Connection → Option Connection)
    (blind : other = id → ∀ c, (change c.muted).map Connection.muted = (change c).map Connection.muted) :
    ((s.mute id).modify other change).mute id = (s.modify other change).mute id := by
  unfold modify
  rw [get?_mute]
  cases found : s.connections.get? other with
  | none =>
    simp only [Option.map_none, ite_self, Option.bind_none]
    exact mute_mute
  | some c =>
    by_cases here : other = id
    · have blind := blind here c
      rw [if_pos here, Option.map_some, Option.bind_some, Option.bind_some]
      cases first : change c.muted with
      | none =>
        rw [first, Option.map_none, eq_comm, Option.map_eq_none_iff] at blind
        rw [blind]
        exact mute_mute
      | some d =>
        rw [first, Option.map_some, eq_comm] at blind
        obtain ⟨e, second, same⟩ := Option.map_eq_some_iff.mp blind
        rw [second]
        refine mute_put other s.hub s.nextConnection ?_
        rw [if_pos here, if_pos here, same]
    · rw [if_neg here, Option.bind_some]
      cases change c with
      | none => exact mute_mute
      | some d => exact mute_put other s.hub s.nextConnection rfl

private theorem mute_apply (other : Nat) {first second : Step} (hub : first.hub = second.hub)
    (same : (if other = id then first.connection.muted else first.connection) =
      if other = id then second.connection.muted else second.connection) :
    ((s.mute id).apply other first).mute id = (s.apply other second).mute id := by
  have open_ : first.connection.isOpen = second.connection.isOpen := by
    split at same
    · have phase := congrArg Connection.phase same
      exact congrArg (fun phase : Phase => decide (phase ≠ .closed)) phase
    · rw [same]
  unfold apply
  rw [hub, open_]
  split
  · exact mute_put other second.hub s.nextConnection same
  · exact mute_erase other second.hub

theorem finishAll_muted (connections : Entries Nat Connection) (h : Hub) :
    finishAll (connections.adjust id Connection.muted) h = finishAll connections h := by
  induction connections generalizing h with
  | nil => rfl
  | cons entry rest ih =>
    obtain ⟨k, c⟩ := entry
    have same : (if k = id then c.muted else c).finish k h = c.finish k h := by
      split
      · exact Connection.finish_muted k c h
      · rfl
    simp only [Entries.adjust, List.map_cons, finishAll] at ih ⊢
    rw [same, ih]

private theorem mute_hosts {move : Move} (hosts : move.Hosts) (s : Server) :
    ((s.mute id).perform move).mute id = (s.perform move).mute id := by
  obtain ⟨hub, listener, executor, same⟩ := s.perform_hosts hosts
  have muted : (s.mute id).perform move = _ := same (s.mute id).connections s.nextConnection
  have plain : s.perform move = _ := same s.connections s.nextConnection
  rw [muted, plain]
  simp only [mute, muted_twice]

theorem perform_act {c : Connection} (now : Int) (found : s.connections.get? id = some c) (open_ : c.isOpen) :
    s.perform (.act id now) = s.apply id (c.stepOrStay now id s.hub) := by
  simp only [perform, stepOf?, found, Option.bind_some, Connection.stepOrStay]
  cases c.step? now id s.hub with
  | some step => rfl
  | none =>
    simp only [Option.getD_none, apply, if_pos open_]
    rw [Entries.put_of_get? found]

/-- A stream does not look at what has arrived when a time is over, and neither do the others. -/
private theorem HungUp.lapse_muted (hungUp : s.HungUp id) (timer : Timer) (number : Nat) (now : Int) :
    ((s.mute id).perform (.lapse timer number now)).mute id = (s.perform (.lapse timer number now)).mute id := by
  by_cases here : number = id
  · subst here
    simp only [Server.perform, lapseOf?, get?_mute, if_true]
    cases found : s.connections.get? number with
    | none => exact mute_mute
    | some c =>
      obtain ⟨session, outbox, phase⟩ := hungUp.streams c found
      have same : c.muted.lapse? timer now number (s.mute number).hub = _ :=
        Connection.lapse?_muted phase timer now number s.hub
      simp only [Option.map_some, Option.bind_some, same]
      cases c.lapse? timer now number s.hub with
      | none => exact mute_mute
      | some step =>
        refine mute_apply number rfl ?_
        rw [if_pos rfl, if_pos rfl]
        rfl
  · have same : (s.mute id).lapseOf? timer now number = s.lapseOf? timer now number := by
      rw [lapseOf?, get?_mute, if_neg here]
      rfl
    simp only [Server.perform, same]
    cases s.lapseOf? timer now number with
    | none => exact mute_mute
    | some step => exact mute_apply number rfl rfl

/-- A stream acts alike whatever has arrived, and so do the others. -/
private theorem HungUp.act_muted (hungUp : s.HungUp id) (number : Nat) (now : Int) :
    ((s.mute id).perform (.act number now)).mute id = (s.perform (.act number now)).mute id := by
  by_cases here : number = id
  · subst here
    cases found : s.connections.get? number with
    | none =>
      have absent : (s.mute number).connections.get? number = none := by rw [get?_mute, if_pos rfl, found]; rfl
      simp only [Server.perform, stepOf?, found, absent, Option.bind_none]
      exact mute_mute
    | some c =>
      obtain ⟨session, outbox, phase⟩ := hungUp.streams c found
      have open_ : c.isOpen := by simp [Connection.isOpen, phase]
      have there : (s.mute number).connections.get? number = some c.muted := by
        rw [get?_mute, if_pos rfl, found, Option.map_some]
      obtain ⟨hub, same⟩ := Connection.stepOrStay_muted phase now number s.hub
      rw [perform_act now found open_, perform_act now there open_]
      refine mute_apply number hub ?_
      rw [if_pos rfl, if_pos rfl]
      exact same
  · have same : (s.mute id).stepOf? now number = s.stepOf? now number := by
      rw [stepOf?, get?_mute, if_neg here]
      rfl
    simp only [Server.perform, same]
    cases s.stepOf? now number with
    | none => exact mute_mute
    | some step => exact mute_apply number rfl rfl

/-- What the server does has nothing to do with what has arrived on the connection. -/
theorem HungUp.perform_muted (hungUp : s.HungUp id) {move : Move} (other : ¬ move.Feeds id) :
    ((s.mute id).perform move).mute id = (s.perform move).mute id := by
  have running : (s.mute id).isRunning = s.isRunning := rfl
  cases move with
  | connect =>
    simp only [Server.perform, connect, running]
    split
    · exact mute_put s.nextConnection s.hub (s.nextConnection + 1) rfl
    · exact mute_mute
  | arrive number data => exact mute_modify number (hear? data) fun here => absurd here other
  | leave number peer => exact mute_modify number (fun c => some { c with peer }) fun _ _ => rfl
  | act number now => exact hungUp.act_muted number now
  | lapse timer number now => exact hungUp.lapse_muted timer number now
  | stop =>
    simp only [Server.perform, stop, running]
    split
    · have finished : finishAll (s.mute id).connections s.hub.shutDown = finishAll s.connections s.hub.shutDown :=
        finishAll_muted s.connections s.hub.shutDown
      exact congrArg (fun last : List Signal × Hub =>
        ({ s with hub := last.2.emit .stopped, listener := none, connections := [] } : Server)) finished
    · exact mute_mute
  | tick | attach | start | sweep | detach | setApiKey | setAllowedOrigins =>
    exact s.mute_hosts (by trivial)

/-- Whether and what something arrives makes no difference to all else. -/
theorem HungUp.run_muted (hungUp : s.HungUp id) (moves : List Move) :
    ((s.mute id).run (moves.filter fun move => ¬ move.Feeds id)).mute id = (s.run moves).mute id := by
  have alike : ∀ t : Server, t.HungUp id → t.mute id = s.mute id →
      (t.run (moves.filter fun move => ¬ move.Feeds id)).mute id = (s.run moves).mute id := by
    induction moves generalizing s with
    | nil => exact fun t _ same => same
    | cons move rest ih =>
      intro t quiet same
      by_cases feeds : move.Feeds id
      · rw [List.filter_cons_of_neg (by simpa using feeds)]
        exact ih (hungUp.perform move) t quiet (same.trans (mute_feed feeds).symm)
      · rw [List.filter_cons_of_pos (by simpa using feeds)]
        refine ih (hungUp.perform move) (t.perform move) (quiet.perform move) ?_
        rw [← quiet.perform_muted feeds, same, hungUp.perform_muted feeds]
  exact alike (s.mute id) hungUp.mute mute_mute

end

end Server

end ToolBridge

import Mathlib.Data.List.Induction
import ToolBridge.Proofs.Refusals
import ToolBridge.Proofs.ServerRuns

/-! Who is let in while the configuration changes. A request is judged by the configuration that was in
force when its connection began to wait for it, so a setter governs the requests that are waited for
after it, and not one that is already waited for. -/

namespace ToolBridge.Server

/-! ## Waiting for a request -/

namespace Connection

theorem reading_respond {response : Http.Response} {close : Bool} {c : Connection} {h : Hub} {config : Config}
    (waiting : (c.respond response close h).connection.phase = .reading config) : config = h.config := by
  rcases phase_respond response close c h with closed | reads
  · cases closed.symm.trans waiting
  · cases reads.symm.trans waiting
    rfl

theorem reading_serve {now : Int} {id : Nat} {judge config : Config} {r : Http.Request} {c : Connection} {h : Hub}
    (waiting : (c.serve now id judge r h).connection.phase = .reading config) :
    config = (c.serve now id judge r h).hub.config := by
  unfold serve at waiting ⊢
  split at waiting
  · rw [hub_respond]
    exact reading_respond waiting
  · cases waiting
  · simp only at waiting
    split at waiting <;> cases waiting

theorem reading_step {now : Int} {id : Nat} {c : Connection} {h : Hub} {step : Step} {config : Config}
    (taken : c.step? now id h = some step) (waiting : step.connection.phase = .reading config) :
    config = step.hub.config := by
  rcases step?_cases taken with ⟨_, _, taken⟩ | ⟨_, _, _, _, taken⟩ | ⟨session, outbox, phase, taken⟩
  · rcases stepReading_cases taken with ⟨r, rest, _, rfl⟩ | ⟨_, closed, _⟩
    · exact reading_serve waiting
    · rw [closed] at waiting
      cases waiting
  · obtain ⟨slot, slots, _, _, rfl⟩ := stepParked_cases taken
    rw [hub_answered]
    exact reading_respond waiting
  · cases stepStreaming_cases taken with
    | writes =>
      rw [phase_write, phase] at waiting
      cases waiting
    | drops =>
      rw [phase] at waiting
      cases waiting
    | fails | ends | gives => cases waiting

theorem reading_lapse {timer : Timer} {now : Int} {id : Nat} {c : Connection} {h : Hub} {step : Step} {config : Config}
    (lapsed : c.lapse? timer now id h = some step) (waiting : step.connection.phase = .reading config) :
    config = step.hub.config := by
  cases lapse?_cases lapsed with
  | excuses =>
    rw [hub_respond]
    exact reading_respond waiting
  | comments phase =>
    rw [phase_write, phase] at waiting
    cases waiting
  | leaves | fails => cases waiting

theorem reading_moves {now : Int} {id : Nat} {c : Connection} {h : Hub} {step : Step} {config : Config}
    (moves : c.Moves now id h step) (waiting : step.connection.phase = .reading config) : config = step.hub.config := by
  cases moves with
  | acts taken => exact reading_step taken waiting
  | lapses lapsed => exact reading_lapse lapsed waiting

end Connection

/-- The connection waits for a request, to be judged by the configuration. -/
def Waiting (id : Nat) (config : Config) (s : Server) : Prop :=
  ∃ c, s.connections.get? id = some c ∧ c.phase = .reading config

/-- The move makes a connection of this number wait: it comes, or it has done something. -/
def Starts (id : Nat) (s : Server) : Move → Prop
  | .connect => s.isRunning ∧ s.nextConnection = id
  | .act other now => other = id ∧ (s.stepOf? now other).isSome
  | .lapse timer other now => other = id ∧ (s.lapseOf? timer now other).isSome
  | _ => False

private theorem waiting_modify {s : Server} {id other : Nat} {change : Connection → Option Connection}
    {config : Config} (kept : ∀ c d, change c = some d → d.phase = c.phase)
    (waiting : (s.modify other change).Waiting id config) : s.Waiting id config := by
  obtain ⟨c, found, phase⟩ := waiting
  rw [get?_modify] at found
  split at found
  · obtain ⟨before, known, rfl⟩ := Option.map_eq_some_iff.mp found
    refine ⟨before, known, ?_⟩
    cases changed : change before with
    | none => rwa [changed] at phase
    | some after =>
      rw [changed] at phase
      exact (kept before after changed).symm.trans phase
  · exact ⟨c, found, phase⟩

private theorem waiting_apply {s : Server} {id other : Nat} {step : Step} {config : Config}
    (waiting : (s.apply other step).Waiting id config) :
    (other = id ∧ step.connection.phase = .reading config) ∨ (other ≠ id ∧ s.Waiting id config) := by
  obtain ⟨c, found, phase⟩ := waiting
  rw [get?_apply] at found
  split at found
  next same =>
    obtain ⟨_, here⟩ := Option.ite_none_right_eq_some.mp found
    cases here
    exact Or.inl ⟨same, phase⟩
  next different => exact Or.inr ⟨different, c, found, phase⟩

private theorem waiting_other (s : Server) (hub : Hub) (listener : Option Net.Endpoint)
    (executor : Option Tool.Table) {id : Nat} {config : Config}
    (waiting : Waiting id config { s with hub, listener, executor }) : s.Waiting id config := waiting

/-- How a connection comes to wait after a move: it starts to, under the configuration in force, or it has
waited before. -/
def Comes (id : Nat) (config : Config) (move : Move) (s : Server) : Prop :=
  (s.Starts id move ∧ config = (s.perform move).hub.config) ∨ (¬ s.Starts id move ∧ s.Waiting id config)

private theorem comes_connect {s : Server} {id : Nat} {config : Config}
    (waiting : (s.perform .connect).Waiting id config) : s.Comes id config .connect := by
  simp only [Comes, perform, connect, Starts] at waiting ⊢
  split at waiting
  next running =>
    obtain ⟨c, found, phase⟩ := waiting
    simp only [Option.map_some, Option.getD_some, Entries.get?_put] at found
    split at found
    next same =>
      cases found
      cases phase
      simp [running, same]
    next different => exact Or.inr ⟨fun starts => different starts.2, c, found, phase⟩
  next stopped => exact Or.inr ⟨fun starts => stopped starts.1, waiting⟩

private theorem comes_apply {s : Server} {id other : Nat} {now : Int} {config : Config} {move : Move} {c : Connection}
    {step : Step} (starts : s.Starts id move ↔ other = id) (moves : c.Moves now other s.hub step)
    (performed : s.perform move = s.apply other step) (waiting : (s.perform move).Waiting id config) :
    s.Comes id config move := by
  rw [performed] at waiting
  rcases waiting_apply waiting with ⟨same, phase⟩ | ⟨different, before⟩
  · refine Or.inl ⟨starts.mpr same, ?_⟩
    rw [performed]
    exact Connection.reading_moves moves phase
  · exact Or.inr ⟨fun begun => different (starts.mp begun), before⟩

private theorem comes_act {s : Server} {id other : Nat} {now : Int} {config : Config}
    (waiting : (s.perform (.act other now)).Waiting id config) : s.Comes id config (.act other now) := by
  cases acts : s.stepOf? now other with
  | none =>
    simp only [perform, acts] at waiting
    exact Or.inr ⟨by simp [Starts, acts], waiting⟩
  | some step =>
    obtain ⟨c, _, taken⟩ := Option.bind_eq_some_iff.mp acts
    exact comes_apply (by simp [Starts, acts]) (.acts taken) (by simp only [perform, acts]) waiting

private theorem comes_lapse {s : Server} {id other : Nat} {timer : Timer} {now : Int} {config : Config}
    (waiting : (s.perform (.lapse timer other now)).Waiting id config) : s.Comes id config (.lapse timer other now) := by
  cases lapses : s.lapseOf? timer now other with
  | none =>
    simp only [perform, lapses] at waiting
    exact Or.inr ⟨by simp [Starts, lapses], waiting⟩
  | some step =>
    obtain ⟨c, _, lapsed⟩ := Option.bind_eq_some_iff.mp lapses
    exact comes_apply (by simp [Starts, lapses]) (.lapses lapsed) (by simp only [perform, lapses]) waiting

/-- A connection that waits after a move has been waiting before it, or waits anew, under the
configuration in force. -/
theorem waiting_perform {s : Server} {move : Move} {id : Nat} {config : Config}
    (waiting : (s.perform move).Waiting id config) : s.Comes id config move := by
  cases move with
  | connect => exact comes_connect waiting
  | act other now => exact comes_act waiting
  | lapse timer other now => exact comes_lapse waiting
  | arrive other data =>
    exact Or.inr ⟨False.elim, waiting_modify (fun _ _ => Connection.phase_hear) waiting⟩
  | leave other peer =>
    exact Or.inr ⟨False.elim, waiting_modify (fun _ _ left => by cases left; rfl) waiting⟩
  | start bind now =>
    obtain ⟨hub, listener, same⟩ := s.start_kept bind now
    refine Or.inr ⟨False.elim, ?_⟩
    simp only [perform, same] at waiting
    exact waiting_other s hub listener s.executor waiting
  | stop =>
    refine Or.inr ⟨False.elim, ?_⟩
    simp only [perform, stop] at waiting
    split at waiting
    · obtain ⟨c, found, _⟩ := waiting
      cases found
    · exact waiting
  | tick now =>
    refine Or.inr ⟨False.elim, ?_⟩
    simp only [perform] at waiting
    split at waiting
    · exact waiting_other s _ s.listener s.executor waiting
    · exact waiting
  | attach tools =>
    refine Or.inr ⟨False.elim, ?_⟩
    simp only [perform, attach] at waiting
    split at waiting
    · exact waiting
    · exact waiting_other s s.hub s.listener _ waiting
  | sweep _ | setApiKey _ | setAllowedOrigins _ =>
    exact Or.inr ⟨False.elim, waiting_other s _ s.listener s.executor waiting⟩
  | detach => exact Or.inr ⟨False.elim, waiting_other s s.hub s.listener none waiting⟩

/-- The moves that come after `before` do not make the connection wait anew. -/
structure Since (s : Server) (id : Nat) (before after : List Move) : Prop where
  starts : ∃ earlier last, before = earlier ++ [last] ∧ (s.run earlier).Starts id last
  still : ∀ first move last, after = first ++ move :: last → ¬ (s.run (before ++ first)).Starts id move

theorem wait_began {s : Server} (none_ : s.connections = []) {moves : List Move} {id : Nat} {config : Config}
    (waiting : (s.run moves).Waiting id config) :
    ∃ before after, moves = before ++ after ∧ s.Since id before after ∧ config = (s.run before).hub.config := by
  induction moves using List.reverseRecOn with
  | nil =>
    obtain ⟨c, found, _⟩ := waiting
    rw [run, List.foldl_nil, none_] at found
    cases found
  | append_singleton earlier move ih =>
    rw [run_append] at waiting
    rcases waiting_perform waiting with ⟨starts, same⟩ | ⟨other, before⟩
    · refine ⟨earlier ++ [move], [], by simp, ⟨⟨earlier, move, rfl, starts⟩, by simp⟩, ?_⟩
      rw [run_append]
      exact same
    · obtain ⟨first, later, rfl, since, same⟩ := ih before
      refine ⟨first, later ++ [move], by simp, ⟨since.starts, ?_⟩, same⟩
      intro start next last shape
      rcases List.eq_nil_or_concat last with rfl | ⟨rest, final, rfl⟩
      · obtain ⟨rfl, ended⟩ := List.append_inj' shape rfl
        cases ended
        exact other
      · rw [List.concat_eq_append, ← List.cons_append, ← List.append_assoc] at shape
        exact since.still start next rest (List.append_inj' shape rfl).1

/-! ## Judging it -/

def Forbids (c : Config) (r : Http.Request) : Prop :=
  ∃ rejection, Access.check c r = .error rejection ∧ (rejection.status = 401 ∨ rejection.status = 403)

/-- The answer tells that the request was refused for its origin or its key. -/
def Routed.Refuses : Routed → Prop
  | .respond response _ => response.status = 401 ∨ response.status = 403
  | _ => False

namespace Route

theorem refuses_reject (rejection : Rejection) :
    (reject rejection).Refuses ↔ rejection.status = 401 ∨ rejection.status = 403 := by
  cases rejection <;> rfl

theorem Judged.admits {reasons : List Rejection} {h : Hub} {result : Routed × Hub} (judged : Judged reasons h result)
    (others : ∀ rejection ∈ reasons, ¬ (rejection.status = 401 ∨ rejection.status = 403)) : ¬ result.1.Refuses := by
  obtain ⟨routed, after⟩ := result
  rcases judged with admitted | ⟨rejection, reason, same⟩
  · cases routed with
    | respond response close =>
      simp only [Routed.Admits, List.mem_cons, List.not_mem_nil, or_false] at admitted
      simp only [Routed.Refuses]
      omega
    | park _ _ => exact id
    | stream _ _ _ => exact id
  · cases same
    rw [refuses_reject]
    exact others rejection reason

theorem refuses_preflight (c : Config) (r : Http.Request) :
    (preflight c r).Refuses ↔ Access.checkOrigin c r ≠ .ok () := by
  unfold preflight
  cases checked : Access.checkOrigin c r with
  | ok =>
    change (204 = 401 ∨ 204 = 403) ↔ _
    simp
  | error rejection =>
    rw [refuses_reject]
    simp [Access.status_checkOrigin checked]

theorem refuses_route (now : Int) (c : Config) (r : Http.Request) (connection : Nat) (h : Hub)
    (other : r.method ≠ "OPTIONS") : (route now c r connection h).1.Refuses ↔ Forbids c r := by
  cases checked : Access.check c r with
  | error rejection =>
    rw [route_unchecked now c r connection h other checked, refuses_reject]
    simp [Forbids, checked]
  | ok =>
    have allowed : ¬ Forbids c r := by simp [Forbids, checked]
    simp only [allowed, iff_false]
    exact (checked_judged now c r connection h other checked).admits (by decide)

end Route

/-- In every run, a request is judged by the configuration that was in force when its connection began to
wait for it, and is refused for its origin or its key just if that configuration forbids it; what is
asked first is judged by its origin alone. That is the configuration in force when it is read, if
none was set in between. -/
theorem judged_as_wait_began {s : Server} (none_ : s.connections = []) (moves : List Move) (now : Int) {id : Nat}
    {c : Connection} {config : Config} {r : Http.Request} {rest : Bytes}
    (found : (s.run moves).connections.get? id = some c) (waiting : c.phase = .reading config)
    (next : c.nextRequest? config.maxBodyBytes = some (r, rest)) :
    (s.run moves).stepOf? now id =
      some (({ c with inbox := rest } : Connection).serve now id config r (s.run moves).hub) ∧
    ∃ before after, moves = before ++ after ∧ s.Since id before after ∧ config = (s.run before).hub.config ∧
      ((Route.route now config r id (s.run moves).hub).1.Refuses ↔
        if r.method = "OPTIONS" then Access.checkOrigin (s.run before).hub.config r ≠ .ok ()
        else Forbids (s.run before).hub.config r) ∧
      ((∀ move ∈ after, ¬ move.Sets) → config = (s.run moves).hub.config) := by
  constructor
  · have served : c.stepReading now id config (s.run moves).hub = _ := Connection.stepReading_serves _ next
    simp only [waiting] at served
    simp only [stepOf?, found, Option.bind_some, Connection.step?, waiting, served]
  · obtain ⟨before, after, shape, since, same⟩ := wait_began none_ ⟨c, found, waiting⟩
    refine ⟨before, after, shape, since, same, ?_, ?_⟩
    · rw [← same]
      split
      next asks =>
        rw [← Route.refuses_preflight, Route.route, if_pos asks]
      next other => exact Route.refuses_route now config r id _ other
    · intro unset
      rw [same, shape, run_append, config_run _ unset]

/-- A key is set while a connection waits, and then a request comes without one. -/
private def keyed : List Move :=
  [.connect, .setApiKey (some "k"), .arrive 1 (Text.utf8 "GET /health HTTP/1.1\r\n\r\n")]

private def listening : Server := { listener := some ⟨.loopback, 8080⟩ }

private def keyless : Http.Request := { method := "GET", path := "/health", version := "HTTP/1.1" }

private def unkeyed : Connection :=
  { inbox := Text.utf8 "GET /health HTTP/1.1\r\n\r\n", phase := .reading {} }

theorem judged_as_wait_began_keyed :
    (listening.run keyed).connections.get? 1 = some unkeyed ∧
      unkeyed.nextRequest? ({} : Config).maxBodyBytes = some (keyless, []) ∧
      Forbids (listening.run keyed).hub.config keyless ∧
      ¬ (Route.route 0 {} keyless 1 (listening.run keyed).hub).1.Refuses := by
  have found : (listening.run keyed).connections.get? 1 = some unkeyed := by decide +kernel
  have next : unkeyed.nextRequest? ({} : Config).maxBodyBytes = some (keyless, []) := by decide +kernel
  have forbidden : Access.check (listening.run keyed).hub.config keyless = .error .unauthorized := by decide +kernel
  have allowed : Access.check {} keyless = .ok () := by decide +kernel
  obtain ⟨_, before, after, _, _, same, refused, _⟩ := judged_as_wait_began rfl keyed 0 found rfl next
  refine ⟨found, next, ⟨_, forbidden, Or.inl rfl⟩, ?_⟩
  rw [refused, ← same, if_neg (by decide)]
  simp [Forbids, allowed]

end ToolBridge.Server

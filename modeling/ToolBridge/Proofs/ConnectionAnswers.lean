import ToolBridge.Proofs.Dialogues
import ToolBridge.Proofs.RestingConnections

/-! A connection of a running server, for as long as the other side reads what is written and nobody waits for too
long. Each request that is sent on it is answered once and in its turn, up to one that ends the connection or turns it
into an event stream; what comes after that is not read, and makes no difference to anything else. -/

namespace ToolBridge.Server

theorem maxBodyBytes_perform (s : Server) (move : Move) :
    (s.perform move).hub.config.maxBodyBytes = s.hub.config.maxBodyBytes := by
  by_cases sets : move.Sets
  · cases move <;> first | exact sets.elim | rfl
  · rw [(s.leads_perform sets).config]

theorem maxBodyBytes_run (s : Server) (moves : List Move) :
    (s.run moves).hub.config.maxBodyBytes = s.hub.config.maxBodyBytes :=
  List.foldlRecOn moves perform (motive := fun t : Server => t.hub.config.maxBodyBytes = s.hub.config.maxBodyBytes) rfl
    fun t same move _ => (t.maxBodyBytes_perform move).trans same

theorem Utterance.flatMap_spoken (said : Utterance) : said.spoken.flatMap Utterance.bytes = said.bytes := by
  cases said <;> simp [spoken, bytes]

namespace Dialogue

structure Sound (limit id : Nat) (d : Dialogue) : Prop where
  attended : d.server.Attended
  limited : d.server.hub.config.maxBodyBytes = limit
  begun : id < d.server.nextConnection
  hears : ∀ c, d.server.connections.get? id = some c → c.Hears d.complete
  standing : Standing limit d.complete d.heard d.served d.said (d.server.connections.get? id)
  wrote : d.wrote = d.said.flatMap Utterance.bytes

def begin (s : Server) : Dialogue := { server := s.perform .connect }

variable {limit id : Nat} {d : Dialogue}

theorem begin_sound {s : Server} (attended : s.Attended) (running : s.isRunning) :
    (begin s).Sound s.hub.config.maxBodyBytes s.nextConnection := by
  have connected : s.perform .connect = { s with
      connections := s.connections.put s.nextConnection { phase := .reading s.hub.config }
      nextConnection := s.nextConnection + 1 } := by
    simp only [perform, connect, if_pos running]
    rfl
  have entry : (s.perform .connect).connections.get? s.nextConnection = some { phase := .reading s.hub.config } := by
    rw [connected]
    exact (Entries.get?_put ..).trans (if_pos rfl)
  refine ⟨attended.perform_preserves .connect, s.maxBodyBytes_perform .connect, ?_, ?_, ?_, rfl⟩
  · rw [begin, connected]
    exact Nat.lt_succ_self _
  · intro c found
    cases entry.symm.trans found
    rfl
  · simp only [begin, entry]
    exact Standing.newborn

namespace Sound

/-- Whatever becomes of the connection in a move, the rest of the server is as it should be. -/
private theorem after_move (sound : d.Sound limit id) (move : Move) {e : Dialogue} (server : e.server = d.server.perform move)
    (hears : ∀ c, (d.server.perform move).connections.get? id = some c → c.Hears e.complete)
    (standing : Standing limit e.complete e.heard e.served e.said ((d.server.perform move).connections.get? id))
    (wrote : e.wrote = e.said.flatMap Utterance.bytes) : e.Sound limit id where
  attended := server ▸ sound.attended.perform_preserves move
  limited := server ▸ (d.server.maxBodyBytes_perform move).trans sound.limited
  begun := server ▸ Nat.lt_of_lt_of_le sound.begun (d.server.nextConnection_perform move)
  hears := server ▸ hears
  standing := server ▸ standing
  wrote := wrote

/-- Most moves leave the connection and its record alone. -/
private theorem elsewhere (sound : d.Sound limit id) (move : Move)
    (same : (d.server.perform move).connections.get? id = d.server.connections.get? id) :
    Sound limit id { d with server := d.server.perform move } :=
  sound.after_move move rfl (fun c found => sound.hears c (same ▸ found)) (same ▸ sound.standing) sound.wrote

private theorem arrive_preserves (sound : d.Sound limit id) (other : Nat) (data : Bytes) :
    (d.step id (.arrive other data)).Sound limit id := by
  have entry := get?_perform sound.begun (.arrive other data)
  simp only [entryAfter] at entry
  simp only [step]
  split
  next more =>
    obtain ⟨rfl, open_⟩ := more
    have heard : (d.server.perform (.arrive other data)).connections.get? other =
        (d.server.connections.get? other).map fun c => { c with inbox := c.inbox ++ data } := by
      rw [entry, if_pos rfl]
      refine Option.map_congr fun c found => ?_
      have present : c.peer = .present := by rw [sound.hears c found, open_]; rfl
      rw [hear?, if_pos present, Option.getD_some]
    refine sound.after_move _ rfl (fun c found => ?_) (heard ▸ sound.standing.hears open_ data) sound.wrote
    rw [heard] at found
    obtain ⟨c, known, rfl⟩ := Option.map_eq_some_iff.mp found
    exact sound.hears c known
  next unheard =>
    refine sound.elsewhere _ (entry.trans ?_)
    split
    next here =>
      have complete : d.complete = true := by simpa [here] using unheard
      refine (Option.map_congr fun c found => ?_).trans Option.map_id'
      have finished : c.peer = .finished := by rw [sound.hears c found, complete]; rfl
      rw [hear?, finished, if_neg (by decide), Option.getD_none]
    next => rfl

private theorem leave_preserves (sound : d.Sound limit id) {other : Nat} {peer : Peer}
    (spares : other = id → peer = .finished) : (d.step id (.leave other peer)).Sound limit id := by
  have entry := get?_perform sound.begun (.leave other peer)
  simp only [entryAfter] at entry
  simp only [step]
  split
  next here =>
    subst here
    obtain rfl : peer = .finished := spares rfl
    rw [if_pos rfl] at entry
    refine sound.after_move _ rfl (fun c found => ?_) (entry ▸ sound.standing.finishes) sound.wrote
    rw [entry] at found
    obtain ⟨c, known, rfl⟩ := Option.map_eq_some_iff.mp found
    rfl
  next away => exact sound.elsewhere _ (entry.trans (if_neg away))

/-- The connection does something of its own, and the record has it. -/
private theorem told_preserves (sound : d.Sound limit id) (move : Move) {served : List Http.Request} {said : Utterance} {step : Step}
    (acted : Acts limit d.complete d.heard served d.said said step)
    (entry : (d.server.perform move).connections.get? id = step.current) (sent : step.sent = said.bytes) :
    Sound limit id { d with server := d.server.perform move, served, said := d.said ++ said.spoken, wrote := d.wrote ++ step.sent } := by
  refine sound.after_move move rfl (fun e there => ?_) (entry ▸ acted.standing) ?_
  · rw [entry, Step.current] at there
    split at there <;> cases there
    exact acted.hears
  · rw [sent, sound.wrote, List.flatMap_append, Utterance.flatMap_spoken]

private theorem stays {current : Option Connection} {next : Connection → Option Step}
    (idle : ∀ c step, current = some c → current.bind next = some step → False) :
    (current.bind fun c => (next c).elim (some c) Step.current) = current := by
  cases current with
  | none => rfl
  | some c =>
    cases acts : next c with
    | none => rw [Option.bind_some, acts, Option.elim_none]
    | some step => exact (idle c step rfl acts).elim

private theorem act_preserves (sound : d.Sound limit id) (other : Nat) (now : Int) :
    (d.step id (.act other now)).Sound limit id := by
  have entry := get?_perform sound.begun (.act other now)
  simp only [entryAfter] at entry
  simp only [step]
  split
  next here =>
    subst here
    rw [if_pos rfl] at entry
    unfold act
    split
    next c step found acts =>
      have taken : c.step? now other d.server.hub = some step := by rwa [stepOf?, found, Option.bind_some] at acts
      rw [found, Option.bind_some, taken, Option.elim_some] at entry
      have standing := sound.standing
      rw [found] at standing
      have hears := sound.hears c found
      have open_ := sound.attended.takes (sound.attended.mem_running found)
      have acted := standing.acts hears open_ (sound.attended.live other c found)
        (fun config phase => (sound.attended.limit other c config found phase).trans sound.limited) taken
      exact sound.told_preserves _ acted entry ((Connection.sent_step taken).trans (if_pos hears.writable))
    next unmoved => exact sound.elsewhere _ (entry.trans (stays unmoved))
  next away => exact sound.elsewhere _ (entry.trans (if_neg away))

private theorem lapse_preserves (sound : d.Sound limit id) {timer : Timer} {other : Nat} (now : Int)
    (spares : other = id → timer = .keepAlive) : (d.step id (.lapse timer other now)).Sound limit id := by
  have entry := get?_perform sound.begun (.lapse timer other now)
  simp only [entryAfter] at entry
  simp only [step]
  split
  next here =>
    subst here
    obtain rfl : timer = .keepAlive := spares rfl
    rw [if_pos rfl] at entry
    unfold lapse
    split
    next c step found lapses =>
      have lapsed : c.lapse? .keepAlive now other d.server.hub = some step := by
        rwa [lapseOf?, found, Option.bind_some] at lapses
      rw [found, Option.bind_some, lapsed, Option.elim_some] at entry
      have standing := sound.standing
      rw [found] at standing
      have hears := sound.hears c found
      exact sound.told_preserves _ (standing.comments hears lapsed) entry ((Connection.sent_lapse lapsed).trans (if_pos hears.writable))
    next unmoved => exact sound.elsewhere _ (entry.trans (stays unmoved))
  next away => exact sound.elsewhere _ (entry.trans (if_neg away))

theorem step_preserves (sound : d.Sound limit id) {move : Move} (spares : move.Spares id) :
    (d.step id move).Sound limit id := by
  cases move with
  | arrive other data => exact sound.arrive_preserves other data
  | leave other peer => exact sound.leave_preserves spares
  | act other now => exact sound.act_preserves other now
  | lapse timer other now => exact sound.lapse_preserves now spares
  | stop => exact spares.elim
  | connect | tick | attach | start | sweep | detach | setApiKey | setAllowedOrigins =>
    exact sound.elsewhere _ (get?_perform sound.begun _)

theorem run_preserves (sound : d.Sound limit id) {moves : List Move} (spares : ∀ move ∈ moves, move.Spares id) :
    (d.run id moves).Sound limit id :=
  List.foldlRecOn moves (step id) sound fun _ kept move member => kept.step_preserves (spares move member)

end Sound

/-- The server stands as a variable here, or the kernel would evaluate it. -/
private theorem served_with (d : Dialogue) (server : Server) : ({ d with server } : Dialogue).served = d.served := rfl

theorem served_step (hungUp : d.server.HungUp id) (move : Move) : (d.step id move).served = d.served := by
  cases move with
  | act other now =>
    simp only [step]
    split
    · unfold act
      split
      next c _ found _ =>
        obtain ⟨session, outbox, phase⟩ := hungUp.streams c found
        have idle : c.request? = none := by rw [Connection.request?, phase]
        rw [idle]
        exact List.append_nil _
      next => rfl
    · rfl
  | lapse timer other now =>
    simp only [step]
    split
    · unfold lapse
      split <;> rfl
    · rfl
  | arrive | leave =>
    simp only [step]
    split <;> rfl
  | connect | tick | attach | start | sweep | detach | setApiKey | setAllowedOrigins | stop => exact served_with d _

theorem served_run (hungUp : d.server.HungUp id) (moves : List Move) : (d.run id moves).served = d.served := by
  induction moves generalizing d with
  | nil => rfl
  | cons move rest ih => exact (ih (d := d.step id move) (hungUp.perform move)).trans (served_step hungUp move)

structure Answers (limit id : Nat) (d : Dialogue) : Prop where
  /-- Every request that was read has been answered in its turn, but for one that waits for the executor. -/
  standing : Standing limit d.complete d.heard d.served d.said (d.server.connections.get? id)
  /-- Nothing else has been sent. -/
  wrote : d.wrote = d.said.flatMap Utterance.bytes
  first : d.served <+: (Http.requestsOf limit d.heard).1
  hears : ∀ c, d.server.connections.get? id = some c → c.peer = if d.complete then .finished else .present
  /-- A response tells that the connection closes just if the action that sends it closes it. -/
  frank : ∀ c now step response, d.server.connections.get? id = some c → c.step? now id d.server.hub = some step →
    c.utterance now id d.server.hub = .response response →
    (response.header? "Connection" = some "close" ↔ step.connection.isOpen = false)
  /-- Requests are not left waiting by the connection itself. -/
  rests : ∀ now, ∃ n, ∀ c, (d.server.run (List.replicate n (.act id now))).connections.get? id = some c →
    c.Rests (d.server.run (List.replicate n (.act id now))).hub
  /-- When the connection has ended or streams, no more requests are read off it, and all goes on as if nothing more
  had been sent on it. -/
  deaf : (∀ c, d.server.connections.get? id = some c → ∃ session outbox, c.phase = .streaming session outbox) →
    ∀ later, (d.run id later).served = d.served ∧
      (d.run id later).server.hub = ((d.server.mute id).run (later.filter fun move => ¬ move.Feeds id)).hub

theorem Sound.answers (sound : d.Sound limit id) : d.Answers limit id where
  standing := sound.standing
  wrote := sound.wrote
  first := sound.standing.served_first
  hears := sound.hears
  frank := by
    intro c now step response found taken said
    have standing := sound.standing
    rw [found] at standing
    have acted := standing.acts (sound.hears c found) (sound.attended.takes (sound.attended.mem_running found))
      (sound.attended.live id c found)
      (fun config phase => (sound.attended.limit id c config found phase).trans sound.limited) taken
    exact acted.frank response said
  rests := by
    intro now
    obtain ⟨n, idle⟩ := d.server.comes_to_rest id now
    refine ⟨n, fun c found => ?_⟩
    rw [stepOf?, found, Option.bind_some] at idle
    exact Connection.rests_of_step? idle
  deaf := by
    intro streams later
    have hungUp : d.server.HungUp id := ⟨sound.begun, streams⟩
    have same := congrArg Server.hub (hungUp.run_muted later)
    refine ⟨served_run hungUp later, ?_⟩
    rw [server_run]
    exact same.symm

end Dialogue

/-- Whatever a server has done so far: when something connects to it while it runs, then as long as it goes on running,
the other side reads what is written and nobody waits for too long, every request is answered once and in its turn, until
the connection ends or turns into an event stream. -/
theorem each_request_answered_once {config : Config} {info : ServerInfo} {before moves : List Move} {s : Server}
    (reached : (ofConfig config info).run before = s) (running : s.isRunning)
    (spares : ∀ move ∈ moves, move.Spares s.nextConnection) :
    ((Dialogue.begin s).run s.nextConnection moves).Answers config.maxBodyBytes s.nextConnection := by
  have attended : s.Attended := reached ▸ (Attended.initial config info).run_preserves before
  have limit : s.hub.config.maxBodyBytes = config.maxBodyBytes :=
    reached ▸ (ofConfig config info).maxBodyBytes_run before
  have begun := Dialogue.begin_sound attended running
  rw [limit] at begun
  exact (begun.run_preserves spares).answers

private def opened : Server := (ofConfig {} {}).run [.start .ok 0]

private def threeSent : List Move :=
  [.arrive 1 (Text.utf8 "GET /health HTTP/1.1\r\n\r\nGET /health HTTP/1.1\r\nConnection: close\r\n\r\nDELETE /mcp HTTP/1.1\r\n\r\n"),
    .act 1 0, .act 1 0, .act 1 0]

theorem each_request_answered_once_pipelined :
    opened.isRunning ∧ ((Dialogue.begin opened).run 1 threeSent).Answers ({} : Config).maxBodyBytes 1 ∧
      ((Dialogue.begin opened).run 1 threeSent).served.map (·.path) = ["/health", "/health"] ∧
      ((Dialogue.begin opened).run 1 threeSent).server.connections.get? 1 = none := by
  have running : opened.isRunning := by decide +kernel
  have spares : ∀ move ∈ threeSent, move.Spares opened.nextConnection := by
    simp [threeSent, Move.Spares]
  refine ⟨running, each_request_answered_once rfl running spares, ?_, ?_⟩
  · decide +kernel
  · decide +kernel

end ToolBridge.Server

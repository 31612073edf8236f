import ToolBridge.Proofs.LongerInput
import ToolBridge.Proofs.SingleConnection
import ToolBridge.Proofs.StreamOutboxes

/-! A connection that is let act comes to rest: each action takes something from what has arrived, collects an answer,
empties the outbox of a stream, or is the last. At rest a connection waits for the other side, for the executor or for
something to stream. -/

namespace ToolBridge.Server

namespace Connection
variable {now : Int} {id : Nat} {config : Config} {c : Connection} {h : Hub} {step : Step}

def Rests (c : Connection) (h : Hub) : Prop :=
  match c.phase with
  | .reading config => c.peer = .present ∧ ∃ atEnd, Http.readRequest config.maxBodyBytes c.inbox = .more atEnd
  | .parked ticket _ _ => h.slots.slots.get? ticket = some .waiting
  | .streaming _ outbox => c.peer = .present ∧ (h.streams.outboxes.receive outbox).1 = .empty
  | .closed => True

theorem rests_of_step? (idle : c.step? now id h = none) : c.Rests h := by
  unfold step? at idle
  unfold Rests
  cases phase : c.phase with
  | reading config =>
    simp only [phase] at idle
    unfold stepReading at idle
    split at idle
    · cases idle
    split at idle
    · cases idle
    · cases idle
    next atEnd read =>
      split at idle
      next present => exact ⟨present, atEnd, read⟩
      next => cases idle
  | parked ticket keepAlive headers =>
    simp only [phase] at idle
    unfold stepParked at idle
    split at idle
    next slots polled =>
      unfold Queue.Slots.poll at polled
      split at polled
      · cases polled
      · assumption
      · cases polled
    next => cases idle
  | streaming session outbox =>
    simp only [phase] at idle
    unfold stepStreaming at idle
    split at idle
    · simp only at idle
      split at idle <;> cases idle
    · cases idle
    next received =>
      split at idle
      · cases idle
      next present => exact ⟨not_not.mp present, by rw [received]⟩
  | closed => trivial

/-! How much a connection has to do: to answer what has arrived, and then to stream. -/

def toAnswer (c : Connection) : Nat :=
  match c.phase with
  | .reading _ => 2 * c.inbox.length + 2
  | .parked _ _ _ => 2 * c.inbox.length + 3
  | .streaming _ _ => 1
  | .closed => 0

def toStream (c : Connection) (h : Hub) : Nat :=
  match c.phase with
  | .streaming _ outbox => (h.streams.outboxes.frames outbox).length + if c.inbox = [] then 0 else 1
  | _ => 0

theorem nextRequest?_length {limit : Nat} {r : Http.Request} {rest : Bytes}
    (next : c.nextRequest? limit = some (r, rest)) : rest.length < c.inbox.length := by
  unfold nextRequest? at next
  split at next
  · cases next
  split at next
  next read =>
    cases next
    exact (Http.readRequest_length read).2
  next read =>
    split at next
    · cases next
    · cases next
      rw [List.length_nil, List.length_pos_iff]
      intro nothing
      rw [nothing, Http.readRequest_nil] at read
      cases read
  · cases next

theorem toAnswer_respond (response : Http.Response) (close : Bool) :
    (c.respond response close h).connection.toAnswer ≤ 2 * c.inbox.length + 2 := by
  unfold respond
  generalize (if close then response.withHeader "Connection" "close" else response) = response
  simp only
  split
  · exact Nat.zero_le _
  · rw [toAnswer, inbox_write]

theorem toAnswer_serve (now : Int) (id : Nat) (config : Config) (r : Http.Request) (c : Connection) (h : Hub) :
    (c.serve now id config r h).connection.toAnswer ≤ 2 * c.inbox.length + 3 := by
  unfold serve
  split
  · exact Nat.le_succ_of_le (toAnswer_respond ..)
  · exact Nat.le_refl _
  · simp only
    split
    · exact Nat.le_add_left 1 _
    · exact Nat.zero_le _

private theorem stepStreaming_less {session : String} {outbox : Nat} (phase : c.phase = .streaming session outbox)
    (taken : c.stepStreaming now id session outbox h = some step) : step.connection.toAnswer < c.toAnswer ∨
    step.connection.toAnswer = c.toAnswer ∧ step.connection.toStream step.hub < c.toStream h := by
  have ended : 0 < c.toAnswer := by
    rw [toAnswer, phase]
    exact Nat.zero_lt_one
  cases stepStreaming_cases taken with
  | @writes frame outboxes received =>
    have result := h.streams.outboxes.received outbox
    rw [received] at result
    rcases result with ⟨_, rest, found, _, _, after⟩ | ⟨_, nothing, _⟩
    · refine Or.inr ⟨by simp only [toAnswer, phase_write, phase], ?_⟩
      have fewer : outboxes.frames outbox = rest := (after outbox).trans (if_pos rfl)
      simp only [toStream, phase_write, inbox_write, phase, Hub.touch, fewer, found, List.length_cons]
      omega
    · exact absurd rfl (nothing frame)
  | fails | ends | gives => exact Or.inl ended
  | drops _ _ arrived =>
    refine Or.inr ⟨by simp only [toAnswer, phase], ?_⟩
    simp only [toStream, phase, if_neg arrived, if_true]
    exact Nat.lt_succ_self _

theorem step_less (taken : c.step? now id h = some step) : step.connection.toAnswer < c.toAnswer ∨
    step.connection.toAnswer = c.toAnswer ∧ step.connection.toStream step.hub < c.toStream h := by
  rcases step?_cases taken with ⟨config, phase, taken⟩ | ⟨_, _, _, phase, taken⟩ | ⟨_, _, phase, taken⟩
  · refine Or.inl ?_
    rw [toAnswer.eq_def c, phase]
    rcases stepReading_cases taken with ⟨r, rest, next, rfl⟩ | ⟨_, closed, _⟩
    · have shorter := nextRequest?_length next
      have left := toAnswer_serve now id config r { c with inbox := rest } h
      dsimp only at left ⊢
      omega
    · rw [toAnswer, closed]
      exact Nat.zero_lt_succ _
  · refine Or.inl ?_
    rw [toAnswer.eq_def c, phase]
    obtain ⟨slot, slots, _, _, rfl⟩ := stepParked_cases taken
    exact Nat.lt_succ_of_le (toAnswer_respond ..)
  · exact stepStreaming_less phase taken

end Connection

theorem apply_less {s : Server} {id : Nat} {now : Int} {step : Step} (taken : s.stepOf? now id = some step) :
    Prod.Lex (· < ·) (· < ·)
      (((s.apply id step).connections.get? id).elim 0 Connection.toAnswer,
        ((s.apply id step).connections.get? id).elim 0 (·.toStream (s.apply id step).hub))
      ((s.connections.get? id).elim 0 Connection.toAnswer, (s.connections.get? id).elim 0 (·.toStream s.hub)) := by
  obtain ⟨c, found, taken⟩ := Option.bind_eq_some_iff.mp taken
  have less := Connection.step_less taken
  rw [get?_apply, if_pos rfl, found, Option.elim_some, Option.elim_some, Step.current]
  split
  next open_ =>
    rcases less with fewer | ⟨same, fewer⟩
    · exact .left _ _ fewer
    · rw [Option.elim_some, Option.elim_some, same]
      exact .right _ fewer
  next shut =>
    have phase : step.connection.phase = .closed := by simpa [Connection.isOpen] using shut
    have nothing : step.connection.toAnswer = 0 := by rw [Connection.toAnswer, phase]
    rcases less with fewer | ⟨same, fewer⟩
    · exact .left _ _ (nothing ▸ fewer)
    · rw [← same, nothing]
      exact .right _ (Nat.lt_of_le_of_lt (Nat.zero_le _) fewer)

/-- A connection that is let act often enough comes to rest. -/
theorem comes_to_rest (s : Server) (id : Nat) (now : Int) :
    ∃ n, (s.run (List.replicate n (.act id now))).stepOf? now id = none := by
  match taken : s.stepOf? now id with
  | none => exact ⟨0, taken⟩
  | some step =>
    have less := s.apply_less taken
    have acted : s.perform (.act id now) = s.apply id step := by simp only [perform, taken]
    obtain ⟨n, rest⟩ := comes_to_rest (s.apply id step) id now
    refine ⟨n + 1, ?_⟩
    rw [List.replicate_succ, run, List.foldl_cons, acted]
    exact rest
termination_by ((s.connections.get? id).elim 0 Connection.toAnswer, (s.connections.get? id).elim 0 (·.toStream s.hub))
decreasing_by exact less

end ToolBridge.Server

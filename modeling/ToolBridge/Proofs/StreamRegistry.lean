import ToolBridge.Proofs.StreamOutboxes
import ToolBridge.Stream.Registry

/-! What each operation of the registry does to its connections, its waiting replies and its
outboxes. Nothing is assumed about the registry here; that its maps agree is a matter of
`StreamConsistency`. -/

namespace ToolBridge.Stream
open EventStream (Frame)

/-- Replies under the event ids that follow `last`. -/
def numbered (last : Nat) : List String → List Frame
  | [] => []
  | data :: rest => .message (last + 1) data :: numbered (last + 1) rest

theorem numbered_data (last : Nat) (waiting : List String) :
    (numbered last waiting).map (·.data) = waiting := by
  induction waiting generalizing last with
  | nil => rfl
  | cons data rest ih => simpa [numbered, Frame.message] using ih (last + 1)

theorem length_numbered (last : Nat) (waiting : List String) : (numbered last waiting).length = waiting.length := by
  rw [← numbered_data last waiting, List.length_map, numbered_data]

theorem numbered_append (last : Nat) (first second : List String) :
    numbered last (first ++ second) = numbered last first ++ numbered (last + first.length) second := by
  induction first generalizing last with
  | nil => rfl
  | cons data rest ih =>
    simp only [List.cons_append, numbered, ih, List.length_cons]
    rw [show last + 1 + rest.length = last + (rest.length + 1) by omega]

theorem numbered_messages (last : Nat) (waiting : List String) :
    ∀ frame ∈ numbered last waiting, frame.event = some "message" := by
  induction waiting generalizing last with
  | nil => simp [numbered]
  | cons data rest ih =>
    intro frame member
    rcases List.mem_cons.mp member with rfl | later
    · rfl
    · exact ih (last + 1) frame later

namespace Registry

variable (r : Registry)

/-! ## Taking a connection out -/

theorem remove_found (connection : Nat) : (r.remove connection).1 =
    (r.connections.get? connection).map fun c => { c with active := false } := by
  unfold remove
  split <;> simp_all

theorem remove_absent {connection : Nat} (absent : r.connections.get? connection = none) :
    (r.remove connection).2 = r := by
  simp [remove, absent]

theorem connections_remove (connection other : Nat) : (r.remove connection).2.connections.get? other =
    if other = connection then none else r.connections.get? other := by
  unfold remove
  split
  next absent =>
    split
    next same => subst same; exact absent
    next => rfl
  next => simp only [Entries.get?_erase, eq_comm (a := other)]

theorem remove_subset (connection other : Nat) {c : Connection}
    (found : (r.remove connection).2.connections.get? other = some c) : r.connections.get? other = some c := by
  rw [connections_remove] at found
  split at found
  · cases found
  · exact found

theorem pending_remove (connection : Nat) : (r.remove connection).2.pending = r.pending := by
  unfold remove
  split <;> rfl

theorem made_remove (connection : Nat) : (r.remove connection).2.outboxes.made = r.outboxes.made := by
  unfold remove
  split
  · rfl
  · exact Outboxes.made_endFeed ..

theorem frames_remove (connection box : Nat) :
    (r.remove connection).2.outboxes.frames box = r.outboxes.frames box := by
  unfold remove
  split
  · rfl
  · exact Outboxes.frames_endFeed ..

theorem readable_remove (connection box : Nat) :
    (r.remove connection).2.outboxes.Readable box ↔ r.outboxes.Readable box := by
  unfold remove
  split
  · rfl
  · exact Outboxes.readable_endFeed ..

theorem boxes_remove {connection box : Nat}
    (apart : ∀ c, r.connections.get? connection = some c → box ≠ c.outbox) :
    (r.remove connection).2.outboxes.boxes.get? box = r.outboxes.boxes.get? box := by
  unfold remove
  split
  · rfl
  next c found => exact Outboxes.boxes_endFeed _ _ _ (apart c found)

/-- The stream that replies of a session go to. -/
def stream? (session : String) (r : Registry) : Option Connection :=
  (r.current.get? session).bind r.connections.get?

theorem stream?_remove (connection : Nat) (session : String) :
    (r.remove connection).2.stream? session =
      if r.current.get? session = some connection then none else r.stream? session := by
  cases open_ : r.connections.get? connection with
  | none =>
    rw [remove_absent r open_]
    split
    next named => simp [stream?, named, open_]
    next => rfl
  | some c =>
    have current : (r.remove connection).2.current.get? session = r.current.get? session ∨
        r.current.get? session = some connection ∧ (r.remove connection).2.current.get? session = none := by
      simp only [remove, open_]
      split
      next named =>
        rw [Entries.get?_erase]
        split
        next same => exact Or.inr ⟨same ▸ named, rfl⟩
        next => exact Or.inl rfl
      next => exact Or.inl rfl
    rcases current with same | ⟨named, gone⟩
    · rw [stream?, same]
      cases seen : r.current.get? session with
      | none => simp [stream?, seen]
      | some other =>
        simp only [stream?, seen, Option.bind_some, connections_remove, Option.some.injEq]
    · rw [stream?, gone, if_pos named, Option.bind_none]

/-! ## Waiting replies -/

theorem pendingOf_setPending (session other : String) (waiting : List String) :
    (r.setPending session waiting).pendingOf other =
      if other = session then waiting else r.pendingOf other := by
  unfold setPending pendingOf
  split
  next empty =>
    simp only [Entries.get?_erase, eq_comm (a := other)]
    split
    · simpa using (List.isEmpty_iff.mp empty).symm
    · rfl
  next =>
    simp only [Entries.get?_put, eq_comm (a := other)]
    split <;> rfl

theorem pendingOf_congr {first second : Registry} (same : first.pending = second.pending) (session : String) :
    first.pendingOf session = second.pendingOf session := by
  simp only [pendingOf, same]

theorem connections_setPending (session : String) (waiting : List String) :
    (r.setPending session waiting).connections = r.connections := rfl

theorem current_setPending (session : String) (waiting : List String) :
    (r.setPending session waiting).current = r.current := rfl

theorem outboxes_setPending (session : String) (waiting : List String) :
    (r.setPending session waiting).outboxes = r.outboxes := rfl

/-! ## Putting replies into an outbox -/

theorem push?_eq_some {c after : Connection} {data : String} {o outboxes : Outboxes} :
    push? c data o = some (after, outboxes) ↔
      c.last < lastId ∧ after = { c with last := c.last + 1 } ∧
        o.send? c.outbox (.message (c.last + 1) data) = some outboxes := by
  unfold push?
  split
  next below =>
    simp only [Option.map_eq_some_iff, Prod.mk.injEq, below, true_and]
    constructor
    · rintro ⟨_, sent, same, rfl⟩
      exact ⟨same.symm, sent⟩
    · rintro ⟨rfl, sent⟩
      exact ⟨outboxes, sent, rfl, rfl⟩
  next above => simp [above]

theorem push?_isSome {c : Connection} (data : String) {o : Outboxes} :
    (push? c data o).isSome ↔ c.last < lastId ∧ o.Readable c.outbox := by
  unfold push?
  split
  next below => simpa [below] using Outboxes.send?_isSome o c.outbox _
  next above => simp [above]

/-- A flush puts in a first part of what waits, under ids without gaps, and stops early only where
no id is left. -/
structure Flushed (c : Connection) (o : Outboxes) (waiting sent : List String)
    (after : Connection) (outboxes : Outboxes) (left : List String) : Prop where
  divided : waiting = sent ++ left
  stopped : left ≠ [] → lastId ≤ c.last + sent.length
  within : c.last ≤ lastId → c.last + sent.length ≤ lastId
  connection : after = { c with last := c.last + sent.length }
  frames : ∀ box, outboxes.frames box =
    if box = c.outbox then o.frames c.outbox ++ numbered c.last sent else o.frames box
  made : outboxes.made = o.made
  readable : ∀ box, outboxes.Readable box ↔ o.Readable box

private theorem Flushed.nothing {c : Connection} {waiting : List String} (o : Outboxes)
    (spent : waiting ≠ [] → lastId ≤ c.last) : Flushed c o waiting [] c o waiting := by
  refine ⟨rfl, fun waits => by simpa using spent waits, by simp, rfl, ?_, rfl, fun _ => Iff.rfl⟩
  intro box
  split
  next same => subst same; simp [numbered]
  next => rfl

private theorem Flushed.cons {c after : Connection} {o next outboxes : Outboxes} {data : String}
    {rest sent left : List String} (below : c.last < lastId)
    (pushed : o.send? c.outbox (.message (c.last + 1) data) = some next)
    (flushed : Flushed { c with last := c.last + 1 } next rest sent after outboxes left) :
    Flushed c o (data :: rest) (data :: sent) after outboxes left := by
  refine ⟨?_, ?_, ?_, ?_, ?_, ?_, ?_⟩
  · rw [List.cons_append, ← flushed.divided]
  · intro remains
    have spent := flushed.stopped remains
    simp only [List.length_cons] at spent ⊢
    omega
  · intro _
    have within := flushed.within below
    simp only [List.length_cons] at within ⊢
    omega
  · rw [flushed.connection]
    simp only [List.length_cons, Connection.mk.injEq, true_and, and_true]
    omega
  · intro box
    rw [flushed.frames, Outboxes.frames_sent _ pushed, Outboxes.frames_sent _ pushed]
    split
    · simp [numbered]
    · rfl
  · rw [flushed.made, Outboxes.made_sent pushed]
  · intro box
    rw [flushed.readable, Outboxes.readable_sent _ pushed]

theorem flush_flushed (c : Connection) (o : Outboxes) (count : Nat) (waiting : List String)
    (readable : o.Readable c.outbox) :
    ∃ sent, Flushed c o waiting sent (flush c o count waiting).1 (flush c o count waiting).2.1
      (flush c o count waiting).2.2.1 ∧ (flush c o count waiting).2.2.2 = count + sent.length := by
  induction waiting generalizing c o count with
  | nil => exact ⟨[], .nothing o (absurd rfl), rfl⟩
  | cons data rest ih =>
    cases pushed : push? c data o with
    | none =>
      have spent : lastId ≤ c.last := by
        apply Nat.le_of_not_lt
        intro below
        have put := (push?_isSome data).mpr ⟨below, readable⟩
        simp [pushed] at put
      simp only [flush, pushed]
      exact ⟨[], .nothing o fun _ => spent, rfl⟩
    | some pair =>
      obtain ⟨next, outboxes⟩ := pair
      obtain ⟨below, rfl, sent⟩ := push?_eq_some.mp pushed
      obtain ⟨tail, flushed, counted⟩ := ih { c with last := c.last + 1 } outboxes (count + 1)
        ((Outboxes.readable_sent _ sent).mpr readable)
      simp only [flush, pushed]
      refine ⟨data :: tail, flushed.cons below sent, ?_⟩
      rw [counted, List.length_cons]
      omega

theorem resumePoint_le (resume : Option Int) : resumePoint resume ≤ lastId := by
  unfold resumePoint
  split
  · split <;> omega
  · omega

/-! ## Opening a stream -/

def cleared (connection : Nat) (session : String) (r : Registry) : Registry :=
  match (r.current.get? session).filter (· ≠ connection) with
  | some old => (r.remove old).2
  | none => r

theorem cleared_cases (connection : Nat) (session : String) :
    (∃ old, r.current.get? session = some old ∧ old ≠ connection ∧
      r.cleared connection session = (r.remove old).2) ∨
    ((∀ old, r.current.get? session = some old → old = connection) ∧ r.cleared connection session = r) := by
  unfold cleared
  cases seen : r.current.get? session with
  | none => exact Or.inr ⟨by simp, rfl⟩
  | some old =>
    by_cases same : old = connection
    · exact Or.inr ⟨by simp [same], by simp [Option.filter, same]⟩
    · exact Or.inl ⟨old, rfl, same, by simp [Option.filter, same]⟩

theorem connections_cleared {connection other : Nat} (session : String) (different : other ≠ connection) :
    (r.cleared connection session).connections.get? other =
      if r.current.get? session = some other then none else r.connections.get? other := by
  rcases r.cleared_cases connection session with ⟨old, seen, _, same⟩ | ⟨only, same⟩
  · rw [same, connections_remove, seen]
    simp only [Option.some.injEq, eq_comm (a := other)]
  · rw [same]
    split
    next seen => exact absurd (only other seen) different
    next => rfl

theorem pending_cleared (connection : Nat) (session : String) :
    (r.cleared connection session).pending = r.pending := by
  rcases r.cleared_cases connection session with ⟨old, _, _, same⟩ | ⟨_, same⟩ <;> rw [same]
  exact r.pending_remove old

theorem made_cleared (connection : Nat) (session : String) :
    (r.cleared connection session).outboxes.made = r.outboxes.made := by
  rcases r.cleared_cases connection session with ⟨old, _, _, same⟩ | ⟨_, same⟩ <;> rw [same]
  exact r.made_remove old

theorem frames_cleared (connection : Nat) (session : String) (box : Nat) :
    (r.cleared connection session).outboxes.frames box = r.outboxes.frames box := by
  rcases r.cleared_cases connection session with ⟨old, _, _, same⟩ | ⟨_, same⟩ <;> rw [same]
  exact r.frames_remove old box

theorem readable_cleared (connection : Nat) (session : String) (box : Nat) :
    (r.cleared connection session).outboxes.Readable box ↔ r.outboxes.Readable box := by
  rcases r.cleared_cases connection session with ⟨old, _, _, same⟩ | ⟨_, same⟩ <;> rw [same]
  exact r.readable_remove old box

/-- Opening a stream makes an outbox and moves a first part of what waits for the session into it. -/
structure Opened (connection : Nat) (session : String) (resume : Option Int) (sent left : List String)
    (result : Registration) (after : Registry) : Prop where
  divided : r.pendingOf session = sent ++ left
  stopped : left ≠ [] → lastId ≤ resumePoint resume + sent.length
  within : resumePoint resume + sent.length ≤ lastId
  outbox : result.outbox = r.outboxes.made + 1
  superseded : result.superseded = (r.current.get? session).filter (· ≠ connection)
  flushed : result.flushed = sent.length
  connections : ∀ other, after.connections.get? other =
    if other = connection then
      some { session, last := resumePoint resume + sent.length, outbox := r.outboxes.made + 1 }
    else if r.current.get? session = some other then none else r.connections.get? other
  current : ∀ other, after.current.get? other =
    if other = session then some connection else (r.cleared connection session).current.get? other
  pending : after.pending = (r.setPending session left).pending
  made : after.outboxes.made = r.outboxes.made + 1
  frames : ∀ box, after.outboxes.frames box =
    if box = r.outboxes.made + 1 then numbered (resumePoint resume) sent else r.outboxes.frames box
  readable : ∀ box, after.outboxes.Readable box ↔ box = r.outboxes.made + 1 ∨ r.outboxes.Readable box

theorem Opened.pendingOf {connection : Nat} {session : String} {resume : Option Int} {sent left : List String}
    {result : Registration} {after : Registry} (opened : r.Opened connection session resume sent left result after)
    (other : String) : after.pendingOf other = if other = session then left else r.pendingOf other := by
  rw [pendingOf_congr opened.pending, pendingOf_setPending]

/-- An earlier connection of the same number only loses the feed of its outbox. -/
def endEarlier (connection : Nat) (r : Registry) (o : Outboxes) : Outboxes :=
  match r.connections.get? connection with
  | some earlier => o.endFeed earlier.outbox
  | none => o

theorem made_endEarlier (connection : Nat) (o : Outboxes) : (r.endEarlier connection o).made = o.made := by
  unfold endEarlier
  split
  · exact Outboxes.made_endFeed ..
  · rfl

theorem frames_endEarlier (connection : Nat) (o : Outboxes) (box : Nat) :
    (r.endEarlier connection o).frames box = o.frames box := by
  unfold endEarlier
  split
  · exact Outboxes.frames_endFeed ..
  · rfl

theorem readable_endEarlier (connection : Nat) (o : Outboxes) (box : Nat) :
    (r.endEarlier connection o).Readable box ↔ o.Readable box := by
  unfold endEarlier
  split
  · exact Outboxes.readable_endFeed ..
  · rfl

theorem register_opened (connection : Nat) (session : String) (resume : Option Int) :
    ∃ sent left, r.Opened connection session resume sent left
      (r.register connection session resume).1 (r.register connection session resume).2 := by
  let base := r.cleared connection session
  let fresh : Connection := { session, last := resumePoint resume, outbox := base.outboxes.made + 1 }
  have numberedBox : base.outboxes.made = r.outboxes.made := r.made_cleared connection session
  obtain ⟨sent, flushed, counted⟩ := flush_flushed fresh base.outboxes.make.2 0 (base.pendingOf session)
    ((base.outboxes.readable_make _).mpr (Or.inl rfl))
  have result : r.register connection session resume =
      (⟨base.outboxes.made + 1, (r.current.get? session).filter (· ≠ connection),
        (flush fresh base.outboxes.make.2 0 (base.pendingOf session)).2.2.2⟩,
      { base.setPending session (flush fresh base.outboxes.make.2 0 (base.pendingOf session)).2.2.1 with
        connections := base.connections.put connection
          (flush fresh base.outboxes.make.2 0 (base.pendingOf session)).1
        current := base.current.put session connection
        outboxes := base.endEarlier connection
          (flush fresh base.outboxes.make.2 0 (base.pendingOf session)).2.1 }) := rfl
  rw [result]
  generalize flush fresh base.outboxes.make.2 0 (base.pendingOf session) = outcome at flushed counted
  obtain ⟨c, outboxes, left, count⟩ := outcome
  dsimp only at flushed counted
  refine ⟨sent, left, ?_⟩
  constructor
  · rw [← flushed.divided, pendingOf_congr (r.pending_cleared connection session)]
  · exact flushed.stopped
  · exact flushed.within (resumePoint_le resume)
  · simp only [numberedBox]
  · rfl
  · simpa using counted
  · intro other
    simp only [Entries.get?_put, eq_comm (a := connection)]
    split
    next => simp only [flushed.connection, fresh, numberedBox]
    next different => exact r.connections_cleared session different
  · intro other
    simp only [Entries.get?_put, eq_comm (a := session)]
    rfl
  · simp only [setPending, base, r.pending_cleared]
  · simp only [base.made_endEarlier, flushed.made, Outboxes.made_make, numberedBox]
  · intro box
    simp only [base.frames_endEarlier, flushed.frames, Outboxes.frames_make, fresh, numberedBox]
    split
    · simp
    · exact r.frames_cleared connection session box
  · intro box
    simp only [base.readable_endEarlier, flushed.readable, Outboxes.readable_make, numberedBox]
    rw [r.readable_cleared connection session box]

/-! ## Delivering -/

/-- The registry after a session has lost its stream. -/
def withoutStream (session : String) (r : Registry) : Registry :=
  match r.current.get? session with
  | some connection => (r.remove connection).2
  | none => r

theorem connections_withoutStream (session : String) (other : Nat) :
    (r.withoutStream session).connections.get? other =
      if r.current.get? session = some other then none else r.connections.get? other := by
  unfold withoutStream
  split
  next connection seen =>
    rw [connections_remove]
    simp only [seen, Option.some.injEq, eq_comm (a := other)]
  next absent => simp [absent]

theorem withoutStream_subset (session : String) (other : Nat) {c : Connection}
    (found : (r.withoutStream session).connections.get? other = some c) : r.connections.get? other = some c := by
  rw [connections_withoutStream] at found
  split at found
  · cases found
  · exact found

theorem pending_withoutStream (session : String) : (r.withoutStream session).pending = r.pending := by
  unfold withoutStream
  split
  · exact pending_remove ..
  · rfl

theorem made_withoutStream (session : String) : (r.withoutStream session).outboxes.made = r.outboxes.made := by
  unfold withoutStream
  split
  · exact made_remove ..
  · rfl

theorem frames_withoutStream (session : String) (box : Nat) :
    (r.withoutStream session).outboxes.frames box = r.outboxes.frames box := by
  unfold withoutStream
  split
  · exact frames_remove ..
  · rfl

theorem readable_withoutStream (session : String) (box : Nat) :
    (r.withoutStream session).outboxes.Readable box ↔ r.outboxes.Readable box := by
  unfold withoutStream
  split
  · exact readable_remove ..
  · rfl

theorem boxes_withoutStream {session : String} {box : Nat}
    (apart : ∀ connection c, r.current.get? session = some connection → r.connections.get? connection = some c →
      box ≠ c.outbox) : (r.withoutStream session).outboxes.boxes.get? box = r.outboxes.boxes.get? box := by
  unfold withoutStream
  split
  next connection seen => exact r.boxes_remove fun c found => apart connection c seen found
  · rfl

theorem stream?_withoutStream (session : String) : (r.withoutStream session).stream? session = none := by
  unfold withoutStream
  split
  next connection seen => rw [stream?_remove, if_pos seen]
  next absent => simp [stream?, absent]

theorem withoutStream_idle {session : String} (idle : r.stream? session = none) :
    r.withoutStream session = r := by
  unfold withoutStream
  split
  next connection seen =>
    apply remove_absent
    simpa [stream?, seen] using idle
  next => rfl

/-- A reply that no stream takes waits behind those that do already. -/
theorem pendingOf_buffered (session other data : String) :
    ((r.withoutStream session).buffer session data).pendingOf other =
      if other = session then r.pendingOf session ++ [data] else r.pendingOf other := by
  rw [buffer, pendingOf_setPending, pendingOf_congr (r.pending_withoutStream session),
    pendingOf_congr (r.pending_withoutStream session)]

/-- The session's stream can take one more reply. -/
def Accepts (session : String) (connection : Nat) (c : Connection) : Prop :=
  r.current.get? session = some connection ∧ r.connections.get? connection = some c ∧
    c.last < lastId ∧ r.outboxes.Readable c.outbox ∧ c.active = true

/-- A reply goes into an outbox under the next id of its connection; all else stays. -/
structure Streamed (connection : Nat) (c : Connection) (data : String) (after : Registry) : Prop where
  connections : ∀ other, after.connections.get? other =
    if other = connection then some { c with last := c.last + 1 } else r.connections.get? other
  current : after.current = r.current
  pending : after.pending = r.pending
  made : after.outboxes.made = r.outboxes.made
  frames : ∀ box, after.outboxes.frames box =
    if box = c.outbox then r.outboxes.frames box ++ [.message (c.last + 1) data] else r.outboxes.frames box
  readable : ∀ box, after.outboxes.Readable box ↔ r.outboxes.Readable box

/-- A reply is streamed where the session's stream can take it, and waits otherwise; a stream that
cannot take it is taken out. -/
theorem deliver_cases (session data : String) :
    (∃ connection c, r.Accepts session connection c ∧
      (r.deliver session data).1 = .streamed connection (c.last + 1) ∧
      r.Streamed connection c data (r.deliver session data).2) ∨
    ((∀ connection c, ¬ r.Accepts session connection c) ∧ (r.deliver session data).1 = .buffered ∧
      (r.deliver session data).2 = (r.withoutStream session).buffer session data) := by
  unfold deliver
  split
  next absent =>
    refine Or.inr ⟨?_, rfl, by simp [withoutStream, absent]⟩
    rintro connection c ⟨seen, _⟩
    simp [absent] at seen
  next connection seen =>
    split
    next c outboxes pushed =>
      obtain ⟨old, found, pushed⟩ := Option.bind_eq_some_iff.mp pushed
      obtain ⟨active, pushed⟩ := Option.ite_none_right_eq_some.mp pushed
      obtain ⟨below, rfl, sent⟩ := push?_eq_some.mp pushed
      have readable : r.outboxes.Readable old.outbox :=
        (Outboxes.send?_isSome ..).mp (Option.isSome_iff_exists.mpr ⟨_, sent⟩)
      refine Or.inl ⟨connection, old, ⟨seen, found, below, readable, active⟩, rfl,
        ⟨?_, rfl, rfl, ?_, ?_, ?_⟩⟩
      · intro other
        simp only [Entries.get?_put, eq_comm (a := connection)]
      · exact Outboxes.made_sent sent
      · intro box
        rw [Outboxes.frames_sent _ sent]
        split
        next same => rw [same]
        next => rfl
      · exact fun box => Outboxes.readable_sent box sent
    next refused =>
      refine Or.inr ⟨?_, rfl, by simp [withoutStream, seen]⟩
      rintro other c ⟨again, found, below, readable, active⟩
      obtain rfl : connection = other := Option.some.inj (seen.symm.trans again)
      have put := (push?_isSome data).mpr ⟨below, readable⟩
      rw [found, Option.bind_some, if_pos active] at refused
      simp [refused] at put

/-! ## Failing and closing -/

def replies (frames : List Frame) : List String := (frames.filter (·.event = some "message")).map (·.data)

theorem fail_absent {connection : Nat} (failed : Option Frame) (box : Nat)
    (absent : r.connections.get? connection = none) : r.fail connection failed box = (none, r) := by
  simp [fail, remove, absent]

/-- What a writer that gives up leaves of the registry. -/
structure Failed (connection : Nat) (c : Connection) (failed : Option Frame) (box : Nat)
    (after : Registry) : Prop where
  connections : after.connections = (r.remove connection).2.connections
  current : after.current = (r.remove connection).2.current
  pending : after.pending = (r.setPending c.session
    (replies (failed.toList ++ r.outboxes.frames box) ++ r.pendingOf c.session)).pending
  made : after.outboxes.made = r.outboxes.made
  frames : ∀ other, after.outboxes.frames other = if other = box then [] else r.outboxes.frames other
  readable : ∀ other, after.outboxes.Readable other ↔ r.outboxes.Readable other

/-- What the writer leaves waits before what waits for the session of its connection. -/
theorem Failed.pendingOf {connection box : Nat} {c : Connection} {failed : Option Frame} {after : Registry}
    (gone : r.Failed connection c failed box after) (session : String) :
    after.pendingOf session = if session = c.session then
      replies (failed.toList ++ r.outboxes.frames box) ++ r.pendingOf c.session else r.pendingOf session := by
  rw [pendingOf_congr gone.pending, pendingOf_setPending]

theorem fail_failed {connection : Nat} {c : Connection} (failed : Option Frame) (box : Nat)
    (found : r.connections.get? connection = some c) :
    (r.fail connection failed box).1 = some { c with active := false } ∧
      r.Failed connection c failed box (r.fail connection failed box).2 := by
  let base := (r.remove connection).2
  have result : r.fail connection failed box =
      (some { c with active := false }, { base with outboxes := (base.outboxes.drain box).2 }.setPending c.session
        (replies (failed.toList ++ (base.outboxes.drain box).1) ++ base.pendingOf c.session)) := by
    simp only [fail, base, remove, found]
    rfl
  rw [result]
  refine ⟨rfl, rfl, rfl, ?_, ?_, ?_, ?_⟩
  · rw [Outboxes.drained, r.frames_remove, pendingOf_congr (r.pending_remove connection)]
    simp only [setPending, base, r.pending_remove]
  · exact (Outboxes.made_drain ..).trans (r.made_remove connection)
  · intro other
    rw [outboxes_setPending, Outboxes.frames_drain, r.frames_remove]
  · intro other
    rw [outboxes_setPending, Outboxes.readable_drain, r.readable_remove]

theorem connections_fail (connection : Nat) (failed : Option Frame) (box other : Nat) :
    (r.fail connection failed box).2.connections.get? other =
      if other = connection then none else r.connections.get? other := by
  rw [← connections_remove]
  cases open_ : r.connections.get? connection with
  | none => rw [fail_absent r failed box open_, remove_absent r open_]
  | some c => rw [(fail_failed r failed box open_).2.connections]

theorem closed_iff {session : String} {connection : Nat} :
    (r.closeSession session).1 = some connection ↔
      r.current.get? session = some connection ∧ (r.connections.get? connection).isSome := by
  unfold closeSession
  simp only [current_setPending]
  cases r.current.get? session with
  | none => simp
  | some named =>
    simp only [remove_found, connections_setPending, Option.map_map, Option.map_eq_some_iff,
      Function.comp_apply, Option.isSome_iff_exists, Option.some.injEq]
    constructor
    · rintro ⟨c, found, rfl⟩
      exact ⟨rfl, c, found⟩
    · rintro ⟨rfl, c, found⟩
      exact ⟨c, found, rfl⟩

theorem closeSession_after (session : String) :
    (r.closeSession session).2 = (r.setPending session []).withoutStream session := by
  unfold closeSession withoutStream
  simp only [current_setPending]
  cases r.current.get? session <;> rfl

theorem frames_closeAll (box : Nat) : r.closeAll.2.outboxes.frames box = r.outboxes.frames box := by
  simp only [closeAll]
  generalize r.outboxes = o
  induction r.connections generalizing o with
  | nil => rfl
  | cons entry rest ih => rw [List.foldl_cons, ih, Outboxes.frames_endFeed]

theorem readable_closeAll (box : Nat) :
    r.closeAll.2.outboxes.Readable box ↔ r.outboxes.Readable box := by
  simp only [closeAll]
  generalize r.outboxes = o
  induction r.connections generalizing o with
  | nil => rfl
  | cons entry rest ih => rw [List.foldl_cons, ih, Outboxes.readable_endFeed]

theorem made_closeAll : r.closeAll.2.outboxes.made = r.outboxes.made := by
  simp only [closeAll]
  generalize r.outboxes = o
  induction r.connections generalizing o with
  | nil => rfl
  | cons entry rest ih => rw [List.foldl_cons, ih, Outboxes.made_endFeed]

end Registry

end ToolBridge.Stream

import ToolBridge.Proofs.StreamRegistry

/-! The maps of a registry agree: a session's entry names the one connection that is open for it.
Replies wait beside an open stream only once it has used up its event ids, which is what keeps later
replies from overtaking them. Every operation preserves this, if no connection is registered for one
session while it is open for another. -/

namespace ToolBridge.Stream.Registry
open EventStream (Frame)

structure Consistent (r : Registry) : Prop where
  current : ∀ session connection, r.current.get? session = some connection ↔
    ∃ c, r.connections.get? connection = some c ∧ c.session = session
  within : ∀ connection c, r.connections.get? connection = some c → c.last ≤ lastId
  spent : ∀ connection c, r.connections.get? connection = some c →
    r.pendingOf c.session ≠ [] → c.last = lastId
  waiting : ∀ session waiting, r.pending.get? session = some waiting → waiting ≠ []
  active : ∀ connection c, r.connections.get? connection = some c → c.active = true
  boxes : ∀ connection c, r.connections.get? connection = some c → c.outbox ≤ r.outboxes.made

def OpenFor (connection : Nat) (session : String) (r : Registry) : Prop :=
  (r.connections.get? connection).map (·.session) = some session

instance (connection : Nat) (session : String) (r : Registry) : Decidable (r.OpenFor connection session) :=
  inferInstanceAs (Decidable (_ = _))

/-- The connection is not open for another session. -/
def Free (r : Registry) (connection : Nat) (session : String) : Prop :=
  ∀ c, r.connections.get? connection = some c → c.session = session

instance (r : Registry) (connection : Nat) (session : String) : Decidable (r.Free connection session) :=
  match found : r.connections.get? connection with
  | none => isTrue (by simp [Free, found])
  | some c => decidable_of_iff (c.session = session) (by simp [Free, found])

namespace Consistent
variable {r : Registry}

theorem initial : Consistent {} := by
  constructor <;> simp [Entries.get?]

theorem found (valid : r.Consistent) {session : String} {connection : Nat}
    (seen : r.current.get? session = some connection) :
    ∃ c, r.connections.get? connection = some c ∧ c.session = session :=
  (valid.current session connection).mp seen

theorem named (valid : r.Consistent) {connection : Nat} {c : Connection}
    (open_ : r.connections.get? connection = some c) : r.current.get? c.session = some connection :=
  (valid.current c.session connection).mpr ⟨c, open_, rfl⟩

theorem only (valid : r.Consistent) {first last : Nat} {c d : Connection}
    (open₁ : r.connections.get? first = some c) (open₂ : r.connections.get? last = some d)
    (same : c.session = d.session) : first = last :=
  Option.some.inj ((valid.named open₁).symm.trans (same ▸ valid.named open₂))

theorem current_remove (valid : r.Consistent) (connection : Nat) (session : String) :
    (r.remove connection).2.current.get? session =
      if r.current.get? session = some connection then none else r.current.get? session := by
  cases open_ : r.connections.get? connection with
  | none =>
    rw [remove_absent r open_]
    split
    next seen =>
      obtain ⟨c, found, _⟩ := valid.found seen
      simp [open_] at found
    next => rfl
  | some c =>
    have named := valid.named open_
    simp only [remove, open_, named, if_true, Entries.get?_erase]
    by_cases same : c.session = session
    · subst same
      simp [named]
    · have other : r.current.get? session ≠ some connection := by
        intro seen
        obtain ⟨d, found, rfl⟩ := valid.found seen
        exact same (by rw [Option.some.inj (open_.symm.trans found)])
      simp [same, other]

/-- Only the maps matter, and how many outboxes there are. -/
theorem congr (valid : r.Consistent) {after : Registry}
    (connections : after.connections = r.connections) (current : after.current = r.current)
    (pending : after.pending = r.pending) (made : r.outboxes.made ≤ after.outboxes.made) :
    after.Consistent := by
  refine ⟨?_, ?_, ?_, ?_, ?_, ?_⟩
  · simpa only [connections, current] using valid.current
  · simpa only [connections] using valid.within
  · simpa only [connections, pendingOf_congr pending] using valid.spent
  · simpa only [pending] using valid.waiting
  · simpa only [connections] using valid.active
  · intro connection c open_
    exact Nat.le_trans (valid.boxes connection c (connections ▸ open_)) made

theorem remove_preserves (valid : r.Consistent) (connection : Nat) : (r.remove connection).2.Consistent := by
  have kept : ∀ {other c}, (r.remove connection).2.connections.get? other = some c →
      other ≠ connection ∧ r.connections.get? other = some c := by
    intro other c open_
    rw [connections_remove] at open_
    split at open_
    · cases open_
    next different => exact ⟨different, open_⟩
  refine ⟨?_, ?_, ?_, ?_, ?_, ?_⟩
  · intro session other
    rw [valid.current_remove, connections_remove]
    by_cases same : other = connection
    · subst other
      simp
    · simp only [same, if_false]
      rw [← valid.current session other]
      split
      next seen => simp [seen, Ne.symm same]
      next => rfl
  · exact fun other c open_ => valid.within other c (kept open_).2
  · intro other c open_
    rw [pendingOf_congr (r.pending_remove connection)]
    exact valid.spent other c (kept open_).2
  · simpa only [pending_remove] using valid.waiting
  · exact fun other c open_ => valid.active other c (kept open_).2
  · intro other c open_
    rw [made_remove]
    exact valid.boxes other c (kept open_).2

theorem withoutStream_preserves (valid : r.Consistent) (session : String) :
    (r.withoutStream session).Consistent := by
  unfold withoutStream
  split
  · exact valid.remove_preserves _
  · exact valid

theorem streamless (valid : r.Consistent) {session : String} {connection : Nat} {c : Connection}
    (open_ : (r.withoutStream session).connections.get? connection = some c) : c.session ≠ session := by
  rintro rfl
  rw [connections_withoutStream] at open_
  split at open_
  · cases open_
  next unnamed => exact unnamed (valid.named open_)

/-- Replies may wait where no stream could have taken them. -/
theorem setPending_preserves (valid : r.Consistent) (session : String) (waiting : List String)
    (blocked : waiting ≠ [] → ∀ connection c, r.connections.get? connection = some c →
      c.session = session → c.last = lastId) : (r.setPending session waiting).Consistent := by
  refine ⟨valid.current, valid.within, ?_, ?_, valid.active, valid.boxes⟩
  · intro connection c open_ waits
    rw [pendingOf_setPending] at waits
    split at waits
    next same => exact blocked waits connection c open_ same
    next => exact valid.spent connection c open_ waits
  · intro other stored found
    simp only [setPending] at found
    split at found
    · rw [Entries.get?_erase] at found
      split at found
      · cases found
      · exact valid.waiting other stored found
    next filled =>
      rw [Entries.get?_put] at found
      split at found
      · cases found
        simpa using filled
      · exact valid.waiting other stored found

/-- A reply takes the next id, which is left only where nothing waits. -/
private theorem streamed_preserves (valid : r.Consistent) {connection : Nat} {c : Connection} {data : String}
    {after : Registry} (open_ : r.connections.get? connection = some c) (below : c.last < lastId)
    (streamed : r.Streamed connection c data after) : after.Consistent := by
  have opened : ∀ {other d}, after.connections.get? other = some d →
      ∃ e, r.connections.get? other = some e ∧ d.session = e.session ∧ d.outbox = e.outbox ∧
        d.active = e.active ∧ (d = e ∨ other = connection ∧ d.last = c.last + 1) := by
    intro other d found
    rw [streamed.connections] at found
    split at found
    next same =>
      cases found
      subst same
      exact ⟨c, open_, rfl, rfl, rfl, Or.inr ⟨rfl, rfl⟩⟩
    next => exact ⟨d, found, rfl, rfl, rfl, Or.inl rfl⟩
  refine ⟨?_, ?_, ?_, ?_, ?_, ?_⟩
  · intro other number
    rw [streamed.current, valid.current, streamed.connections]
    split
    next same =>
      subst same
      simp [open_]
    next => rfl
  · intro other d found
    obtain ⟨e, old, _, _, _, rfl | ⟨rfl, last⟩⟩ := opened found
    · exact valid.within other d old
    · omega
  · intro other d found waits
    rw [pendingOf_congr streamed.pending] at waits
    obtain ⟨e, old, sameSession, _, _, rfl | ⟨rfl, _⟩⟩ := opened found
    · exact valid.spent other d old waits
    · have spent := valid.spent other e old (sameSession ▸ waits)
      rw [open_] at old
      cases old
      omega
  · simpa only [streamed.pending] using valid.waiting
  · intro other d found
    obtain ⟨e, old, _, _, active, _⟩ := opened found
    exact active.trans (valid.active other e old)
  · intro other d found
    obtain ⟨e, old, _, sameBox, _⟩ := opened found
    rw [streamed.made, sameBox]
    exact valid.boxes other e old

theorem deliver_preserves (valid : r.Consistent) (session data : String) :
    (r.deliver session data).2.Consistent := by
  rcases r.deliver_cases session data with ⟨connection, c, ⟨_, open_, below, _⟩, _, streamed⟩ | ⟨_, _, same⟩
  · exact valid.streamed_preserves open_ below streamed
  · rw [same]
    apply (valid.withoutStream_preserves session).setPending_preserves
    intro _ connection c open_ sameSession
    exact absurd sameSession (valid.streamless open_)

theorem fail_preserves (valid : r.Consistent) (connection : Nat) (failed : Option Frame) (box : Nat) :
    (r.fail connection failed box).2.Consistent := by
  cases open_ : r.connections.get? connection with
  | none => rw [fail_absent r failed box open_]; exact valid
  | some c =>
    obtain ⟨_, after⟩ := fail_failed r failed box open_
    have blocked := (valid.remove_preserves connection).setPending_preserves c.session
      (replies (failed.toList ++ r.outboxes.frames box) ++ r.pendingOf c.session) (by
        intro _ other d found same
        rw [connections_remove] at found
        split at found
        · cases found
        next different => exact absurd (valid.only found open_ same) different)
    refine blocked.congr after.connections after.current ?_ ?_
    · simp only [after.pending, setPending, pending_remove]
    · exact Nat.le_of_eq ((r.made_remove connection).trans after.made.symm)

theorem closeSession_preserves (valid : r.Consistent) (session : String) :
    (r.closeSession session).2.Consistent := by
  rw [closeSession_after]
  exact (valid.setPending_preserves session [] (by simp)).withoutStream_preserves session

theorem closeAll_preserves : r.closeAll.2.Consistent := by
  constructor <;> simp [closeAll, pendingOf, Entries.get?]

/-- Under consistent maps a new stream clears exactly the one that its session had. -/
theorem current_cleared (valid : r.Consistent) (connection : Nat) {session other : String}
    (different : other ≠ session) :
    (r.cleared connection session).current.get? other = r.current.get? other := by
  rcases r.cleared_cases connection session with ⟨old, seen, _, same⟩ | ⟨_, same⟩
  · rw [same, valid.current_remove]
    split
    next named =>
      obtain ⟨c, found, rfl⟩ := valid.found seen
      obtain ⟨d, again, rfl⟩ := valid.found named
      rw [found] at again
      cases again
      exact absurd rfl different
    next => rfl
  · rw [same]

section Registering
variable {connection : Nat} {session : String} {resume : Option Int} {sent left : List String}
  {result : Registration} {after : Registry}

/-- What is open after a new stream: the stream itself, and what other sessions had. -/
theorem open_after (valid : r.Consistent) (opened : r.Opened connection session resume sent left result after)
    {other : Nat} {c : Connection} (found : after.connections.get? other = some c) :
    (other = connection ∧
      c = { session, last := resumePoint resume + sent.length, outbox := r.outboxes.made + 1 }) ∨
    (other ≠ connection ∧ r.connections.get? other = some c ∧ c.session ≠ session) := by
  rw [opened.connections] at found
  split at found
  next same =>
    cases found
    exact Or.inl ⟨same, rfl⟩
  next different =>
    split at found
    · cases found
    next unnamed =>
      refine Or.inr ⟨different, found, ?_⟩
      rintro rfl
      exact unnamed (valid.named found)

theorem opened_current (valid : r.Consistent)
    (opened : r.Opened connection session resume sent left result after) (other : String) :
    after.current.get? other = if other = session then some connection else r.current.get? other := by
  rw [opened.current]
  split
  · rfl
  next different => exact valid.current_cleared connection different

/-- A connection that is not open supersedes whatever stream the session has. -/
theorem opened_superseded (valid : r.Consistent) (unused : r.connections.get? connection = none)
    (opened : r.Opened connection session resume sent left result after) :
    result.superseded = r.current.get? session := by
  rw [opened.superseded]
  cases seen : r.current.get? session with
  | none => rfl
  | some old =>
    obtain ⟨c, found, _⟩ := valid.found seen
    have different : old ≠ connection := by
      rintro rfl
      cases unused.symm.trans found
    simp [Option.filter, different]

theorem open_beside (valid : r.Consistent) (free : r.Free connection session)
    (opened : r.Opened connection session resume sent left result after) {other : Nat} {c : Connection}
    (found : r.connections.get? other = some c) (different : c.session ≠ session) :
    after.connections.get? other = some c := by
  have apart : other ≠ connection := by
    rintro rfl
    exact different (free c found)
  rw [opened.connections, if_neg apart, if_neg]
  · exact found
  · intro named
    obtain ⟨d, again, same⟩ := valid.found named
    obtain rfl : c = d := Option.some.inj (found.symm.trans again)
    exact different same

private theorem opened_named (valid : r.Consistent) (free : r.Free connection session)
    (opened : r.Opened connection session resume sent left result after) (other : String) (number : Nat) :
    after.current.get? other = some number ↔
      ∃ c, after.connections.get? number = some c ∧ c.session = other := by
  rw [valid.opened_current opened]
  constructor
  · intro seen
    split at seen
    next same =>
      cases seen
      exact ⟨_, by rw [opened.connections, if_pos rfl], same.symm⟩
    next different =>
      obtain ⟨c, found, rfl⟩ := valid.found seen
      exact ⟨c, valid.open_beside free opened found different, rfl⟩
  · rintro ⟨c, found, rfl⟩
    rcases valid.open_after opened found with ⟨rfl, rfl⟩ | ⟨_, old, different⟩
    · rw [if_pos rfl]
    · rw [if_neg different]
      exact valid.named old

theorem opened_preserves (valid : r.Consistent) (free : r.Free connection session)
    (opened : r.Opened connection session resume sent left result after) : after.Consistent := by
  refine ⟨valid.opened_named free opened, ?_, ?_, ?_, ?_, ?_⟩
  · intro other c found
    rcases valid.open_after opened found with ⟨rfl, rfl⟩ | ⟨_, old, _⟩
    · exact opened.within
    · exact valid.within other c old
  · intro other c found waits
    rw [opened.pendingOf] at waits
    rcases valid.open_after opened found with ⟨rfl, rfl⟩ | ⟨_, old, different⟩
    · exact Nat.le_antisymm opened.within (opened.stopped (by simpa using waits))
    · exact valid.spent other c old (by simpa [different] using waits)
  · intro other stored found
    rw [opened.pending] at found
    exact (valid.setPending_preserves session left (by
      intro remains other c found same
      have waits : r.pendingOf c.session ≠ [] := by
        rw [same, opened.divided]
        simp [remains]
      exact valid.spent other c found waits)).waiting other stored found
  · intro other c found
    rcases valid.open_after opened found with ⟨rfl, rfl⟩ | ⟨_, old, _⟩
    · rfl
    · exact valid.active other c old
  · intro other c found
    rw [opened.made]
    rcases valid.open_after opened found with ⟨rfl, rfl⟩ | ⟨_, old, _⟩
    · exact Nat.le_refl _
    · exact Nat.le_succ_of_le (valid.boxes other c old)

end Registering

theorem register_preserves (valid : r.Consistent) (connection : Nat) (session : String) (resume : Option Int)
    (free : r.Free connection session) : (r.register connection session resume).2.Consistent := by
  obtain ⟨sent, left, opened⟩ := r.register_opened connection session resume
  exact valid.opened_preserves free opened

end Consistent

end ToolBridge.Stream.Registry

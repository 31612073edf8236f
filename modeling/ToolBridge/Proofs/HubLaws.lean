import ToolBridge.Proofs.ServerActions

/-! What every action of a connection respects. A relation of hubs that composes, and that holds across the routing
of a request, across the loss and the end of a stream, and across frames taken, emptied reply slots and times, holds
across whatever a connection does. The requests may be limited to those that fit. -/

namespace ToolBridge.Server

/-- A relation of hubs that the parts of a connection's actions respect. -/
structure Hub.Law (fits : Http.Request → Prop) (holds : Hub → Hub → Prop) : Prop where
  refl : ∀ h, holds h h
  trans : ∀ {before middle after}, holds before middle → holds middle after → holds before after
  route : ∀ now config r id h, fits r → holds h (Route.route now config r id h).2
  fail : ∀ connection session failed outbox h, holds h (h.failStream connection session failed outbox)
  ending : ∀ connection session h, holds h (h.endStream connection session)
  touch : ∀ now session h, holds h (h.touch now session).2
  receive : ∀ (h : Hub) outbox,
    holds h { h with streams := { h.streams with outboxes := (h.streams.outboxes.receive outbox).2 } }
  collect : ∀ (h : Hub) ticket, holds h { h with slots := h.slots.collect ticket }

namespace Hub.Law
variable {fits : Http.Request → Prop} {holds : Hub → Hub → Prop} (law : Hub.Law fits holds)
include law

theorem serve (now : Int) (id : Nat) (config : Config) {r : Http.Request} (fit : fits r) (c : Connection) (h : Hub) :
    holds h (c.serve now id config r h).hub := by
  have routed := law.route now config r id h fit
  unfold Connection.serve
  split
  next response close after same =>
    rw [same] at routed
    rwa [Connection.hub_respond]
  next ticket headers after same => rwa [same] at routed
  next session outbox preamble after same =>
    rw [same] at routed
    simp only
    split
    · exact routed
    · exact law.trans routed (law.fail ..)

theorem stepStreaming {now : Int} {id : Nat} {session : String} {outbox : Nat} {c : Connection} {h : Hub} {step : Step}
    (taken : c.stepStreaming now id session outbox h = some step) : holds h step.hub := by
  have receives := law.receive h outbox
  cases Connection.stepStreaming_cases taken with
  | writes received =>
    rw [received] at receives
    exact law.trans receives (law.touch ..)
  | fails received =>
    rw [received] at receives
    exact law.trans receives (law.fail ..)
  | ends => exact law.ending ..
  | gives => exact law.fail ..
  | drops => exact law.refl h

theorem step {now : Int} {id : Nat} {c : Connection} {h : Hub} {step : Step} (taken : c.step? now id h = some step)
    (fit : ∀ limit r rest, c.nextRequest? limit = some (r, rest) → fits r) : holds h step.hub := by
  rcases Connection.step?_cases taken with ⟨config, _, taken⟩ | ⟨ticket, _, _, _, taken⟩ | ⟨session, outbox, _, taken⟩
  · rcases Connection.stepReading_cases taken with ⟨r, rest, next, rfl⟩ | ⟨_, _, same⟩
    · exact law.serve now id config (fit _ r rest next) _ h
    · exact same ▸ law.refl h
  · obtain ⟨slot, slots, _, polled, rfl⟩ := Connection.stepParked_cases taken
    have collected := law.collect h ticket
    rw [Queue.Slots.collect, polled] at collected
    rwa [Connection.hub_answered]
  · exact law.stepStreaming taken

theorem lapse {timer : Timer} {now : Int} {id : Nat} {c : Connection} {h : Hub} {step : Step}
    (lapsed : c.lapse? timer now id h = some step) : holds h step.hub := by
  cases Connection.lapse?_cases lapsed with
  | leaves => exact law.refl h
  | @excuses ticket _ _ slots _ polled =>
    have collected := law.collect h ticket
    rw [Queue.Slots.collect, polled] at collected
    rwa [Connection.hub_respond]
  | comments => exact law.touch ..
  | fails => exact law.fail ..

theorem moves {now : Int} {id : Nat} {c : Connection} {h : Hub} {step : Step} (moves : c.Moves now id h step)
    (fit : ∀ limit r rest, c.nextRequest? limit = some (r, rest) → fits r) : holds h step.hub := by
  cases moves with
  | acts taken => exact law.step taken fit
  | lapses lapsed => exact law.lapse lapsed

theorem finish (id : Nat) (c : Connection) (h : Hub) : holds h (c.finish id h).hub := by
  unfold Connection.finish
  split
  · exact law.refl h
  · exact law.refl h
  · simp only [Connection.hub_answered]
    exact law.collect ..
  · exact law.ending ..

theorem finishAll (connections : List (Nat × Connection)) (h : Hub) : holds h (finishAll connections h).2 := by
  induction connections generalizing h with
  | nil => exact law.refl h
  | cons entry rest ih =>
    obtain ⟨id, c⟩ := entry
    exact law.trans (law.finish id c h) (ih _)

end Hub.Law

end ToolBridge.Server

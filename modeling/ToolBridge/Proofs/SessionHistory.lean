import Mathlib.Data.List.Induction
import ToolBridge.Proofs.SessionTable

/-! A table of sessions, told from its history. Which sessions it holds can be read off the calls made to it, their
times and what was answered: a session is there from the time it is minted until it is closed, or until a sweep finds it
idle for too long, and it never comes back. -/

namespace ToolBridge.SessionTable

/-! ## Histories -/

/-- What may be asked of a table, and at what time. -/
inductive Call where
  | create (now : Int)
  | ensure (now : Int) (named : Option String)
  | touch (now : Int) (id : String)
  | close (id : String)
  | sweep (now : Int) (idle : Nat)
deriving DecidableEq

inductive Reply where
  /-- A session, and whether it was minted just now. -/
  | session (s : Session) (minted : Bool)
  | known (known : Bool)
  | swept (ids : List String)
deriving DecidableEq

def perform (t : SessionTable) : Call → Reply × SessionTable
  | .create now => (.session (t.create now).1 true, (t.create now).2)
  | .ensure now named => (.session (t.ensure now named).1 (t.ensure now named).2.1, (t.ensure now named).2.2)
  | .touch now id => (.known (t.touch now id).1, (t.touch now id).2)
  | .close id => (.known (t.close id).1, (t.close id).2)
  | .sweep now idle => (.swept (t.sweep now idle).1, (t.sweep now idle).2)

structure Turn where
  call : Call
  reply : Reply
deriving DecidableEq

namespace Turn

def minted? : Turn → Option String
  | ⟨_, .session s true⟩ => some s.id
  | _ => none

/-- The time at which the session was created, ensured or touched. -/
def seen? (id : String) : Turn → Option Int
  | ⟨.create now, .session s _⟩ | ⟨.ensure now _, .session s _⟩ => if s.id = id then some now else none
  | ⟨.touch now other, _⟩ => if other = id then some now else none
  | _ => none

def names : Turn → List String
  | ⟨_, .session s _⟩ => [s.id]
  | ⟨.touch _ id, _⟩ | ⟨.close id, _⟩ => [id]
  | ⟨_, .swept ids⟩ => ids
  | _ => []

def Ends (id : String) : Turn → Prop
  | ⟨.close other, .known known⟩ => known = true ∧ other = id
  | ⟨_, .swept ids⟩ => id ∈ ids
  | _ => False

end Turn

/-- When the session was last created, ensured or touched. -/
def lastSeen? (turns : List Turn) (id : String) : Option Int := (turns.filterMap (Turn.seen? id)).getLast?

/-- The turn does not close the session, and is no sweep that finds it idle for too long. -/
def Turn.Spares (id : String) (earlier : List Turn) (turn : Turn) : Prop :=
  turn.call ≠ .close id ∧ ∀ now idle, turn.call = .sweep now idle → idle ≤ longestIdle →
    ∃ seen, lastSeen? earlier id = some seen ∧ now - seen ≤ idle

/-- The session was minted, and every turn since then has spared it. -/
def Lives (turns : List Turn) (id : String) : Prop :=
  ∃ before mint after, turns = before ++ mint :: after ∧ mint.minted? = some id ∧
    ∀ meanwhile turn rest, after = meanwhile ++ turn :: rest → turn.Spares id (before ++ mint :: meanwhile)

/-- A table, and all that was asked of it so far with what was answered, oldest first. -/
structure Ledger where
  table : SessionTable := {}
  turns : List Turn := []

namespace Ledger

def turn (l : Ledger) (call : Call) : Turn := ⟨call, (l.table.perform call).1⟩

def step (l : Ledger) (call : Call) : Ledger := ⟨(l.table.perform call).2, l.turns ++ [l.turn call]⟩

def run (calls : List Call) : Ledger := calls.foldl step {}

theorem run_append (first last : List Call) : run (first ++ last) = last.foldl step (run first) := List.foldl_append

theorem run_concat (calls : List Call) (call : Call) : run (calls ++ [call]) = (run calls).step call := run_append ..

end Ledger

/-! ## One turn -/

/-- All that a turn can be. To touch an unknown session is to refresh none. -/
inductive Happens (t : SessionTable) : Turn → SessionTable → Prop where
  | created (now : Int) : Happens t ⟨.create now, .session (t.create now).1 true⟩ (t.create now).2
  | replaced (now : Int) (named : Option String) :
      Happens t ⟨.ensure now named, .session (t.create now).1 true⟩ (t.create now).2
  | ensured (now : Int) {s : Session} (known : t.contains s.id = true) :
      Happens t ⟨.ensure now (some s.id), .session s false⟩ (t.refresh now s.id)
  | touched (now : Int) (id : String) : Happens t ⟨.touch now id, .known (t.contains id)⟩ (t.refresh now id)
  | closed (id : String) : Happens t ⟨.close id, .known (t.contains id)⟩ (t.close id).2
  | swept (now : Int) (idle : Nat) : Happens t ⟨.sweep now idle, .swept (t.sweep now idle).1⟩ (t.sweep now idle).2

theorem refresh_unknown {now : Int} {id : String} {t : SessionTable} (unknown : t.contains id = false) :
    t.refresh now id = t := by
  have others : ∀ s ∈ t.sessions, s.id ≠ id := by simpa [contains, get?] using unknown
  have same : t.sessions.map (fun s => if s.id == id then { s with lastSeen := now } else s) = t.sessions :=
    (List.map_congr_left fun s member => if_neg (by simpa using others s member)).trans (List.map_id' _)
  rw [refresh, same]

theorem happens (t : SessionTable) (call : Call) : Happens t ⟨call, (t.perform call).1⟩ (t.perform call).2 := by
  cases call with
  | create now => exact .created now
  | ensure now named =>
    by_cases known : ∃ id, named = some id ∧ t.contains id = true
    · obtain ⟨id, rfl, known⟩ := known
      obtain ⟨s, rfl, ensured⟩ : ∃ s, s.id = id ∧ t.ensure now (some id) = (s, false, t.refresh now id) :=
        ensure_known known
      rw [perform, ensured]
      exact .ensured now known
    · have minted : t.ensure now named = ((t.create now).1, true, (t.create now).2) := by
        cases named with
        | none => rfl
        | some id => exact ensure_unknown (Bool.eq_false_iff.mpr fun found => known ⟨id, rfl, found⟩)
      rw [perform, minted]
      exact .replaced now named
  | touch now id =>
    have touched : t.touch now id = (t.contains id, t.refresh now id) := by
      unfold touch
      cases known : t.contains id with
      | true => rfl
      | false => simp [refresh_unknown known]
    rw [perform, touched]
    exact .touched now id
  | close id => exact .closed id
  | sweep now idle => exact .swept now idle

section
variable {t after : SessionTable} {turn : Turn} {turns : List Turn} {id : String}

theorem lastSeen?_concat (turns : List Turn) (turn : Turn) (id : String) :
    lastSeen? (turns ++ [turn]) id = (turn.seen? id).or (lastSeen? turns id) := by
  rw [lastSeen?, lastSeen?, List.filterMap_append, List.getLast?_append]
  cases seen : turn.seen? id <;> simp [seen]

/-- Where a list with one more at its end is split around an item, the item is the new one, or was there before. -/
theorem concat_split {α : Type} {l before after : List α} {last item : α} : l ++ [last] = before ++ item :: after ↔
    (l = before ∧ last = item ∧ after = []) ∨ ∃ rest, l = before ++ item :: rest ∧ after = rest ++ [last] := by
  constructor
  · intro whole
    rcases after.eq_nil_or_concat' with rfl | ⟨rest, other, rfl⟩
    · obtain ⟨rfl, same⟩ := List.append_inj' whole rfl
      exact Or.inl ⟨rfl, List.head_eq_of_cons_eq same, rfl⟩
    · rw [← List.cons_append, ← List.append_assoc] at whole
      obtain ⟨rfl, same⟩ := List.append_inj' whole rfl
      exact Or.inr ⟨rest, rfl, by rw [same]⟩
  · rintro (⟨rfl, rfl, rfl⟩ | ⟨rest, rfl, rfl⟩)
    · rfl
    · simp

theorem lives_concat : Lives (turns ++ [turn]) id ↔
    turn.minted? = some id ∨ Lives turns id ∧ turn.Spares id turns := by
  constructor
  · rintro ⟨before, mint, after, whole, minted, spared⟩
    rcases concat_split.mp whole with ⟨_, rfl, _⟩ | ⟨rest, rfl, rfl⟩
    · exact Or.inl minted
    · refine Or.inr ⟨⟨before, mint, rest, rfl, minted, fun meanwhile other later split => ?_⟩, spared rest turn [] rfl⟩
      exact spared meanwhile other (later ++ [turn]) (concat_split.mpr (Or.inr ⟨later, split, rfl⟩))
  · rintro (minted | ⟨⟨before, mint, after, rfl, minted, spared⟩, last⟩)
    · exact ⟨turns, turn, [], rfl, minted, by simp⟩
    · refine ⟨before, mint, after ++ [turn], by simp, minted, fun meanwhile other rest split => ?_⟩
      rcases concat_split.mp split with ⟨rfl, rfl, _⟩ | ⟨later, earlier, _⟩
      · exact last
      · exact spared meanwhile other later earlier

theorem spares_sweep_iff {now : Int} {idle : Nat} {reply : Reply} {s : Session}
    (seen : lastSeen? turns id = some s.lastSeen) :
    Turn.Spares id turns ⟨.sweep now idle, reply⟩ ↔ ¬ Expired now idle s := by
  constructor
  · rintro ⟨_, spared⟩ ⟨bounded, long⟩
    obtain ⟨_, same, short⟩ := spared now idle rfl bounded
    cases seen.symm.trans same
    omega
  · intro present
    refine ⟨by simp, ?_⟩
    rintro _ _ ⟨⟩ bounded
    exact ⟨s.lastSeen, seen, Int.not_lt.mp fun long => present ⟨bounded, long⟩⟩

/-! ## What a turn does to the table -/

/-- What holds between a table and a later one of the same history. -/
structure Follows (before after : SessionTable) : Prop where
  issued : before.issued ⊆ after.issued
  fresh : ∀ id, after.contains id = true → before.contains id = true ∨ id ∉ before.issued
  created : ∀ id s s', before.get? id = some s → after.get? id = some s' → s'.createdAt = s.createdAt

theorem Follows.refl (t : SessionTable) : t.Follows t where
  issued := List.Subset.refl _
  fresh _ known := Or.inl known
  created _ _ _ found again := congrArg _ (Option.some.inj (again.symm.trans found))

theorem Follows.trans {before middle after : SessionTable} (minted : before.Minted) (first : before.Follows middle)
    (last : middle.Follows after) : before.Follows after where
  issued := List.Subset.trans first.issued last.issued
  fresh id known := by
    rcases last.fresh id known with still | new
    · exact first.fresh id still
    · exact Or.inr fun old => new (first.issued old)
  created id s s' found later := by
    have old : id ∈ before.issued := minted.of_contains (Option.isSome_iff_exists.mpr ⟨s, found⟩)
    have between : middle.contains id = true :=
      (last.fresh id (Option.isSome_iff_exists.mpr ⟨s', later⟩)).resolve_right fun new => new (first.issued old)
    obtain ⟨m, there⟩ := Option.isSome_iff_exists.mp between
    exact (last.created id m s' there later).trans (first.created id s m found there)

theorem contains_eq_isSome : t.contains id = (t.get? id).isSome := rfl

theorem get?_refresh_eq_some {now : Int} {other : String} {s : Session} :
    (t.refresh now other).get? id = some s ↔
      ∃ before, t.get? id = some before ∧ s = if id = other then { before with lastSeen := now } else before := by
  rw [get?_refresh, Option.map_eq_some_iff]
  refine exists_congr fun before => and_congr_right fun found => ?_
  have named : before.id = id := by simpa using List.find?_some found
  rw [eq_comm, named]
  simp only [beq_iff_eq]

namespace Happens

theorem distinct (happens : Happens t turn after) (minted : t.Minted) (distinct : t.ids.Nodup) : after.ids.Nodup := by
  cases happens with
  | created now | replaced now =>
    rw [ids_create]
    exact List.nodup_append.mpr ⟨distinct, List.nodup_singleton _, fun _ member _ new same =>
      minted.fresh now (List.mem_singleton.mp new ▸ same ▸ member)⟩
  | ensured | touched => rwa [ids_refresh]
  | closed => exact ids_close ▸ distinct.filter _
  | swept => exact nodup_sweep distinct

theorem follows (happens : Happens t turn after) (distinct : t.ids.Nodup) : t.Follows after := by
  cases happens with
  | created now | replaced now =>
    refine ⟨issued_create ▸ List.subset_append_left _ _, fun id known => ?_, fun id s s' found later => ?_⟩
    · refine (contains_create.mp known).imp_right ?_
      rintro rfl
      exact unissued_create t now
    · rw [get?_create, found, Option.some_or] at later
      exact congrArg _ (Option.some.inj later.symm)
  | ensured | touched =>
    refine ⟨List.Subset.refl _, fun id known => Or.inl (contains_refresh ▸ known), fun id s s' found later => ?_⟩
    obtain ⟨_, before, rfl⟩ := get?_refresh_eq_some.mp later
    cases found.symm.trans before
    split <;> rfl
  | closed =>
    refine ⟨List.Subset.refl _, fun id known => Or.inl (contains_close.mp known).1, fun id s s' found later => ?_⟩
    rw [get?_close] at later
    split at later
    · cases later
    · exact congrArg _ (Option.some.inj (later.symm.trans found))
  | swept =>
    refine ⟨issued_sweep ▸ List.Subset.refl _, fun id known => Or.inl (contains_of_sweep known), fun id s s' found later => ?_⟩
    rw [get?_sweep distinct] at later
    exact congrArg _ (Option.some.inj ((Option.filter_eq_some_iff.mp later).1.symm.trans found))

theorem minted (happens : Happens t turn after) (minted : t.Minted) : after.Minted := by
  cases happens with
  | created now | replaced now =>
    rw [Minted, ids_create, issued_create]
    exact List.append_subset.mpr ⟨List.subset_append_of_subset_left _ minted, List.subset_append_right _ _⟩
  | ensured | touched => exact fun id member => minted (ids_refresh ▸ member)
  | closed => exact fun id member => minted (List.mem_filter.mp (ids_close ▸ member)).1
  | swept =>
    intro id member
    rw [issued_sweep]
    exact minted (mem_ids.mpr (contains_of_sweep (mem_ids.mp member)))

theorem get?_of_notMem_names (happens : Happens t turn after) (distinct : t.ids.Nodup) (aside : id ∉ turn.names) :
    after.get? id = t.get? id := by
  cases happens with
  | created now | replaced now =>
    have other : (t.create now).1.id ≠ id := fun same => aside (List.mem_singleton.mpr same.symm)
    rw [get?_create, if_neg other, Option.or_none]
  | ensured | touched =>
    have other := List.ne_of_not_mem_cons aside
    ext s
    rw [get?_refresh_eq_some]
    simp [other]
  | closed =>
    rw [get?_close, if_neg fun same => aside (List.mem_singleton.mpr same)]
  | swept now idle =>
    ext s
    rw [get?_sweep distinct, Option.filter_eq_some_iff, and_iff_left_iff_imp]
    intro found
    obtain ⟨member, named⟩ := (get?_eq_some distinct).mp found
    exact decide_eq_true fun expired => aside (mem_swept.mpr ⟨s, member, expired, named⟩)

/-- A session is there after a turn if it was minted, or was there and was spared. -/
theorem contains_iff_spared (happens : Happens t turn after) (distinct : t.ids.Nodup)
    (seen : ∀ s, t.get? id = some s → lastSeen? turns id = some s.lastSeen) :
    after.contains id = true ↔ turn.minted? = some id ∨ t.contains id = true ∧ turn.Spares id turns := by
  cases happens with
  | created now | replaced now =>
    have spares : ∀ call reply, call = .create now ∨ (∃ named, call = .ensure now named) →
        Turn.Spares id turns ⟨call, reply⟩ := by
      rintro _ _ (rfl | ⟨_, rfl⟩) <;> simp [Turn.Spares]
    rw [contains_create, or_comm, eq_comm, and_iff_left (spares _ _ (by simp))]
    simp [Turn.minted?]
  | ensured | touched => simp [contains_refresh, Turn.minted?, Turn.Spares]
  | closed other =>
    rw [contains_close, ne_comm]
    simp [Turn.minted?, Turn.Spares]
  | swept now idle =>
    rw [contains_eq_isSome, contains_eq_isSome, get?_sweep distinct]
    cases found : t.get? id with
    | none => simp [Turn.minted?]
    | some s => simp [Option.filter, Turn.minted?, spares_sweep_iff (seen s found)]

theorem lastSeen?_after (happens : Happens t turn after) (minted : t.Minted) (distinct : t.ids.Nodup)
    (seen : ∀ s, t.get? id = some s → lastSeen? turns id = some s.lastSeen) {s : Session}
    (found : after.get? id = some s) : lastSeen? (turns ++ [turn]) id = some s.lastSeen := by
  rw [lastSeen?_concat]
  cases happens with
  | created now | replaced now =>
    rw [get?_create] at found
    by_cases new : (t.create now).1.id = id
    · have unknown : t.get? id = none := by
        rw [← Option.not_isSome_iff_eq_none, ← contains_eq_isSome, ← mem_ids, ← new]
        exact minted.fresh now
      rw [unknown, Option.none_or, if_pos new] at found
      cases found
      simp only [Turn.seen?, if_pos new, Option.some_or]
      rfl
    · rw [if_neg new, Option.or_none] at found
      simp [Turn.seen?, new, seen s found]
  | ensured | touched =>
    obtain ⟨before, earlier, rfl⟩ := get?_refresh_eq_some.mp found
    split
    next same => simp [Turn.seen?, same]
    next other => simp [Turn.seen?, Ne.symm other, seen before earlier]
  | closed other =>
    rw [get?_close] at found
    split at found
    · cases found
    · exact seen s found
  | swept =>
    rw [get?_sweep distinct] at found
    exact seen s (Option.filter_eq_some_iff.mp found).1

theorem ended (happens : Happens t turn after) (distinct : t.ids.Nodup) (ends : turn.Ends id) :
    t.contains id = true ∧ after.contains id = false := by
  cases happens with
  | created | replaced | ensured | touched => cases ends
  | closed other =>
    obtain ⟨known, rfl⟩ := ends
    exact ⟨known, Bool.eq_false_iff.mpr fun still => (contains_close.mp still).2 rfl⟩
  | swept => exact ⟨mem_ids.mp (swept_sublist.subset ends), contains_swept distinct ends⟩

theorem issued_minted (happens : Happens t turn after) : after.issued = t.issued ++ turn.minted?.toList := by
  cases happens with
  | created | replaced => exact issued_create
  | ensured | touched | closed => exact (List.append_nil _).symm
  | swept => exact issued_sweep.trans (List.append_nil _).symm

end Happens

end

/-! ## Runs -/

namespace Ledger
variable {l : Ledger}

structure Told (l : Ledger) : Prop where
  distinct : l.table.ids.Nodup
  minted : l.table.Minted
  issued : l.turns.filterMap Turn.minted? = l.table.issued
  lives : ∀ id, l.table.contains id = true ↔ Lives l.turns id
  seen : ∀ id s, l.table.get? id = some s → lastSeen? l.turns id = some s.lastSeen
  ended : ∀ turn ∈ l.turns, ∀ id, turn.Ends id → id ∈ l.table.issued ∧ l.table.contains id = false

theorem step_happens (l : Ledger) (call : Call) : Happens l.table (l.turn call) (l.step call).table :=
  l.table.happens call

namespace Told

theorem initial : Told {} where
  distinct := List.nodup_nil
  minted := List.nil_subset _
  issued := rfl
  lives id := by simp [Lives, contains, get?]
  seen id s found := by cases found
  ended := by simp

theorem step_preserves (told : l.Told) (call : Call) : (l.step call).Told := by
  have happens := l.step_happens call
  have follows := happens.follows told.distinct
  refine ⟨happens.distinct told.minted told.distinct, happens.minted told.minted, ?_, ?_, ?_, ?_⟩
  · rw [happens.issued_minted, step, List.filterMap_append, told.issued]
    cases minted : (l.turn call).minted? <;> simp [minted]
  · intro id
    rw [happens.contains_iff_spared told.distinct (told.seen id), told.lives]
    exact lives_concat.symm
  · exact fun id s found => happens.lastSeen?_after told.minted told.distinct (told.seen id) found
  · intro turn member id ends
    rcases List.mem_append.mp member with earlier | new
    · obtain ⟨given, gone⟩ := told.ended turn earlier id ends
      refine ⟨follows.issued given, Bool.eq_false_iff.mpr fun back => ?_⟩
      rcases follows.fresh id back with known | fresh
      · exact absurd known (Bool.eq_false_iff.mp gone)
      · exact fresh given
    · cases List.mem_singleton.mp new
      obtain ⟨known, gone⟩ := happens.ended told.distinct ends
      exact ⟨follows.issued (told.minted.of_contains known), gone⟩

theorem run (calls : List Call) : (run calls).Told :=
  List.foldlRecOn calls step (motive := Told) .initial fun _ told call _ => told.step_preserves call

end Told

theorem follows_run (calls later : List Call) : (run calls).table.Follows (run (calls ++ later)).table := by
  induction later using List.reverseRecOn with
  | nil =>
    rw [List.append_nil]
    exact .refl _
  | append_singleton earlier call ih =>
    rw [← List.append_assoc, run_concat]
    exact ih.trans (Told.run calls).minted ((step_happens _ call).follows (Told.run _).distinct)

/-- Whatever is asked of a table, and at what times: no id is minted twice. A session is there exactly if it was
minted, has not been closed since, and was found by no sweep to have been idle for too long, counted from when it was
last created, ensured or touched. A sweep gives the ids that it takes out and no others, each once. A session that was
closed or swept is never there again. While a session is there, its creation time stays, and a turn changes nothing
about any session that it is not about. -/
theorem table_tells_history (calls : List Call) :
    ((run calls).turns.filterMap Turn.minted?).Nodup ∧
    (∀ id, (run calls).table.contains id = true ↔ Lives (run calls).turns id) ∧
    (∀ now idle, ((run calls).table.sweep now idle).1.Nodup ∧ ∀ id, id ∈ ((run calls).table.sweep now idle).1 ↔
      (run calls).table.contains id = true ∧ ((run calls).table.sweep now idle).2.contains id = false) ∧
    (∀ turn ∈ (run calls).turns, ∀ id, turn.Ends id → (run calls).table.contains id = false) ∧
    (∀ later id s s', (run calls).table.get? id = some s → (run (calls ++ later)).table.get? id = some s' →
      s'.createdAt = s.createdAt) ∧
    ∀ call id, id ∉ ((run calls).turn call).names →
      (run (calls ++ [call])).table.get? id = (run calls).table.get? id := by
  have told := Told.run calls
  refine ⟨told.issued ▸ nodup_issued _, told.lives, fun now idle => ⟨told.distinct.sublist swept_sublist, ?_⟩, ?_, ?_, ?_⟩
  · intro id
    constructor
    · exact (Happens.swept now idle).ended told.distinct
    · rintro ⟨known, gone⟩
      by_contra spared
      rw [contains_sweep known spared] at gone
      cases gone
  · exact fun turn member id ends => (told.ended turn member id ends).2
  · exact fun later => (follows_run calls later).created
  · intro call id aside
    rw [run_concat]
    exact (step_happens _ call).get?_of_notMem_names told.distinct aside

private def first : String := "00000000000000000000000000000001"

/-- The session is idle for as long as allowed, and then for longer; in between, another is closed before it is minted. -/
private def visits : List Call :=
  [.create 0, .ensure 5 (some first), .sweep 10 5, .close "00000000000000000000000000000002", .ensure 10 none, .sweep 11 5]

theorem table_tells_history_idle : Lives (run (visits.take 3)).turns first ∧ (run visits).table.contains first = false ∧
    Lives (run visits).turns "00000000000000000000000000000002" := by
  have swept : ⟨.sweep 11 5, .swept [first]⟩ ∈ (run visits).turns := by decide +kernel
  exact ⟨((table_tells_history _).2.1 first).mp (by decide +kernel),
    (table_tells_history visits).2.2.2.1 _ swept first (List.mem_singleton_self _),
    ((table_tells_history visits).2.1 _).mp (by decide +kernel)⟩

end Ledger

end ToolBridge.SessionTable

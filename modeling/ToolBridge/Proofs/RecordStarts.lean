import ToolBridge.Json.Record

/-! A record read over any start. Which fields the text tells does not depend on what stands before any is read, so one
change comes of the text, and it is composed of changes that the fields make. -/

namespace ToolBridge.Json

/-- A property of changes that composition keeps, and that the changes of all fields have. -/
structure Composes {σ : Type} (fields : List (Field σ)) (P : (σ → σ) → Prop) : Prop where
  same : P id
  more : ∀ {change}, P change → ∀ field ∈ fields, ∀ input next rest, field.read input = .ok (next, rest) →
    P fun value => next (change value)

/-- One outcome for every start: the same fault, or one change of the start and the same beside it. -/
def Uniform {σ ρ τ : Type} (P : (σ → σ) → Prop) (pack : σ → ρ → τ) (out : σ → Except Fault τ) : Prop :=
  (∃ change beside, P change ∧ ∀ start, out start = .ok (pack (change start) beside)) ∨
    ∃ fault, ∀ start, out start = .error fault

namespace Uniform

variable {σ ρ τ ρ' τ' α : Type} {P : (σ → σ) → Prop} {pack : σ → ρ → τ} {pack' : σ → ρ' → τ'}

theorem done {change : σ → σ} (kept : P change) (beside : ρ) :
    Uniform P pack fun start => .ok (pack (change start) beside) := .inl ⟨change, beside, kept, fun _ => rfl⟩

theorem fails (fault : Fault) : Uniform P pack fun _ => .error fault := .inr ⟨fault, fun _ => rfl⟩

theorem bind {out : σ → Except Fault τ} {next : σ → τ → Except Fault τ'} (first : Uniform P pack out)
    (later : ∀ change beside, P change → Uniform P pack' fun start => next start (pack (change start) beside)) :
    Uniform P pack' fun start => out start >>= next start := by
  rcases first with ⟨change, beside, kept, same⟩ | ⟨fault, same⟩
  · have goes : (fun start => out start >>= next start) = fun start => next start (pack (change start) beside) :=
      funext fun start => congrArg (· >>= next start) (same start)
    rw [goes]
    exact later change beside kept
  · exact .inr ⟨fault, fun start => congrArg (· >>= next start) (same start)⟩

theorem step {read : Except Fault α} {next : σ → α → Except Fault τ}
    (later : ∀ value, read = .ok value → Uniform P pack fun start => next start value) :
    Uniform P pack fun start => read >>= next start := by
  cases read with
  | ok value => exact later value rfl
  | error fault => exact .fails fault

end Uniform

namespace Record

variable {σ : Type}

def upon (r : Record σ) (start : σ) : Record σ := { r with start }

/-- The record so far, and the names of the fields read, before the rest. -/
def withNames (value : σ) (beside : List String × Bytes) : (σ × List String) × Bytes := ((value, beside.1), beside.2)

variable {r : Record σ} {P : (σ → σ) → Prop}

theorem uniform_readMember (composes : Composes r.fields P) {change : σ → σ} (kept : P change) (names : List String)
    (key : String) (input : Bytes) :
    Uniform P withNames fun start => (r.upon start).readMember (change start, names) key input := by
  unfold readMember
  cases found : r.fields.find? (·.name == key) with
  | none =>
    simp only [upon, found]
    refine .step fun colon _ => .step fun skipped _ => .done kept (names, skipped.2)
  | some field =>
    simp only [upon, found]
    split
    · exact .fails _
    · refine .step fun colon _ => .step fun told read => ?_
      exact .done (composes.more kept field (List.mem_of_find?_eq_some found) colon.2 told.1 told.2 read)
        (key :: names, told.2)

theorem uniform_readMembers (composes : Composes r.fields P) {change : σ → σ} (kept : P change) (names : List String)
    (bound : Bytes) (first : Bool) (input : Bytes) :
    Uniform P withNames fun start => readMembers (r.upon start).readMember bound first (change start, names) input := by
  induction bound generalizing change names first input with
  | nil => exact .fails _
  | cons b bound ih =>
    simp only [readMembers]
    refine .step fun more _ => ?_
    split
    · refine .step fun key _ => .bind (uniform_readMember composes kept names key.1 key.2) fun later beside kept' => ?_
      exact ih kept' beside.1 false beside.2
    · exact .done kept (names, more.2)

theorem uniform_readObject (composes : Composes r.fields P) (input : Bytes) :
    Uniform P Prod.mk fun start => (r.upon start).readObject input := by
  simp only [readObject]
  refine .bind (uniform_readMembers composes composes.same [] input true input) fun change beside kept => ?_
  simp only [withNames, upon]
  split
  · exact .fails _
  · exact .done kept (beside.2.drop 1)

theorem uniform_readFields (composes : Composes r.fields P) {fields : List (Field σ)} (some_ : ∀ f ∈ fields, f ∈ r.fields)
    {change : σ → σ} (kept : P change) (index : Nat) (input : Bytes) :
    Uniform P Prod.mk fun start => (r.upon start).readFields fields index (change start) input := by
  induction fields generalizing change index input with
  | nil => exact .done kept input
  | cons field fields ih =>
    have later := fun f member => some_ f (List.mem_cons_of_mem _ member)
    simp only [readFields]
    refine .step fun more _ => ?_
    split
    · refine .step fun told read => ?_
      exact ih later (composes.more kept field (some_ field List.mem_cons_self) more.2 told.1 told.2 read) (index + 1) told.2
    · split
      · have told (start : σ) : (r.upon start).expectation = r.expectation ∧ (r.upon start).fields = r.fields := ⟨rfl, rfl⟩
        simp only [told]
        exact .fails _
      · exact ih later kept (index + 1) more.2

/-- What stands where a record should is never read as one. -/
theorem mismatch_fails {α : Type} (expected : String) (input : Bytes) :
    ∃ fault, (mismatch expected input : Except Fault (α × Bytes)) = .error fault := by
  have after {β : Type} (read : Except Fault β) (told : β → Fault) :
      ∃ fault, (read.bind fun value => .error (told value) : Except Fault (α × Bytes)) = .error fault := by
    cases read with
    | ok value => exact ⟨told value, rfl⟩
    | error fault => exact ⟨fault, rfl⟩
  unfold mismatch
  split
  · exact ⟨_, rfl⟩
  · dsimp only
    repeat' split
    all_goals first | exact after _ _ | exact ⟨_, rfl⟩

theorem uniform_read (composes : Composes r.fields P) (input : Bytes) :
    Uniform P Prod.mk fun start => (r.upon start).read input := by
  simp only [read, atValue]
  split
  next => exact .fails _
  next b rest _ =>
    split
    · exact uniform_readObject composes _
    · split
      · refine .bind (uniform_readFields composes (fun _ member => member) composes.same 0 _) fun change rest kept => ?_
        dsimp only
        exact .step fun closed _ => .done kept closed.2
      · obtain ⟨fault, fails⟩ := mismatch_fails r.expectation (b :: rest)
        exact .inr ⟨fault, fun start => fails⟩

/-- A text tells one change of the record, whatever stands before any field is read, or it has one fault. -/
theorem uniform_readAll (composes : Composes r.fields P) (input : Bytes) :
    (∃ change, P change ∧ ∀ start, readAll (r.upon start).read input = .ok (change start)) ∨
      ∃ fault, ∀ start, readAll (r.upon start).read input = .error fault := by
  rcases uniform_read composes input with ⟨change, rest, kept, same⟩ | ⟨fault, same⟩
  · cases ended : readEnd rest with
    | ok _ => exact .inl ⟨change, kept, fun start => by simp only [readAll, same, bind, Except.bind, ended]⟩
    | error fault => exact .inr ⟨fault, fun start => by simp only [readAll, same, bind, Except.bind, ended]⟩
  · exact .inr ⟨fault, fun start => by simp only [readAll, same, bind, Except.bind]⟩

end Record

end ToolBridge.Json

import Mathlib.Data.List.Nodup
import ToolBridge.Proofs.TextPieces
import ToolBridge.Session.Table

/-! Which sessions a table knows. Only minting adds one, under an id that has not been given out before, and only
closing and sweeping take one away; a sweep keeps every session that it does not name. -/

namespace ToolBridge

theorem Session.idOf_injective {m n : Nat} (same : Session.idOf m = Session.idOf n) : m = n := by
  have read : ∀ k, (Session.idOf k).toList.foldlM (Text.shift 16) 0 = some k := by
    intro k
    rw [Session.idOf, String.toList_ofList, List.foldlM_append, Text.foldlM_shift_zeros _ _ (by decide)]
    exact Text.foldlM_shift_toDigits (by decide) (by decide) k
  exact Option.some.inj ((read m).symm.trans (same ▸ read n))

namespace SessionTable
variable {now : Int} {id other : String} {t : SessionTable}

theorem contains_iff : t.contains id ↔ ∃ s ∈ t.sessions, s.id = id := by
  simp [contains, get?]

theorem contains_refresh : (t.refresh now id).contains other = t.contains other := by
  rw [Bool.eq_iff_iff, contains_iff, contains_iff]
  simp only [refresh, List.mem_map]
  constructor
  · rintro ⟨_, ⟨s, member, rfl⟩, same⟩
    refine ⟨s, member, ?_⟩
    rw [← same]
    split <;> rfl
  · rintro ⟨s, member, same⟩
    refine ⟨_, ⟨s, member, rfl⟩, ?_⟩
    rw [← same]
    split <;> rfl

theorem contains_touch : (t.touch now id).2.contains other = t.contains other := by
  unfold touch
  split
  · exact contains_refresh
  · rfl

theorem contains_create : (t.create now).2.contains other ↔ t.contains other ∨ other = (t.create now).1.id := by
  simp only [contains_iff, create, List.mem_append, List.mem_singleton]
  constructor
  · rintro ⟨s, member | rfl, same⟩
    · exact Or.inl ⟨s, member, same⟩
    · exact Or.inr same.symm
  · rintro (⟨s, member, same⟩ | rfl)
    · exact ⟨s, Or.inl member, same⟩
    · exact ⟨_, Or.inr rfl, rfl⟩

/-- A known session is kept, and none is minted. -/
theorem ensure_known (known : t.contains id = true) : ∃ s, s.id = id ∧
    t.ensure now (some id) = (s, false, t.refresh now id) := by
  obtain ⟨s, found⟩ := Option.isSome_iff_exists.mp known
  have named : s.id = id := by simpa using List.find?_some found
  refine ⟨{ s with lastSeen := now }, named, ?_⟩
  simp only [ensure, Option.bind_some, found, named]

theorem ensure_unknown (unknown : t.contains id = false) :
    t.ensure now (some id) = ((t.create now).1, true, (t.create now).2) := by
  have absent : t.get? id = none := by simpa [contains] using unknown
  simp only [ensure, Option.bind_some, absent]

theorem contains_ensure {named : Option String} (known : t.contains other = true) :
    (t.ensure now named).2.2.contains other = true := by
  unfold ensure
  split
  · exact contains_refresh.trans known
  · exact contains_create.mpr (Or.inl known)

theorem contains_close : (t.close id).2.contains other ↔ t.contains other ∧ other ≠ id := by
  simp only [contains_iff, close, List.mem_filter, bne_iff_ne]
  constructor
  · rintro ⟨s, ⟨member, different⟩, rfl⟩
    exact ⟨⟨s, member, rfl⟩, different⟩
  · rintro ⟨⟨s, member, rfl⟩, different⟩
    exact ⟨s, ⟨member, different⟩, rfl⟩

/-! ## Looking up -/

theorem get?_create : (t.create now).2.get? other =
    (t.get? other).or (if (t.create now).1.id = other then some (t.create now).1 else none) := by
  rw [get?, get?, create, List.find?_append, List.find?_singleton]
  exact congrArg _ (if_congr beq_iff_eq rfl rfl)

theorem get?_refresh : (t.refresh now id).get? other =
    (t.get? other).map fun s => if s.id == id then { s with lastSeen := now } else s := by
  rw [get?, get?, refresh, List.find?_map]
  congr 2
  funext s
  dsimp only [Function.comp_apply]
  split <;> rfl

theorem get?_close : (t.close id).2.get? other = if other = id then none else t.get? other := by
  rw [get?, get?, close, List.find?_filter]
  split
  next same =>
    rw [List.find?_eq_none]
    simp [same]
  next different =>
    congr 1
    funext s
    by_cases here : s.id = other <;> simp [here, different]

/-! ## Sweeping -/

/-- Not seen for longer than a timeout, if that can be told from a longer one. -/
def Expired (now : Int) (idle : Nat) (s : Session) : Prop := idle ≤ longestIdle ∧ now - s.lastSeen > idle

instance (now : Int) (idle : Nat) : DecidablePred (Expired now idle) :=
  fun s => inferInstanceAs (Decidable (idle ≤ longestIdle ∧ now - s.lastSeen > idle))

/-- The sessions that a sweep takes out, and those that it leaves. -/
theorem sweep_eq (now : Int) (idle : Nat) (t : SessionTable) : t.sweep now idle =
    ((t.sessions.filter (Expired now idle)).map (·.id),
      { t with sessions := t.sessions.filter fun s => ¬ Expired now idle s }) := by
  unfold sweep
  split
  next endless => simp [Expired, Nat.not_le.mpr endless]
  next bounded =>
    have told : ∀ s, decide (Expired now idle s) = decide (now - s.lastSeen > idle) := by
      simp [Expired, Nat.not_lt.mp bounded]
    simp only [decide_not, told]

variable {idle : Nat}

theorem mem_sweep {s : Session} : s ∈ (t.sweep now idle).2.sessions ↔ s ∈ t.sessions ∧ ¬ Expired now idle s := by
  simp [sweep_eq]

theorem mem_swept : id ∈ (t.sweep now idle).1 ↔ ∃ s ∈ t.sessions, Expired now idle s ∧ s.id = id := by
  simp [sweep_eq, and_assoc]

theorem contains_of_sweep (kept : (t.sweep now idle).2.contains other = true) : t.contains other = true := by
  obtain ⟨s, member, same⟩ := contains_iff.mp kept
  exact contains_iff.mpr ⟨s, (mem_sweep.mp member).1, same⟩

theorem contains_sweep (known : t.contains other = true) (spared : other ∉ (t.sweep now idle).1) :
    (t.sweep now idle).2.contains other = true := by
  obtain ⟨s, member, same⟩ := contains_iff.mp known
  have present : ¬ Expired now idle s := fun expired => spared (mem_swept.mpr ⟨s, member, expired, same⟩)
  exact contains_iff.mpr ⟨s, mem_sweep.mpr ⟨member, present⟩, same⟩

/-! ## Ids -/

def ids (t : SessionTable) : List String := t.sessions.map (·.id)

def issued (t : SessionTable) : List String := (List.range t.minted).map fun n => Session.idOf (n + 1)

theorem mem_ids : id ∈ t.ids ↔ t.contains id := by
  rw [contains_iff, ids, List.mem_map]

theorem nodup_issued (t : SessionTable) : t.issued.Nodup :=
  List.nodup_range.map fun _ _ same => Nat.succ_inj.mp (Session.idOf_injective same)

theorem ids_refresh : (t.refresh now id).ids = t.ids := by
  rw [ids, refresh, List.map_map]
  refine List.map_congr_left fun s _ => ?_
  dsimp only [Function.comp_apply]
  split <;> rfl

theorem ids_touch : (t.touch now id).2.ids = t.ids := by
  unfold touch
  split
  · exact ids_refresh
  · rfl

theorem issued_touch : (t.touch now id).2.issued = t.issued := by
  unfold touch
  split <;> rfl

theorem ids_create : (t.create now).2.ids = t.ids ++ [(t.create now).1.id] := List.map_append

theorem issued_create : (t.create now).2.issued = t.issued ++ [(t.create now).1.id] := by
  simp only [issued, create, List.range_succ, List.map_append, List.map_cons, List.map_nil]

/-- No id is given out twice. -/
theorem unissued_create (t : SessionTable) (now : Int) : (t.create now).1.id ∉ t.issued := by
  intro member
  have distinct := (t.create now).2.nodup_issued
  rw [issued_create] at distinct
  exact List.disjoint_of_nodup_append distinct member (List.mem_singleton_self _)

/-- The named session, if it is there, or a new one. -/
theorem ensure_cases (named : Option String) : (∃ session, (t.ensure now named).2 = (false, t.refresh now session)) ∨
    t.ensure now named = ((t.create now).1, true, (t.create now).2) := by
  unfold ensure
  cases named.bind t.get? with
  | some session => exact Or.inl ⟨session.id, rfl⟩
  | none => exact Or.inr rfl

theorem ids_close : (t.close id).2.ids = t.ids.filter (· ∉ [id]) := by
  rw [ids, ids, close, List.filter_map]
  congr 1
  exact List.filter_congr fun s _ => by simp [bne, BEq.beq]

/-- Where no id is there twice, a lookup finds all there is. -/
theorem get?_eq_some (distinct : t.ids.Nodup) {s : Session} : t.get? id = some s ↔ s ∈ t.sessions ∧ s.id = id := by
  constructor
  · intro found
    exact ⟨List.mem_of_find?_eq_some found, by simpa using List.find?_some found⟩
  · rintro ⟨member, rfl⟩
    obtain ⟨first, found⟩ := Option.isSome_iff_exists.mp (contains_iff.mpr ⟨s, member, rfl⟩)
    have same : first.id = s.id := by simpa using List.find?_some found
    rw [found, List.inj_on_of_nodup_map distinct (List.mem_of_find?_eq_some found) member same]

theorem ids_sweep (distinct : t.ids.Nodup) :
    (t.sweep now idle).2.ids = t.ids.filter (· ∉ (t.sweep now idle).1) := by
  rw [ids, ids, List.filter_map, sweep_eq]
  congr 1
  refine List.filter_congr fun s member => ?_
  simp only [Function.comp_apply, List.mem_map, List.mem_filter, decide_eq_true_eq, decide_eq_decide]
  refine not_congr ⟨fun expired => ⟨s, ⟨member, expired⟩, rfl⟩, ?_⟩
  rintro ⟨other, ⟨there, expired⟩, same⟩
  exact List.inj_on_of_nodup_map distinct there member same ▸ expired

theorem swept_sublist : (t.sweep now idle).1.Sublist t.ids := by
  rw [sweep_eq]
  exact List.filter_sublist.map _

theorem contains_swept (distinct : t.ids.Nodup) (swept : id ∈ (t.sweep now idle).1) :
    (t.sweep now idle).2.contains id = false := by
  rw [Bool.eq_false_iff, ne_eq, ← mem_ids, ids_sweep distinct]
  intro still
  exact of_decide_eq_true (List.mem_filter.mp still).2 swept

theorem nodup_sweep (distinct : t.ids.Nodup) : (t.sweep now idle).2.ids.Nodup := by
  rw [sweep_eq]
  exact distinct.sublist (List.filter_sublist.map _)

theorem get?_sweep (distinct : t.ids.Nodup) :
    (t.sweep now idle).2.get? other = (t.get? other).filter fun s => ¬ Expired now idle s := by
  ext s
  rw [get?_eq_some (nodup_sweep distinct), mem_sweep, Option.filter_eq_some_iff, get?_eq_some distinct]
  simp only [decide_eq_true_eq]
  tauto

theorem issued_sweep : (t.sweep now idle).2.issued = t.issued := by rw [sweep_eq]; rfl

/-- Every session of the table has been minted. -/
def Minted (t : SessionTable) : Prop := t.ids ⊆ t.issued

theorem Minted.of_contains (minted : t.Minted) {session : String} (known : t.contains session = true) :
    session ∈ t.issued := minted (mem_ids.mpr known)

theorem Minted.fresh (now : Int) (minted : t.Minted) : (t.create now).1.id ∉ t.ids :=
  fun member => unissued_create t now (minted member)

/-- The session that is set up has been minted by then. -/
theorem Minted.ensure (minted : t.Minted) (now : Int) (named : Option String) :
    (t.ensure now named).1.id ∈ (t.ensure now named).2.2.issued := by
  unfold SessionTable.ensure
  split
  next session found =>
    obtain ⟨id, _, there⟩ := Option.bind_eq_some_iff.mp found
    have member : session ∈ t.sessions := List.mem_of_find?_eq_some there
    exact minted (List.mem_map.mpr ⟨session, member, rfl⟩)
  next =>
    rw [issued_create]
    exact List.mem_append_right _ (List.mem_singleton_self _)

end SessionTable

end ToolBridge

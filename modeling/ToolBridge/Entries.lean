/-! Finite maps as lists of keys and values. `put` keeps the place of a key that is there. -/

namespace ToolBridge

abbrev Entries (κ α : Type) := List (κ × α)

namespace Entries

variable {κ α : Type} [DecidableEq κ]

def get? (key : κ) : Entries κ α → Option α
  | [] => none
  | (k, v) :: rest => if k = key then some v else get? key rest

def put (key : κ) (value : α) : Entries κ α → Entries κ α
  | [] => [(key, value)]
  | (k, v) :: rest => if k = key then (k, value) :: rest else (k, v) :: put key value rest

/-- Drops every entry of the key. -/
def erase (key : κ) (entries : Entries κ α) : Entries κ α := entries.filter fun (k, _) => k ≠ key

def total (weight : α → Nat) : Entries κ α → Nat
  | [] => 0
  | (_, value) :: rest => weight value + total weight rest

def keys (entries : Entries κ α) : List κ := entries.map (·.1)

theorem get?_put (key other : κ) (value : α) (entries : Entries κ α) :
    get? other (put key value entries) = if key = other then some value else get? other entries := by
  induction entries with
  | nil => simp [put, get?]
  | cons entry rest ih =>
    obtain ⟨k, v⟩ := entry
    unfold put
    split
    · next same => subst same; simp only [get?]; split <;> rfl
    · next differ =>
      simp only [get?, ih]
      split
      · next here => subst here; simp [Ne.symm differ]
      · rfl

theorem get?_erase (key other : κ) (entries : Entries κ α) :
    get? other (erase key entries) = if key = other then none else get? other entries := by
  induction entries with
  | nil => simp [erase, get?]
  | cons entry rest ih =>
    obtain ⟨k, v⟩ := entry
    simp only [erase, List.filter_cons, decide_not, Bool.not_eq_eq_eq_not, Bool.not_true,
      decide_eq_false_iff_not, get?] at ih ⊢
    by_cases gone : k = key
    · subst gone
      simp only [not_true, if_false, ih]
      split <;> rfl
    · simp only [gone, not_false_iff, if_true, get?, ih]
      split
      · next here => subst here; simp [Ne.symm gone]
      · rfl

theorem mem_of_get? {key : κ} {value : α} {entries : Entries κ α} (found : get? key entries = some value) :
    (key, value) ∈ entries := by
  induction entries with
  | nil => cases found
  | cons entry rest ih =>
    obtain ⟨k, v⟩ := entry
    unfold get? at found
    split at found
    · next here =>
      cases found
      simp [here]
    · exact List.mem_cons_of_mem _ (ih found)

theorem mem_keys {key : κ} {value : α} {entries : Entries κ α} (found : get? key entries = some value) :
    key ∈ keys entries :=
  List.mem_map.mpr ⟨_, mem_of_get? found, rfl⟩

theorem get?_of_mem {key : κ} {value : α} {entries : Entries κ α} (distinct : (keys entries).Nodup)
    (member : (key, value) ∈ entries) : get? key entries = some value := by
  induction entries with
  | nil => cases member
  | cons entry rest ih =>
    obtain ⟨k, v⟩ := entry
    obtain ⟨fresh, others⟩ := List.nodup_cons.mp distinct
    unfold get?
    rcases List.mem_cons.mp member with here | later
    · cases here
      exact if_pos rfl
    · rw [if_neg, ih others later]
      rintro rfl
      exact fresh (List.mem_map.mpr ⟨_, later, rfl⟩)

theorem mem_keys_iff {key : κ} {entries : Entries κ α} (distinct : (keys entries).Nodup) :
    key ∈ keys entries ↔ ∃ value, get? key entries = some value := by
  constructor
  · intro member
    obtain ⟨⟨_, value⟩, inside, rfl⟩ := List.mem_map.mp member
    exact ⟨value, get?_of_mem distinct inside⟩
  · rintro ⟨value, found⟩
    exact mem_keys found

theorem mem_keys_put {key other : κ} {value : α} {entries : Entries κ α} :
    other ∈ keys (put key value entries) ↔ other = key ∨ other ∈ keys entries := by
  induction entries with
  | nil => simp [put, keys]
  | cons entry rest ih =>
    obtain ⟨k, v⟩ := entry
    unfold put
    split
    · next here => subst here; simp [keys]
    · simp only [keys, List.map_cons, List.mem_cons] at ih ⊢
      rw [ih]
      exact or_left_comm

theorem nodup_put {key : κ} {value : α} {entries : Entries κ α} (distinct : (keys entries).Nodup) :
    (keys (put key value entries)).Nodup := by
  induction entries with
  | nil => simp [put, keys]
  | cons entry rest ih =>
    obtain ⟨k, v⟩ := entry
    obtain ⟨fresh, others⟩ := List.nodup_cons.mp distinct
    unfold put
    split
    · exact distinct
    · next differ =>
      refine List.nodup_cons.mpr ⟨?_, ih others⟩
      rw [← keys, mem_keys_put]
      rintro (same | old)
      · exact differ same
      · exact fresh old

theorem keys_erase_sublist (key : κ) (entries : Entries κ α) : (keys (erase key entries)).Sublist (keys entries) :=
  List.filter_sublist.map _

end Entries

end ToolBridge

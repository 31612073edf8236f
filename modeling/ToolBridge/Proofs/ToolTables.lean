import Mathlib.Data.List.Induction
import Mathlib.Data.Set.List
import ToolBridge.Tool.Registry

/-! What a table of tools holds, told from the changes made to it: of each name the tool that was registered last, and
of those the ones that have not been switched off since. -/

namespace ToolBridge.Tool

/-- A tool that always describes itself the same way. -/
structure Fixed where
  descriptor : Descriptor
  run : Calendar.Instant → Arguments → Run

namespace Fixed

def name (tool : Fixed) : String := tool.descriptor.name

def entry (tool : Fixed) : Entry := ⟨tool.name, .ok tool.descriptor, tool.run⟩

theorem entry_injective : Function.Injective entry := by
  rintro ⟨d, run⟩ ⟨e, other⟩ same
  obtain ⟨_, described, rfl⟩ := Entry.mk.inj same
  cases described
  rfl

end Fixed

inductive Change where
  | register (tool : Fixed)
  | setEnabled (name : String) (enabled : Bool)

namespace Change

def registered? (name : String) : Change → Option Fixed
  | register tool => if tool.name = name then some tool else none
  | setEnabled .. => none

def switched? (name : String) : Change → Option Bool
  | register _ => none
  | setEnabled other enabled => if other = name then some enabled else none

def latest? (changes : List Change) (name : String) : Option Fixed := (changes.filterMap (registered? name)).getLast?

/-- Whether the name was left switched on, as it is at first. -/
def leftOn (changes : List Change) (name : String) : Bool := ((changes.filterMap (switched? name)).getLast?).getD true

end Change

namespace Table
open Change (latest? leftOn)

def apply (t : Table) : Change → Table
  | .register tool => t.register tool.entry
  | .setEnabled name enabled => t.setEnabled name enabled

def after (changes : List Change) : Table := changes.foldl apply {}

/-! ## Entries in order -/

theorem mem_insert {e f : Entry} {entries : List Entry} (member : f ∈ insert e entries) : f = e ∨ f ∈ entries := by
  induction entries with
  | nil => exact Or.inl (List.mem_singleton.mp member)
  | cons g rest ih =>
    unfold insert at member
    split at member
    · exact List.mem_cons.mp member
    split at member
    · exact (List.mem_cons.mp member).imp_right (List.mem_cons_of_mem g)
    · rcases List.mem_cons.mp member with rfl | later
      · exact Or.inr List.mem_cons_self
      · exact (ih later).imp_right (List.mem_cons_of_mem g)

theorem find?_insert (e : Entry) (entries : List Entry) (name : String) :
    (insert e entries).find? (·.name == name) =
      if e.name == name then some e else entries.find? (·.name == name) := by
  induction entries with
  | nil => rw [insert, List.find?_cons, List.find?_nil]; cases e.name == name <;> rfl
  | cons f rest ih =>
    unfold insert
    split
    · rw [List.find?_cons]; cases e.name == name <;> rfl
    split
    next _ same => simp only [List.find?_cons, ← eq_of_beq same]; cases e.name == name <;> rfl
    next _ other =>
      rw [List.find?_cons, List.find?_cons, ih]
      cases here : f.name == name with
      | false => rfl
      | true =>
        have other : ¬ (e.name == name) = true := eq_of_beq here ▸ other
        exact (if_neg other).symm

/-- Names in order, none of them twice. -/
def Sorted (entries : List Entry) : Prop := entries.Pairwise (·.name < ·.name)

theorem Sorted.insert {entries : List Entry} (sorted : Sorted entries) (e : Entry) : Sorted (insert e entries) := by
  induction entries with
  | nil => exact List.pairwise_singleton _ _
  | cons f rest ih =>
    obtain ⟨first, sorted⟩ := List.pairwise_cons.mp sorted
    unfold Table.insert
    split
    next before =>
      refine List.pairwise_cons.mpr ⟨?_, List.pairwise_cons.mpr ⟨first, sorted⟩⟩
      exact List.forall_mem_cons.mpr ⟨before, fun g member => String.lt_trans before (first g member)⟩
    split
    next same => exact List.pairwise_cons.mpr ⟨fun g member => eq_of_beq same ▸ first g member, sorted⟩
    next notBefore other =>
      have behind : f.name < e.name :=
        Std.lt_of_le_of_ne (String.not_lt.mp notBefore) fun same => other (beq_iff_eq.mpr same.symm)
      refine List.pairwise_cons.mpr ⟨fun g member => ?_, ih sorted⟩
      rcases mem_insert member with rfl | later
      · exact behind
      · exact first g later

/-! ## What the changes leave -/

/-- The table is as the changes leave it. -/
structure Reflects (changes : List Change) (t : Table) : Prop where
  sorted : Sorted t.entries
  fixed : ∀ e ∈ t.entries, ∃ tool : Fixed, tool.entry = e
  latest : ∀ name, t.entries.find? (·.name == name) = (latest? changes name).map Fixed.entry
  off : ∀ name, name ∈ t.disabled ↔ leftOn changes name = false

theorem Reflects.register {changes : List Change} {t : Table} (reflects : Reflects changes t) (tool : Fixed) :
    Reflects (changes ++ [.register tool]) (t.register tool.entry) where
  sorted := reflects.sorted.insert tool.entry
  fixed := fun e member => by
    rcases mem_insert member with rfl | before
    · exact ⟨tool, rfl⟩
    · exact reflects.fixed e before
  latest := fun name => by
    rw [Table.register, find?_insert, reflects.latest]
    by_cases named : tool.name = name <;> simp [latest?, Change.registered?, Fixed.entry, named]
  off := fun name => by
    rw [Table.register, reflects.off]
    simp [leftOn, Change.switched?]

theorem mem_setEnabled {t : Table} {name other : String} {enabled : Bool} :
    other ∈ (t.setEnabled name enabled).disabled ↔ if name = other then enabled = false else other ∈ t.disabled := by
  cases enabled with
  | true =>
    by_cases same : name = other
    · simp [Table.setEnabled, same]
    · simp [Table.setEnabled, same, Ne.symm same]
  | false =>
    simp only [Table.setEnabled, Bool.false_eq_true, if_false]
    split
    next off =>
      split
      next same => exact iff_of_true (same ▸ List.contains_iff_mem.mp off) trivial
      next => rfl
    next =>
      split
      next same => exact iff_of_true (same ▸ List.mem_cons_self) trivial
      next other => exact List.mem_cons.trans (or_iff_right (Ne.symm other))

theorem Reflects.setEnabled {changes : List Change} {t : Table} (reflects : Reflects changes t) (name : String)
    (enabled : Bool) : Reflects (changes ++ [.setEnabled name enabled]) (t.setEnabled name enabled) where
  sorted := reflects.sorted
  fixed := reflects.fixed
  latest := fun other => by
    rw [Table.setEnabled, reflects.latest]
    simp [latest?, Change.registered?]
  off := fun other => by
    rw [mem_setEnabled, reflects.off]
    by_cases named : name = other <;> simp [leftOn, Change.switched?, named]

/-- The tool of that name that the changes leave in use. -/
def inUse? (changes : List Change) (name : String) : Option Fixed :=
  if leftOn changes name then latest? changes name else none

theorem Reflects.find?_enabled {changes : List Change} {t : Table} (reflects : Reflects changes t) (name : String) :
    t.enabled.find? (·.name == name) = (inUse? changes name).map Fixed.entry := by
  have listed (e : Entry) (named : e.name = name) : (!t.disabled.contains e.name) = leftOn changes name := by
    rw [Bool.eq_iff_iff, Bool.not_eq_true', ← Bool.not_eq_true, List.contains_iff_mem, named, reflects.off,
      Bool.not_eq_false]
  cases on : leftOn changes name with
  | false =>
    have unused : inUse? changes name = none := by simp [inUse?, on]
    rw [unused, Option.map_none, List.find?_eq_none]
    intro e member named
    have inside := (List.mem_filter.mp member).2
    rw [listed e (eq_of_beq named), on] at inside
    cases inside
  | true =>
    have used : inUse? changes name = latest? changes name := by simp [inUse?, on]
    rw [used, ← reflects.latest, Table.enabled, List.find?_filter]
    refine congrArg (List.find? · t.entries) (funext fun e => ?_)
    by_cases named : e.name = name
    · rw [listed e named, on, named]
      simp
    · simp [named]

/-- The tools in use, in the order of their names. -/
theorem Reflects.enabled {changes : List Change} {t : Table} (reflects : Reflects changes t) : ∃ tools : List Fixed,
    t.enabled = tools.map Fixed.entry ∧ tools.Pairwise (·.name < ·.name) ∧
      ∀ name, tools.find? (·.name == name) = inUse? changes name := by
  have sublist : t.enabled.Sublist t.entries := List.filter_sublist
  have fixed : t.enabled ∈ Set.range (List.map Fixed.entry) := by
    rw [Set.range_list_map]
    exact fun e member => reflects.fixed e (sublist.subset member)
  obtain ⟨tools, same⟩ := fixed
  refine ⟨tools, same.symm, ?_, fun name => ?_⟩
  · have sorted : t.enabled.Pairwise (·.name < ·.name) := List.Pairwise.sublist sublist reflects.sorted
    rw [← same, List.pairwise_map] at sorted
    exact sorted
  · have found := reflects.find?_enabled name
    rw [← same, List.find?_map] at found
    exact Option.map_injective Fixed.entry_injective found

theorem mapM_describe (tools : List Fixed) :
    (tools.map Fixed.entry).mapM (·.describe) = .ok (tools.map Fixed.descriptor) := by
  induction tools with
  | nil => rfl
  | cons tool rest ih =>
    rw [List.map_cons, List.mapM_cons, ih]
    rfl

theorem Reflects.list {changes : List Change} {t : Table} (reflects : Reflects changes t) : ∃ listed : List Descriptor,
    t.list = .ok listed ∧ listed.Pairwise (·.name < ·.name) ∧
      ∀ name, listed.find? (·.name == name) = (inUse? changes name).map Fixed.descriptor := by
  obtain ⟨tools, same, sorted, found⟩ := reflects.enabled
  refine ⟨tools.map Fixed.descriptor, ?_, List.pairwise_map.mpr sorted, fun name => ?_⟩
  · rw [Table.list, same, mapM_describe]
  · rw [List.find?_map, ← found]
    rfl

theorem Reflects.run {changes : List Change} {t : Table} (reflects : Reflects changes t) (now : Calendar.Instant)
    (name : String) (arguments : Arguments) : t.run now name arguments =
      ((inUse? changes name).map fun tool => tool.run now arguments).getD (.failure (.notFound name)) := by
  have found := reflects.find?_enabled name
  unfold Table.run
  cases used : inUse? changes name with
  | none =>
    rw [used, Option.map_none] at found
    rw [found]
    rfl
  | some tool =>
    rw [used, Option.map_some] at found
    rw [found]
    rfl

end Table

end ToolBridge.Tool

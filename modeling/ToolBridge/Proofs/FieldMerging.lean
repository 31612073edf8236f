import Mathlib.Data.List.Induction
import Mathlib.Data.List.Infix
import ToolBridge.Http.Fields

/-! What header lines come to together. Adding them one after the other gives each name one field, in
the place of its first line, with the values of all its lines in their order. -/

namespace ToolBridge.Http.Fields

abbrev Lines := List (String × String)

def valuesOf (name : String) (lines : Lines) : List String :=
  (lines.filter (·.1 = name)).map (·.2)

def merged (lines : Lines) : Fields :=
  (lines.map (·.1)).eraseDups.map fun name => (name, ", ".intercalate (valuesOf name lines))

def addAll (lines : Lines) (fields : Fields) : Fields :=
  lines.foldl (fun fields (name, value) => fields.add name value) fields

theorem valuesOf_append (name : String) (lines later : Lines) :
    valuesOf name (lines ++ later) = valuesOf name lines ++ valuesOf name later := by
  simp [valuesOf]

theorem valuesOf_eq_nil {name : String} {lines : Lines} :
    valuesOf name lines = [] ↔ name ∉ lines.map (·.1) := by
  simp only [valuesOf, List.map_eq_nil_iff, List.filter_eq_nil_iff, decide_eq_true_eq, List.mem_map, not_exists, not_and]

theorem get?_map (name : String) (names : List String) (value : String → String) :
    Entries.get? name (names.map fun n => (n, value n)) = if name ∈ names then some (value name) else none := by
  induction names with
  | nil => rfl
  | cons n rest ih =>
    simp only [List.map_cons, Entries.get?, ih, List.mem_cons]
    by_cases here : n = name
    · simp [here]
    · simp [here, Ne.symm here]

theorem get?_merged (name : String) (lines : Lines) :
    (merged lines).get? name =
      if name ∈ lines.map (·.1) then some (", ".intercalate (valuesOf name lines)) else none := by
  rw [merged, get?_map]
  simp only [List.mem_eraseDups]

theorem put_map {name : String} {names : List String} {value : String → String} (word : String)
    (distinct : names.Nodup) :
    Entries.put name word (names.map fun n => (n, value n)) =
      (if name ∈ names then names else names ++ [name]).map
        fun n => (n, if n = name then word else value n) := by
  induction names with
  | nil => simp [Entries.put]
  | cons n rest ih =>
    obtain ⟨fresh, others⟩ := List.nodup_cons.mp distinct
    rw [List.map_cons, Entries.put]
    by_cases here : n = name
    · subst here
      have kept : ∀ m ∈ rest, (m, value m) = (m, if m = n then word else value m) := by
        intro m member
        rw [if_neg]
        rintro rfl
        exact fresh member
      simp [List.map_congr_left kept]
    · rw [if_neg here, ih others]
      by_cases later : name ∈ rest <;> simp [here, later, Ne.symm here]

theorem eraseDups_concat (names : List String) (name : String) :
    (names ++ [name]).eraseDups = if name ∈ names then names.eraseDups else names.eraseDups ++ [name] := by
  rw [List.eraseDups_append, List.cons_removeAll, List.nil_removeAll]
  by_cases old : name ∈ names <;> simp [old, List.eraseDups_cons]

theorem nodup_eraseDups (names : List String) : names.eraseDups.Nodup := by
  induction names using List.reverseRecOn with
  | nil => exact List.nodup_nil
  | append_singleton names name ih =>
    rw [eraseDups_concat]
    split
    · exact ih
    · next fresh =>
      rw [List.nodup_append]
      refine ⟨ih, List.pairwise_singleton .., ?_⟩
      rintro old member _ here rfl
      exact fresh (List.mem_singleton.mp here ▸ List.mem_eraseDups.mp member)

theorem join_concat (values : List String) (value : String) :
    ", ".intercalate (values ++ [value]) =
      if values = [] then value else ", ".intercalate values ++ ", " ++ value := by
  split
  · next empty => rw [empty, List.nil_append, String.intercalate_singleton]
  · next some => rw [String.intercalate_append_of_ne_nil some (List.cons_ne_nil _ _), String.intercalate_singleton]

theorem infix_join {values : List String} {value : String} (member : value ∈ values) :
    value.toList <:+: (", ".intercalate values).toList := by
  induction values with
  | nil => cases member
  | cons first rest ih =>
    by_cases single : rest = []
    · obtain rfl : value = first := by simpa [single] using member
      rw [single, String.intercalate_singleton]
    · rw [String.intercalate_cons_of_ne_nil single, String.toList_append, String.toList_append]
      rcases List.mem_cons.mp member with rfl | later
      · exact (List.prefix_append _ _).isInfix.trans (List.prefix_append _ _).isInfix
      · exact (ih later).trans (List.suffix_append _ _).isInfix

theorem merged_concat (lines : Lines) (name value : String) :
    merged (lines ++ [(name, value)]) = (merged lines).add name value := by
  have one : valuesOf name [(name, value)] = [value] := by simp [valuesOf]
  have others : ∀ n, n ≠ name → valuesOf n (lines ++ [(name, value)]) = valuesOf n lines := by
    intro n differ
    simp [valuesOf, Ne.symm differ]
  rw [add, get?_merged, merged, merged, put_map _ (nodup_eraseDups _), List.map_append, List.map_singleton,
    eraseDups_concat]
  simp only [List.mem_eraseDups]
  apply List.map_congr_left
  intro n _
  by_cases here : n = name
  · subst here
    rw [if_pos rfl, valuesOf_append, one, join_concat]
    simp only [valuesOf_eq_nil]
    by_cases old : n ∈ lines.map (·.1) <;> simp [old]
  · rw [if_neg here, others n here]

theorem addAll_nil (lines : Lines) : addAll lines [] = merged lines := by
  induction lines using List.reverseRecOn with
  | nil => rfl
  | append_singleton lines line ih =>
    rw [merged_concat, ← ih, addAll, List.foldl_append]
    rfl

end ToolBridge.Http.Fields

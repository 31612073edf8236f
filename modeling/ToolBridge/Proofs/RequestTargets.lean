import ToolBridge.Proofs.PercentEscapes
import ToolBridge.Proofs.ReadFields
import ToolBridge.Proofs.WrittenFrames

/-! Targets of requests. Of one that has been read, the path has no blanks in it and ends before the query. Such a path
comes back from a target that is written of it, and with it the parameters written behind it. -/

namespace ToolBridge.Http

/-- A path that a request can name: nothing in it ends the target or starts the query. -/
structure Askable (path : String) : Prop where
  solid : Text.Solid path
  whole : '?' ∉ path.toList

theorem askable_splitTarget {target : String} (solid : Text.Solid target) : Askable (splitTarget target).1 := by
  have kept {path : String} (solid : Text.Solid path) (whole : '?' ∉ path.toList) : Askable (if path = "" then "/" else path) := by
    split
    · exact ⟨by simp [Text.Solid, Text.isBlank], by decide⟩
    · exact ⟨solid, whole⟩
  unfold splitTarget
  cases cut : Text.cutAt '?' target with
  | none => exact kept solid (Text.cutAt_eq_none.mp cut)
  | some parts =>
    obtain ⟨path, query⟩ := parts
    have apart := Text.cutAt_parts cut
    refine kept (fun c member => solid c ?_) (Text.notMem_cutAt cut)
    rw [apart]
    exact List.mem_append_left _ member

/-- A request that has been read names a path that can be named. -/
theorem readRequest_askable (limit : Nat) (input : Bytes) :
    (readRequest limit input).Gives fun found => ∀ r, found = some r → Askable r.path := by
  refine (readFirstLine_gives headLimit input).bind fun first solid rest => ?_
  cases first with
  | none => exact .done (fun _ same => by cases same) rest
  | some begun =>
    obtain ⟨line, budget⟩ := begun
    refine (readHeaders_gives budget rest (List.forall_mem_nil _)).bind fun fields _ rest => ?_
    refine (readBody_gives limit rest fields).map fun body _ r same => ?_
    cases same
    exact askable_splitTarget (solid _ rfl)

/-! ## Written targets -/

theorem splitTarget_plain {path : String} (askable : Askable path) (named : path ≠ "") : splitTarget path = (path, []) := by
  have uncut : Text.cutAt '?' path = none := Text.cutAt_eq_none.mpr askable.whole
  simp only [splitTarget, uncut, Option.getD_none, if_neg named]
  rfl

open Text.Percent (encode)

theorem free_encode {sep : Char} (cuts : sep ∈ ['?', '&', '=', '+']) (s : String) : sep ∉ (encode s).toList :=
  fun member => (Text.Percent.mark_encode member).apart cuts

theorem plusToBlank_encode (s : String) : plusToBlank (encode s) = encode s := by
  have same : ∀ c ∈ (encode s).toList, (if c == '+' then ' ' else c) = c := by
    intro c member
    refine if_neg fun plus => ?_
    exact free_encode (by decide) s (beq_iff_eq.mp plus ▸ member)
  rw [plusToBlank, List.map_congr_left same, List.map_id', String.ofList_toList]

theorem readParameter_encoded (name value : String) : readParameter (encode name ++ "=" ++ encode value) = some (name, value) := by
  have cut : Text.cutAt '=' (encode name ++ "=" ++ encode value) = some (encode name, encode value) :=
    Text.cutAt_first (free_encode (by decide) name)
  simp only [readParameter, cut, Option.getD_some, plusToBlank_encode, Text.Percent.decode?_encode]
  rfl

theorem readQuery_encoded (name value : String) : readQuery (encode name ++ "=" ++ encode value) = [(name, value)] := by
  have whole : '&' ∉ (encode name ++ "=" ++ encode value).toList := by
    simp [String.toList_append, free_encode]
  have spoken : encode name ++ "=" ++ encode value ≠ "" := by simp
  rw [readQuery, Text.split_eq_singleton whole]
  simp only [spoken, ne_eq, not_false_eq_true, decide_true, List.filter_cons_of_pos, List.filter_nil, List.foldl_cons,
    List.foldl_nil, readParameter_encoded]
  rfl

theorem splitTarget_encoded {path : String} (askable : Askable path) (named : path ≠ "") (name value : String) :
    splitTarget (path ++ "?" ++ (encode name ++ "=" ++ encode value)) = (path, [(name, value)]) := by
  have cut : Text.cutAt '?' (path ++ "?" ++ (encode name ++ "=" ++ encode value)) =
      some (path, encode name ++ "=" ++ encode value) := Text.cutAt_first askable.whole
  simp only [splitTarget, cut, Option.getD_some, if_neg named, readQuery_encoded]

theorem solid_encoded {path : String} (askable : Askable path) (name value : String) :
    Text.Solid (path ++ "?" ++ (encode name ++ "=" ++ encode value)) := by
  have written (s : String) : ∀ c ∈ (encode s).toList, Text.isBlank c = false := fun c member =>
    have visible := (Text.Percent.mark_encode member).visible
    Text.isBlank_of_visible visible.1 visible.2
  have marks : ∀ c ∈ ['?', '='], Text.isBlank c = false := by simp [Text.isBlank]
  intro c member
  simp only [String.toList_append, List.mem_append] at member
  rcases member with (path | mark) | (name | mark) | value
  · exact askable.solid c path
  · exact marks c (List.mem_cons.mpr (Or.inl (List.mem_singleton.mp mark)))
  · exact written _ c name
  · exact marks c (List.mem_cons_of_mem _ mark)
  · exact written _ c value

end ToolBridge.Http

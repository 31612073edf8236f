import Mathlib.Data.List.TakeWhile
import ToolBridge.Proofs.LongerInput

/-! What reading makes of any octets. A value of a field is put together from pieces of lines, so there is no line
feed in it, and every fault that reading finds is one that can be answered. -/

namespace ToolBridge

/-- A text that fits on a line of its own. -/
def Text.Unbroken (s : String) : Prop := '\n' ∉ s.toList

instance (s : String) : Decidable (Text.Unbroken s) := inferInstanceAs (Decidable (¬ _))

namespace Text

theorem unbroken_of_subset {s t : String} (unbroken : Unbroken t) (inside : s.toList ⊆ t.toList) : Unbroken s :=
  fun member => unbroken (inside member)

theorem trim_subset (s : String) : (trim s).toList ⊆ s.toList := by
  rw [trim, String.toList_ofList, trimChars]
  intro c member
  have reversed := (List.dropWhile_suffix _).subset (List.mem_reverse.mp member)
  exact (List.dropWhile_suffix _).subset (List.mem_reverse.mp reversed)

theorem cutChars_parts {sep : Char} {s before after : List Char} (cut : cutChars sep s = some (before, after)) :
    s = before ++ sep :: after := by
  have whole := List.takeWhile_append_dropWhile (p := (· != sep)) (l := s)
  unfold cutChars at cut
  rw [List.span_eq_takeWhile_dropWhile] at cut
  cases dropped : s.dropWhile (· != sep) with
  | nil => simp [dropped] at cut
  | cons c rest =>
    have nonempty : s.dropWhile (· != sep) ≠ [] := by simp [dropped]
    have here : c = sep := by
      have first := List.head_dropWhile_not (· != sep) nonempty
      simpa [dropped] using first
    rw [dropped] at cut whole
    cases cut
    rw [here] at whole
    exact whole.symm

theorem cutAt_parts {sep : Char} {s before after : String} (cut : cutAt sep s = some (before, after)) :
    s.toList = before.toList ++ sep :: after.toList := by
  obtain ⟨⟨first, last⟩, parts, same⟩ := Option.map_eq_some_iff.mp cut
  cases same
  rw [String.toList_ofList, String.toList_ofList]
  exact cutChars_parts parts

theorem notMem_cutAt {sep : Char} {s before after : String} (cut : cutAt sep s = some (before, after)) :
    sep ∉ before.toList := by
  obtain ⟨⟨first, last⟩, parts, same⟩ := Option.map_eq_some_iff.mp cut
  cases same
  rw [String.toList_ofList]
  unfold cutChars at parts
  rw [List.span_eq_takeWhile_dropWhile] at parts
  cases dropped : s.toList.dropWhile (· != sep) with
  | nil => simp [dropped] at parts
  | cons c rest =>
    rw [dropped] at parts
    cases parts
    exact fun member => by simpa using List.mem_takeWhile_imp member

theorem cutAt_eq_none {sep : Char} {s : String} : cutAt sep s = none ↔ sep ∉ s.toList := by
  have remains : (s.toList.dropWhile (· != sep) = []) ↔ sep ∉ s.toList := by
    rw [List.dropWhile_eq_nil_iff]
    constructor
    · intro others member
      simpa using others sep member
    · intro free c member
      exact bne_iff_ne.mpr fun same => free (same ▸ member)
  rw [← remains, cutAt, Option.map_eq_none_iff, cutChars, List.span_eq_takeWhile_dropWhile]
  cases s.toList.dropWhile (· != sep) <;> simp

theorem unbroken_cutAt {sep : Char} {s before after : String} (unbroken : Unbroken s)
    (cut : cutAt sep s = some (before, after)) : Unbroken before ∧ Unbroken after := by
  have parts := cutAt_parts cut
  constructor <;> refine unbroken_of_subset unbroken fun c member => ?_ <;> rw [parts]
  · exact List.mem_append_left _ member
  · exact List.mem_append_right _ (List.mem_cons_of_mem _ member)

theorem unbroken_append {s t : String} : Unbroken (s ++ t) ↔ Unbroken s ∧ Unbroken t := by
  rw [Unbroken, String.toList_append, List.mem_append, not_or, Unbroken, Unbroken]

theorem utf8_of_ofUtf8? {bytes : Bytes} {s : String} (read : ofUtf8? bytes = some s) : utf8 s = bytes := by
  unfold ofUtf8? String.fromUTF8? at read
  split at read
  · cases read
    simp [utf8, String.toUTF8, String.fromUTF8]
  · cases read

theorem mem_utf8_feed {s : String} (broken : ¬ Unbroken s) : 0x0A ∈ utf8 s := by
  rw [utf8_eq, List.mem_flatMap]
  exact ⟨'\n', not_not.mp broken, by decide⟩

end Text

theorem Entries.mem_put {κ α : Type} [DecidableEq κ] {key : κ} {value : α} {entries : Entries κ α} {entry : κ × α}
    (member : entry ∈ entries.put key value) : entry = (key, value) ∨ entry ∈ entries := by
  induction entries with
  | nil => exact Or.inl (List.mem_singleton.mp member)
  | cons first rest ih =>
    obtain ⟨k, v⟩ := first
    unfold put at member
    split at member
    next same =>
      rcases List.mem_cons.mp member with rfl | later
      · exact Or.inl (by rw [same])
      · exact Or.inr (List.mem_cons_of_mem _ later)
    next =>
      rcases List.mem_cons.mp member with rfl | later
      · exact Or.inr List.mem_cons_self
      · exact (ih later).imp_right (List.mem_cons_of_mem _)

namespace Http

def Fields.Unbroken (fields : Fields) : Prop := ∀ field ∈ fields, Text.Unbroken field.2

theorem Fields.Unbroken.add {fields : Fields} (unbroken : fields.Unbroken) (name : String) {value : String}
    (single : Text.Unbroken value) : (fields.add name value).Unbroken := by
  intro field member
  rcases Entries.mem_put member with rfl | old
  · dsimp only
    cases found : fields.get? name with
    | none => exact single
    | some earlier =>
      have before : Text.Unbroken earlier := unbroken _ (Entries.mem_of_get? found)
      exact Text.unbroken_append.mpr ⟨Text.unbroken_append.mpr ⟨before, by decide⟩, single⟩
  · exact unbroken field old

theorem withoutEndCr_subset (line : Bytes) : withoutEndCr line ⊆ line := by
  unfold withoutEndCr
  split
  next rest reversed =>
    intro b member
    rw [← List.mem_reverse, reversed]
    exact List.mem_cons_of_mem _ (List.mem_reverse.mp member)
  next => exact List.Subset.refl _

theorem readLine_unbroken {budget left : Nat} {input rest : Bytes} {text : String}
    (read : readLine budget input = .line text left rest) : Text.Unbroken text := by
  simp only [readLine] at read
  split at read
  · split at read
    · cases read
    · split at read <;> cases read
  · split at read
    · cases read
    · split at read
      next told =>
        cases read
        by_contra broken
        have feed := Text.mem_utf8_feed broken
        rw [Text.utf8_of_ofUtf8? told] at feed
        exact absurd (List.mem_takeWhile_imp (withoutEndCr_subset _ feed)) (by decide)
      · cases read

/-! ## What a reading comes to -/

/-- Whatever a reading comes to has a property, unless it is a fault, and that can be answered. -/
structure Reading.Gives {α : Type} (holds : α → Prop) (r : Reading α) : Prop where
  value : ∀ value, r.atEnd = .ok value → holds value
  fault : ∀ fault, r.atEnd = .error fault → fault.status?.isSome

namespace Reading.Gives
variable {α β : Type} {holds : α → Prop} {r : Reading α}

theorem done {value : α} (held : holds value) (rest : Bytes) : (Reading.done value rest).Gives holds :=
  ⟨fun _ same => by cases same; exact held, fun _ same => by cases same⟩

theorem refused {fault : Fault} (told : fault.status?.isSome) : (Reading.refused fault).Gives holds :=
  ⟨fun _ same => (by cases same), fun _ same => by cases same; exact told⟩

theorem ended {value : α} (held : holds value) : (Reading.more (.ok value)).Gives holds :=
  ⟨fun _ same => by cases same; exact held, fun _ same => by cases same⟩

theorem unlessMore (flaw : RequestFlaw) : (Reading.unlessMore flaw).Gives holds :=
  ⟨fun _ same => (by cases same), fun _ same => by cases same; rfl⟩

theorem bind {kept : β → Prop} {next : α → Bytes → Reading β} (given : r.Gives holds)
    (goes : ∀ value, holds value → ∀ rest, (next value rest).Gives kept) : (r.bind next).Gives kept := by
  cases r with
  | done value rest => exact goes value (given.value value rfl) rest
  | refused fault => exact .refused (given.fault fault rfl)
  | more atEnd =>
    cases atEnd with
    | ok value =>
      have later := goes value (given.value value rfl) []
      exact ⟨later.value, later.fault⟩
    | error fault => exact ⟨fun _ same => (by cases same), fun _ same => by cases same; exact given.fault fault rfl⟩

theorem map {kept : β → Prop} {f : α → β} (given : r.Gives holds) (goes : ∀ value, holds value → kept (f value)) :
    (r.map f).Gives kept :=
  given.bind fun value held rest => .done (goes value held) rest

theorem check {part : Except RequestFlaw β} {next : β → Reading α} (goes : ∀ value, part = .ok value → (next value).Gives holds) :
    (Reading.check part next).Gives holds := by
  cases part with
  | error flaw => exact .refused rfl
  | ok value => exact goes value rfl

end Reading.Gives

theorem readLine_refused_told {budget : Nat} {input : Bytes} {fault : Fault}
    (read : readLine budget input = .refused fault) : fault.status?.isSome := by
  simp only [readLine] at read
  split at read
  · split at read
    · cases read
      rfl
    · split at read <;> cases read
  · split at read
    · cases read
      rfl
    · split at read <;> cases read
      rfl

theorem readHeader_unbroken {line : String} {fields result : Fields} (single : Text.Unbroken line)
    (unbroken : fields.Unbroken) (read : readHeader line fields = .ok result) : result.Unbroken := by
  unfold readHeader at read
  split at read
  · cases read
  next name value cut =>
    simp only at read
    split at read
    · cases read
    · cases read
      have inside := (Text.unbroken_cutAt single cut).2
      exact unbroken.add _ (Text.unbroken_of_subset inside (Text.trim_subset value))

theorem readRequestLine_solid {text : String} {line : RequestLine} (read : readRequestLine text = .ok line) :
    Text.Solid line.target := by
  unfold readRequestLine at read
  split at read
  next method target version more words =>
    have word : target ∈ Text.words text := words ▸ List.mem_cons_of_mem _ List.mem_cons_self
    split at read
    · cases read
    split at read
    · cases read
    · cases read
      exact Text.solid_words text target word
  next => cases read

section
variable (limit budget : Nat) (input : Bytes)

theorem readHeaders_gives {fields : Fields} (unbroken : fields.Unbroken) :
    (readHeaders fields budget input).Gives Fields.Unbroken := by
  fun_induction readHeaders fields budget input with
  | case1 => exact .unlessMore _
  | case2 => exact .unlessMore _
  | case3 fields budget input fault read => exact .refused (readLine_refused_told read)
  | case4 => exact .done unbroken _
  | case5 fields budget input text left rest read spoken ih =>
    exact .check fun result header => ih result (readHeader_unbroken (readLine_unbroken read) unbroken header)

/-- Blanks divide the line, so there are none in its target. -/
theorem readFirstLine_gives :
    (readFirstLine budget input).Gives fun first => ∀ begun, first = some begun → Text.Solid begun.1.target := by
  fun_induction readFirstLine budget input with
  | case1 => exact .ended fun _ same => by cases same
  | case2 => exact .unlessMore _
  | case3 budget input fault read => exact .refused (readLine_refused_told read)
  | case4 budget input left rest read ih => exact ih
  | case5 => exact .check fun line read => .done (fun _ same => Option.some.inj same ▸ readRequestLine_solid read) _

theorem readTrailers_gives : (readTrailers budget input).Gives fun _ => True := by
  fun_induction readTrailers budget input with
  | case1 => exact .ended trivial
  | case2 => exact .unlessMore _
  | case3 budget input fault read => exact .refused (readLine_refused_told read)
  | case4 => exact .done trivial _
  | case5 budget input text left rest read spoken ih => exact ih

theorem readChunks_gives (length : Nat) (taken : Bytes) :
    (readChunks limit length taken budget input).Gives fun _ => True := by
  fun_induction readChunks limit length taken budget input with
  | case1 => exact .unlessMore _
  | case2 => exact .unlessMore _
  | case3 length taken budget input fault read => exact .refused (readLine_refused_told read)
  | case4 length taken budget input text left rest read ih =>
    refine .check fun size _ => ?_
    split
    · exact (readTrailers_gives left rest).map fun _ _ => trivial
    split
    · exact .refused rfl
    split
    next a b after dropped =>
      split
      · exact ih size a b after dropped
      · exact .refused rfl
    · exact .unlessMore _

theorem readBody_gives (fields : Fields) : (readBody limit fields input).Gives fun _ => True := by
  unfold readBody
  split
  · exact readChunks_gives limit headLimit input 0 []
  · refine .check fun length _ => ?_
    dsimp only
    split
    · exact .refused rfl
    split
    · exact .unlessMore _
    · exact .done trivial _

/-- The values of the fields of a request fit on lines, and what is no request can be answered. -/
theorem readRequest_gives :
    (readRequest limit input).Gives fun found => ∀ r, found = some r → Fields.Unbroken r.headers := by
  refine (readFirstLine_gives headLimit input).bind fun first _ rest => ?_
  cases first with
  | none => exact .done (fun _ same => by cases same) rest
  | some begun =>
    obtain ⟨line, budget⟩ := begun
    refine (readHeaders_gives budget rest (List.forall_mem_nil _)).bind fun fields unbroken rest => ?_
    exact (readBody_gives limit rest fields).map fun body _ r same => by cases same; exact unbroken

end

end Http

end ToolBridge

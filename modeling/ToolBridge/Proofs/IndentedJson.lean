import Mathlib.Data.List.Nodup
import ToolBridge.Json.Record
import ToolBridge.Proofs.JsonLayouts

/-! Indented JSON text, read by readers of one type each. A list is its items again, and a record with all its fields as
members is what their values make of it. -/

namespace ToolBridge.Json

/-- What is written of a value that stands so deep, in octets. -/
def prettyOctets (depth : Nat) (j : Json) : Bytes := Text.octets (j.prettyChars depth)

def indentationOctets (depth : Nat) : Bytes := Text.octets (indentation depth)

theorem blanks_indentation (depth : Nat) : Blanks (indentationOctets depth) := by
  have blank : String.utf8EncodeChar ' ' = [0x20] := by decide
  have feed : String.utf8EncodeChar '\n' = [0x0A] := by decide
  intro b member
  obtain ⟨c, inside, octet⟩ := List.mem_flatMap.mp member
  rcases List.mem_cons.mp inside with rfl | replicated
  · rw [feed, List.mem_singleton] at octet
    exact octet ▸ rfl
  · rw [List.eq_of_mem_replicate replicated, blank, List.mem_singleton] at octet
    exact octet ▸ rfl

/-- Around what stands so deep, each item or member on its own line. -/
def indented (depth : Nat) : Layout where
  value := prettyOctets (depth + 1)
  line := indentationOctets (depth + 1)
  close := indentationOctets depth
  gap := [0x20]
  line_blanks := blanks_indentation (depth + 1)
  close_blanks := blanks_indentation depth

@[simp] theorem indented_value (depth : Nat) (j : Json) : (indented depth).value j = j.prettyOctets (depth + 1) := rfl

@[simp] theorem indented_line (depth : Nat) : (indented depth).line = indentationOctets (depth + 1) := rfl

@[simp] theorem indented_close (depth : Nat) : (indented depth).close = indentationOctets depth := rfl

@[simp] theorem indented_gap (depth : Nat) : (indented depth).gap = [0x20] := rfl

theorem octets_prettyItems (depth : Nat) (first : Bool) (items : List Json) :
    Text.octets (prettyItems (depth + 1) first items) = (indented depth).items first items := by
  have comma : String.utf8EncodeChar ',' = [0x2C] := by decide
  induction items generalizing first with
  | nil => rfl
  | cons j items ih =>
    cases first <;> simp [prettyItems, Layout.items, separator, prettyOctets, indentationOctets, comma, ih]

theorem octets_prettyMembers (depth : Nat) (first : Bool) (members : List (String × Json)) :
    Text.octets (prettyMembers (depth + 1) first members) = (indented depth).members first members := by
  have comma : String.utf8EncodeChar ',' = [0x2C] := by decide
  have colon : String.utf8EncodeChar ':' = [0x3A] := by decide
  have blank : String.utf8EncodeChar ' ' = [0x20] := by decide
  induction members generalizing first with
  | nil => rfl
  | cons m members ih =>
    obtain ⟨name, j⟩ := m
    have named := octets_quote name (0x3A :: 0x20 :: (j.prettyOctets (depth + 1) ++ (indented depth).members false members))
    cases first <;> simpa [prettyMembers, Layout.members, separator, prettyOctets, indentationOctets, comma, colon, blank,
      ih] using named

theorem prettyOctets_arr (depth : Nat) {items : List Json} (some_ : items ≠ []) (rest : Bytes) :
    (Json.arr items).prettyOctets depth ++ rest =
      0x5B :: ((indented depth).items true items ++ ((indented depth).close ++ 0x5D :: rest)) := by
  have open_ : String.utf8EncodeChar '[' = [0x5B] := by decide
  have close : String.utf8EncodeChar ']' = [0x5D] := by decide
  cases items with
  | nil => exact absurd rfl some_
  | cons j items => simp [prettyOctets, prettyChars, indentationOctets, open_, close, octets_prettyItems]

theorem prettyOctets_obj (depth : Nat) {members : List (String × Json)} (some_ : members ≠ []) (rest : Bytes) :
    (Json.obj members).prettyOctets depth ++ rest =
      0x7B :: ((indented depth).members true members ++ ((indented depth).close ++ 0x7D :: rest)) := by
  have open_ : String.utf8EncodeChar '\x7b' = [0x7B] := by decide
  have close : String.utf8EncodeChar '\x7d' = [0x7D] := by decide
  cases members with
  | nil => exact absurd rfl some_
  | cons m members => simp [prettyOctets, prettyChars, indentationOctets, open_, close, octets_prettyMembers]

/-! ## Readers of values -/

section
variable {α : Type}

/-- The reader gives the value for what is written of `j`, whatever blanks stand before it. -/
def Gives (reader : Reader α) (depth : Nat) (j : Json) (value : α) : Prop :=
  ∀ blanks rest, Blanks blanks → Ends rest → reader (blanks ++ (j.prettyOctets depth ++ rest)) = .ok (value, rest)

theorem atValue_blanks (reader : UInt8 → Reader α) {blanks : Bytes} (all : Blanks blanks) {b : UInt8}
    (visible : isSpace b = false) (rest : Bytes) : atValue reader (blanks ++ b :: rest) = reader b (b :: rest) := by
  rw [atValue, skipSpace_blanks all visible]

theorem gives_bool (depth : Nat) (value : Bool) : Gives readBool depth (.bool value) value := by
  intro blanks rest all _
  cases value with
  | true => exact atValue_blanks _ all (by decide) _
  | false => exact atValue_blanks _ all (by decide) _

theorem gives_whole {n : Nat} (fits : n < UInt64.size) {least bound : Int} (within : least ≤ n ∧ n < bound)
    (type : String) (depth : Nat) : Gives (readWhole least bound type) depth (.ofNat n) n := by
  intro blanks rest all ends
  obtain ⟨b, tail, shape, digit⟩ := naturalOctets_head n
  have read := readNumber_natural (⟨by omega, Int.ofNat_lt.mpr fits⟩ : Fits n) ends
  have octets : (Json.ofNat n).prettyOctets depth = b :: tail := shape
  have sign := digit_apart digit (by decide : isDigit 0x2D = false)
  rw [shape, List.cons_append] at read
  rw [octets, List.cons_append, readWhole, atValue_blanks _ all (visible_digit digit)]
  simp [sign, digit, read, within, bind, Except.bind]

theorem prettyOctets_str (depth : Nat) (s : String) (rest : Bytes) :
    (Json.str s).prettyOctets depth ++ rest = 0x22 :: (Text.octets (s.toList.flatMap escapeChar) ++ 0x22 :: rest) :=
  octets_quote s rest

theorem gives_text (expected : String) (depth : Nat) (s : String) : Gives (readText expected) depth (.str s) s := by
  intro blanks rest all _
  rw [prettyOctets_str, readText, atValue_blanks _ all (by decide)]
  exact readString_escaped s rest

/-- A text or null: the text need not be asked for, but it is no null. -/
theorem gives_option {reader : Reader String} {depth : Nat} (each : ∀ s, Gives reader depth (.str s) s)
    (value : Option String) : Gives (readOption reader) depth (value.elim .null .str) value := by
  intro blanks rest all ends
  cases value with
  | none =>
    have shape : Json.null.prettyOctets depth ++ rest = 0x6E :: 0x75 :: 0x6C :: 0x6C :: rest := rfl
    rw [Option.elim_none, shape, readOption, skipSpace_blanks all (by decide)]
    rfl
  | some s =>
    have read := each s [] rest blanks_nil ends
    rw [List.nil_append, prettyOctets_str] at read
    rw [Option.elim_some, prettyOctets_str, readOption, skipSpace_blanks all (by decide)]
    simp [read, Except.map]

/-- A list of values that can be told from what is written of them. -/
theorem gives_list {item : Reader α} {depth : Nat} {values : List α} {write : α → Json} (told : Json → α)
    (same : ∀ value, told (write value) = value)
    (opens : ∀ value ∈ values, (indented depth).Opens (write value))
    (each : ∀ value ∈ values, Gives item (depth + 1) (write value) value) :
    Gives (readList item) depth (.arr (values.map write)) values := by
  intro blanks rest all _
  by_cases some_ : values = []
  · subst some_
    have shape : (Json.arr ([].map write)).prettyOctets depth ++ rest = 0x5B :: 0x5D :: rest := rfl
    rw [shape, readList, atValue_blanks _ all (by decide)]
    rfl
  · have whole : ∀ j ∈ values.map write, (indented depth).Opens j := List.forall_mem_map.mpr opens
    have reads (j : Json) (member : j ∈ values.map write) (done : List α) (rest : Bytes) (ends : Ends rest) :
        (item (j.prettyOctets (depth + 1) ++ rest)).map (fun read => (read.1 :: done, read.2)) =
          .ok (told j :: done, rest) := by
      obtain ⟨value, inside, rfl⟩ := List.mem_map.mp member
      have read := each value inside [] rest blanks_nil ends
      rw [List.nil_append] at read
      rw [read, same]
      rfl
    have collected : (values.map write).foldl (fun done j => told j :: done) [] = values.reverse := by
      rw [List.foldl_map]
      simp [same]
    obtain ⟨text, written⟩ : ∃ text, text = (indented depth).items true (values.map write) ++
        ((indented depth).close ++ 0x5D :: rest) := ⟨_, rfl⟩
    have enough : (values.map write).length < (0x5B :: text).length := by
      have fewer := Layout.length_items_lt whole true (by simp : (indented depth).close ++ 0x5D :: rest ≠ [])
      rw [← written] at fewer
      exact Nat.lt_succ_of_lt fewer
    have items : readItems (fun done input => (item input).map fun read => (read.1 :: done, read.2)) (0x5B :: text) true []
        text = .ok (values.reverse, 0x5D :: rest) := by
      rw [written] at enough ⊢
      rw [Layout.readItems_laid (fun done j => told j :: done) whole reads enough, collected]
    rw [prettyOctets_arr depth (by simpa using some_), ← written, readList, atValue_blanks _ all (by decide),
      if_pos (by decide)]
    simp only [List.drop_one, List.tail_cons, items, bind, Except.bind, List.reverse_reverse]

end

/-! ## Records -/

/-- A field with what is written for it, and the change that is read from that. -/
structure Told (σ : Type) (depth : Nat) where
  field : Field σ
  value : Json
  change : σ → σ
  gives : Gives field.read depth value change

section
variable {σ : Type}

theorem find?_named {β : Type} {l : List β} {name : β → String} (apart : (l.map name).Nodup) {a : β} (member : a ∈ l) :
    l.find? (name · == name a) = some a := by
  cases found : l.find? (name · == name a) with
  | none => exact absurd (List.find?_eq_none.mp found a member) (by simp)
  | some b =>
    have same : name b = name a := by simpa using List.find?_some found
    rw [List.inj_on_of_nodup_map apart (List.mem_of_find?_eq_some found) member same]

/-- What the member of a name makes of the record so far. -/
def Told.push {depth : Nat} (tolds : List (Told σ depth)) (state : σ × List String) (m : String × Json) :
    σ × List String :=
  (((tolds.find? (·.field.name == m.1)).map (·.change state.1)).getD state.1, m.1 :: state.2)

theorem Told.push_named {depth : Nat} {tolds : List (Told σ depth)} (apart : (tolds.map (·.field.name)).Nodup)
    {t : Told σ depth} (member : t ∈ tolds) (state : σ × List String) :
    push tolds state (t.field.name, t.value) = (t.change state.1, t.field.name :: state.2) := by
  rw [push, find?_named apart member]
  rfl

theorem Told.push_foldl {depth : Nat} {tolds : List (Told σ depth)} (apart : (tolds.map (·.field.name)).Nodup)
    {some_ : List (Told σ depth)} (inside : ∀ t ∈ some_, t ∈ tolds) (state : σ × List String) :
    (some_.map fun t => (t.field.name, t.value)).foldl (push tolds) state =
      (some_.foldl (fun value t => t.change value) state.1, (some_.map (·.field.name)).reverse ++ state.2) := by
  induction some_ generalizing state with
  | nil => rfl
  | cons t some_ ih =>
    rw [List.map_cons, List.foldl_cons, push_named apart (inside t List.mem_cons_self),
      ih fun u member => inside u (List.mem_cons_of_mem _ member)]
    simp

theorem Told.readMember {r : Record σ} {depth : Nat} {t : Told σ depth} (listed : t.field ∈ r.fields)
    (apart : (r.fields.map (·.name)).Nodup) {state : σ × List String} (new : t.field.name ∉ state.2) {rest : Bytes}
    (ends : Ends rest) : r.readMember state t.field.name (0x3A :: ([0x20] ++ (t.value.prettyOctets depth ++ rest))) =
      .ok ((t.change state.1, t.field.name :: state.2), rest) := by
  have blank : Blanks [0x20] := List.forall_mem_singleton.mpr rfl
  have colon (rest : Bytes) : readColon (0x3A :: rest) = .ok ((), rest) := rfl
  have once : state.2.contains t.field.name = false := by simpa using new
  simp only [Record.readMember, find?_named apart listed, once, Bool.false_eq_true, if_false, colon, bind, Except.bind,
    t.gives [0x20] rest blank ends]

/-- A record with all its fields as members is what their changes make of it, one after the other. -/
theorem Record.gives_filled (r : Record σ) {depth : Nat} {tolds : List (Told σ (depth + 1))}
    (listed : tolds.map (·.field) = r.fields) (apart : (r.fields.map (·.name)).Nodup) (some_ : tolds ≠ []) :
    Gives r.read depth (.obj (tolds.map fun t => (t.field.name, t.value)))
      (tolds.foldl (fun value t => t.change value) r.start) := by
  intro blanks rest all _
  have names : tolds.map (·.field.name) = r.fields.map (·.name) := by
    rw [← listed, List.map_map]
    rfl
  have apart' : (tolds.map (·.field.name)).Nodup := names ▸ apart
  have reads (before : List (String × Json)) (m : String × Json) (after : List (String × Json))
      (shape : tolds.map (fun t => (t.field.name, t.value)) = before ++ m :: after) (rest : Bytes) (ends : Ends rest) :
      r.readMember (before.foldl (Told.push tolds) (r.start, [])) m.1
        (0x3A :: ([0x20] ++ (m.2.prettyOctets (depth + 1) ++ rest))) =
          .ok (Told.push tolds (before.foldl (Told.push tolds) (r.start, [])) m, rest) := by
    obtain ⟨earlier, later, split, rfl, last⟩ := List.map_eq_append_iff.mp shape
    obtain ⟨t, remaining, rfl, rfl, rfl⟩ := List.map_eq_cons_iff.mp last
    have member : t ∈ tolds := split ▸ List.mem_append_right earlier List.mem_cons_self
    have field : t.field ∈ r.fields := listed ▸ List.mem_map_of_mem member
    have before := Told.push_foldl apart' (fun u inside => split ▸ List.mem_append_left _ inside) (r.start, [])
    have new : t.field.name ∉ (earlier.foldl (fun value t => t.change value) r.start,
        (earlier.map (·.field.name)).reverse ++ []).2 := by
      rw [split, List.map_append, List.nodup_append] at apart'
      intro again
      have earlier_ : t.field.name ∈ earlier.map (·.field.name) := by simpa using again
      exact apart'.2.2 _ earlier_ _ List.mem_cons_self rfl
    rw [before, Told.push_named apart' member]
    exact Told.readMember field apart new ends
  have whole := Told.push_foldl apart' (fun _ inside => inside) (r.start, [])
  have present : r.fields.find? (fun field => field.required &&
      !((r.fields.map fun f : Field σ => f.name).reverse ++ []).contains field.name) = none := by
    rw [List.find?_eq_none]
    intro field member
    have told : field.name ∈ r.fields.map (·.name) := List.mem_map_of_mem member
    simp only [List.append_nil, List.contains_reverse, List.contains_iff_mem.mpr told, Bool.not_true, Bool.and_false,
      Bool.false_eq_true, not_false_eq_true]
  have length := (indented depth).length_members_lt (tolds.map fun t => (t.field.name, t.value)) true
    (by simp : (indented depth).close ++ 0x7D :: rest ≠ [])
  have members := (indented depth).readMembers_laid (Told.push tolds) reads length true rest
  rw [whole, names] at members
  rw [prettyOctets_obj depth (by simpa using some_), Record.read, atValue_blanks _ all (by decide), if_pos (by decide)]
  simp only [List.drop_one, List.tail_cons, Record.readObject, members, bind, Except.bind, present]

end

end ToolBridge.Json

import ToolBridge.Proofs.JsonLayouts

/-! JSON text written and read back. A value without fractions is the same again if its text is nested no deeper than
the reader goes, and if it has its members as a map has them. -/

namespace ToolBridge.Json

/-- Every number in the value is a whole one, and fits. -/
inductive Whole : Json → Prop where
  | null : Whole .null
  | bool (value : Bool) : Whole (.bool value)
  | int {n : Int} (fits : Fits n) : Whole (.num (.int n))
  | str (s : String) : Whole (.str s)
  | arr {items : List Json} (each : ∀ item ∈ items, Whole item) : Whole (.arr items)
  | obj {members : List (String × Json)} (each : ∀ member ∈ members, Whole member.2) : Whole (.obj members)

/-- The members of every object in the value stand in the order of their names, and no name stands twice. -/
inductive Ordered : Json → Prop where
  | null : Ordered .null
  | bool (value : Bool) : Ordered (.bool value)
  | num (n : Number) : Ordered (.num n)
  | str (s : String) : Ordered (.str s)
  | arr {items : List Json} (each : ∀ item ∈ items, Ordered item) : Ordered (.arr items)
  | obj {members : List (String × Json)} (sorted : (members.map (·.1)).Pairwise (· < ·))
      (each : ∀ member ∈ members, Ordered member.2) : Ordered (.obj members)

mutual

/-- How many brackets stand around the innermost part of a value, those of empty lists and objects included. -/
def depth : Json → Nat
  | .arr items => depthAll items + 1
  | .obj members => depthMembers members + 1
  | _ => 0

def depthAll : List Json → Nat
  | [] => 0
  | item :: rest => max (depth item) (depthAll rest)

def depthMembers : List (String × Json) → Nat
  | [] => 0
  | (_, v) :: rest => max (depth v) (depthMembers rest)

end

theorem depth_le_all {item : Json} {items : List Json} (member : item ∈ items) : item.depth ≤ depthAll items := by
  induction items with
  | nil => cases member
  | cons first rest ih =>
    rw [depthAll]
    rcases List.mem_cons.mp member with rfl | later
    · exact Nat.le_max_left _ _
    · exact Nat.le_trans (ih later) (Nat.le_max_right _ _)

theorem depth_le_members {member : String × Json} {members : List (String × Json)} (inside : member ∈ members) :
    member.2.depth ≤ depthMembers members := by
  induction members with
  | nil => cases inside
  | cons first rest ih =>
    rw [depthMembers]
    rcases List.mem_cons.mp inside with rfl | later
    · exact Nat.le_max_left _ _
    · exact Nat.le_trans (ih later) (Nat.le_max_right _ _)

/-! ## Settled members -/

theorem settleAll_eq (items : List Json) : settleAll items = items.map settle := by
  induction items with
  | nil => rfl
  | cons item rest ih => rw [settleAll, ih, List.map_cons]

theorem settleMembers_eq (members : List (String × Json)) :
    settleMembers members = members.map fun member => (member.1, member.2.settle) := by
  induction members with
  | nil => rfl
  | cons member rest ih => rw [settleMembers, ih, List.map_cons]

/-- A name behind all others comes last. -/
theorem insertMember_last {key : String} {members : List (String × Json)}
    (behind : ∀ name ∈ members.map (·.1), name < key) (value : Json) : insertMember key value members = members ++ [(key, value)] := by
  induction members with
  | nil => rfl
  | cons first rest ih =>
    have before : first.1 < key := behind first.1 List.mem_cons_self
    rw [insertMember, if_neg (String.lt_asymm before),
      if_neg (by simpa using fun same => String.lt_irrefl _ (same ▸ before)),
      ih fun name member => behind name (List.mem_cons_of_mem _ member)]
    rfl

theorem foldl_insertMember {done members : List (String × Json)}
    (sorted : ((done ++ members).map (·.1)).Pairwise (· < ·)) :
    members.foldl (fun done (k, v) => insertMember k v done) done = done ++ members := by
  induction members generalizing done with
  | nil => simp
  | cons first rest ih =>
    obtain ⟨key, value⟩ := first
    have behind : ∀ name ∈ done.map (·.1), name < key := by
      intro name member
      rw [List.map_append] at sorted
      exact (List.pairwise_append.mp sorted).2.2 name member key List.mem_cons_self
    change rest.foldl _ (insertMember key value done) = _
    rw [insertMember_last behind, ih (by simpa using sorted), List.append_assoc, List.singleton_append]

/-- Nothing is left to settle. -/
theorem Ordered.settle {j : Json} (ordered : j.Ordered) : j.settle = j := by
  induction ordered with
  | null => rfl
  | bool => rfl
  | num => rfl
  | str => rfl
  | arr each ih =>
    rw [Json.settle, settleAll_eq, List.map_congr_left ih, List.map_id']
  | @obj members sorted each ih =>
    have same : members.map (fun member => (member.1, member.2.settle)) = members := by
      have settled : ∀ member ∈ members, (member.1, member.2.settle) = member := fun member inside => by
        rw [ih member inside]
      rw [List.map_congr_left settled, List.map_id']
    rw [Json.settle, settleMembers_eq, same, foldl_insertMember (by simpa using sorted), List.nil_append]

/-! ## Reading back -/

def octets (j : Json) : Bytes := Text.octets j.chars

theorem octets_natural (n : Nat) : (Json.num (.int n)).octets = naturalOctets n := rfl

theorem octets_negative (n : Nat) : (Json.num (.int (.negSucc n))).octets = 0x2D :: naturalOctets (n + 1) := by
  have minus : String.utf8EncodeChar '-' = [0x2D] := by decide
  change Text.octets (toString (Int.negSucc n)).toList = _
  rw [Text.toList_negative, Text.octets_cons, minus, List.singleton_append, naturalOctets]

/-- Everything on one line, without blanks. -/
def compact : Layout where
  value := octets
  line := []
  close := []
  gap := []
  line_blanks := blanks_nil
  close_blanks := blanks_nil

@[simp] theorem compact_value (j : Json) : compact.value j = j.octets := rfl

@[simp] theorem compact_line : compact.line = [] := rfl

@[simp] theorem compact_close : compact.close = [] := rfl

@[simp] theorem compact_gap : compact.gap = [] := rfl

theorem octets_itemChars (first : Bool) (items : List Json) :
    Text.octets (itemChars first items) = compact.items first items := by
  have comma : String.utf8EncodeChar ',' = [0x2C] := by decide
  induction items generalizing first with
  | nil => rfl
  | cons j items ih => cases first <;> simp [itemChars, Layout.items, separator, octets, comma, ih]

theorem octets_memberChars (first : Bool) (members : List (String × Json)) :
    Text.octets (memberChars first members) = compact.members first members := by
  have comma : String.utf8EncodeChar ',' = [0x2C] := by decide
  have colon : String.utf8EncodeChar ':' = [0x3A] := by decide
  induction members generalizing first with
  | nil => rfl
  | cons m members ih =>
    obtain ⟨name, j⟩ := m
    have named := octets_quote name (0x3A :: (j.octets ++ compact.members false members))
    cases first <;> simpa [memberChars, Layout.members, separator, octets, comma, colon, ih] using named

/-- A value starts with a visible character that does not close a list. -/
theorem Whole.opens {j : Json} (whole : j.Whole) : compact.Opens j := by
  cases whole with
  | null => exact ⟨0x6E, _, rfl, by decide, by decide⟩
  | bool value => cases value <;> exact ⟨_, _, rfl, by decide, by decide⟩
  | @int n fits =>
    cases n with
    | ofNat n =>
      obtain ⟨b, tail, shape, digit⟩ := naturalOctets_head n
      have open_ := beq_eq_false_iff_ne.mp (digit_apart digit (by decide : isDigit 0x5D = false))
      exact ⟨b, tail, (octets_natural n).trans shape, visible_digit digit, open_⟩
    | negSucc n => exact ⟨0x2D, _, octets_negative n, by decide, by decide⟩
  | str s => exact ⟨0x22, _, (List.append_nil _).symm.trans (octets_quote s []), by decide, by decide⟩
  | arr => exact ⟨0x5B, _, rfl, by decide, by decide⟩
  | obj => exact ⟨0x7B, _, rfl, by decide, by decide⟩

theorem readValue_digit {b : UInt8} (digit : isDigit b = true) (depth : Nat) (rest : Bytes) :
    readValue depth (b :: rest) = (readNumber true (b :: rest)).map fun read => (.num read.1, read.2) := by
  have apart {c : UInt8} (other : isDigit c = false) := digit_apart digit other
  rw [readValue, skipSpace_cons (visible_digit digit)]
  simp only [apart (by decide : isDigit 0x6E = false), apart (by decide : isDigit 0x74 = false),
    apart (by decide : isDigit 0x66 = false), apart (by decide : isDigit 0x2D = false), digit, Bool.false_eq_true,
    if_false, if_true]

theorem readValue_minus (depth : Nat) (rest : Bytes) :
    readValue depth (0x2D :: rest) = (readNumber false rest).map fun read => (.num read.1, read.2) := by
  rw [readValue]
  rfl

theorem readValue_quote (depth : Nat) (rest : Bytes) :
    readValue depth (0x22 :: rest) = (readString rest).map fun read => (.str read.1, read.2) := by
  rw [readValue]
  rfl

theorem readValue_list (depth : Nat) (rest : Bytes) :
    readValue (depth + 1) (0x5B :: rest) =
      (readItems (fun done input => (readValue depth input).map fun read => (read.1 :: done, read.2)) rest true []
        rest).bind fun read => .ok (.arr read.1.reverse, read.2.drop 1) := by
  rw [readValue]
  rfl

theorem readValue_object (depth : Nat) (rest : Bytes) :
    readValue (depth + 1) (0x7B :: rest) =
      (readMembers (fun done key input => (readColon input).bind fun colon =>
        (readValue depth colon.2).bind fun read => .ok ((key, read.1) :: done, read.2)) rest true []
        rest).bind fun read => .ok (.obj read.1.reverse, read.2.drop 1) := by
  rw [readValue]
  rfl

theorem octets_arr (items : List Json) (rest : Bytes) :
    (Json.arr items).octets ++ rest = 0x5B :: (compact.items true items ++ (compact.close ++ 0x5D :: rest)) := by
  have open_ : String.utf8EncodeChar '[' = [0x5B] := by decide
  have close : String.utf8EncodeChar ']' = [0x5D] := by decide
  simp [octets, chars, open_, close, octets_itemChars]

theorem octets_obj (members : List (String × Json)) (rest : Bytes) :
    (Json.obj members).octets ++ rest = 0x7B :: (compact.members true members ++ (compact.close ++ 0x7D :: rest)) := by
  have open_ : String.utf8EncodeChar '\x7b' = [0x7B] := by decide
  have close : String.utf8EncodeChar '\x7d' = [0x7D] := by decide
  simp [octets, chars, open_, close, octets_memberChars]

/-- The value is read back where it ends. -/
private def Reads (depth : Nat) (j : Json) : Prop :=
  ∀ {rest : Bytes}, Ends rest → readValue depth (j.octets ++ rest) = .ok (j, rest)

private theorem readValue_int {n : Int} (fits : Fits n) (depth : Nat) : Reads depth (.num (.int n)) := by
  intro rest ends
  cases n with
  | ofNat n =>
    obtain ⟨b, tail, shape, digit⟩ := naturalOctets_head n
    have read := readNumber_natural fits ends
    have whole : (Json.num (.int (.ofNat n))).octets = b :: tail := (octets_natural n).trans shape
    rw [shape, List.cons_append] at read
    rw [whole, List.cons_append, readValue_digit digit, read]
    rfl
  | negSucc n =>
    rw [octets_negative, List.cons_append, readValue_minus, readNumber_negative (Nat.succ_pos n) fits ends]
    rfl

private theorem readValue_arr {items : List Json} {depth : Nat} (whole : ∀ j ∈ items, j.Whole)
    (reads : ∀ j ∈ items, Reads depth j) (rest : Bytes) :
    readValue (depth + 1) ((Json.arr items).octets ++ rest) = .ok (.arr items, rest) := by
  have opens (j : Json) (member : j ∈ items) := (whole j member).opens
  have push (j : Json) (member : j ∈ items) (done : List Json) (rest : Bytes) (ends : Ends rest) :
      (readValue depth (j.octets ++ rest)).map (fun read => (read.1 :: done, read.2)) = .ok (j :: done, rest) := by
    rw [reads j member ends]
    rfl
  rw [octets_arr, readValue_list, compact.readItems_laid (fun done j => j :: done) opens push
    (Layout.length_items_lt opens true (by simp))]
  simp [Except.bind]

private theorem readValue_obj {members : List (String × Json)} {depth : Nat}
    (reads : ∀ m ∈ members, Reads depth m.2) (rest : Bytes) :
    readValue (depth + 1) ((Json.obj members).octets ++ rest) = .ok (.obj members, rest) := by
  have push (before : List (String × Json)) (m : String × Json) (after : List (String × Json))
      (shape : members = before ++ m :: after) (rest : Bytes) (ends : Ends rest) :
      ((readColon (0x3A :: (m.2.octets ++ rest))).bind fun colon => (readValue depth colon.2).bind fun read =>
        .ok ((m.1, read.1) :: before.foldl (fun done m => m :: done) [], read.2)) =
          .ok (m :: before.foldl (fun done m => m :: done) [], rest) := by
    have colon : readColon (0x3A :: (m.2.octets ++ rest)) = .ok ((), m.2.octets ++ rest) := rfl
    have inside : m ∈ members := shape ▸ List.mem_append_right before List.mem_cons_self
    rw [colon, Except.bind, reads m inside ends]
    rfl
  rw [octets_obj, readValue_object, compact.readMembers_laid (fun done m => m :: done) push
    (Layout.length_members_lt members true (by simp))]
  simp [Except.bind]

theorem Whole.readValue {j : Json} (whole : j.Whole) {depth : Nat} (shallow : j.depth ≤ depth) {rest : Bytes}
    (ends : Ends rest) : readValue depth (j.octets ++ rest) = .ok (j, rest) := by
  induction whole generalizing depth rest with
  | null =>
    rw [Json.readValue]
    rfl
  | bool value =>
    rw [Json.readValue]
    cases value <;> rfl
  | int fits => exact readValue_int fits depth ends
  | str s =>
    have shape : (Json.str s).octets ++ rest = _ := octets_quote s rest
    rw [shape, readValue_quote, readString_escaped]
    rfl
  | arr each ih =>
    cases depth with
    | zero => cases shallow
    | succ depth =>
      exact readValue_arr each (fun j member _ ends =>
        ih j member (Nat.le_trans (depth_le_all member) (Nat.le_of_succ_le_succ shallow)) ends) rest
  | obj each ih =>
    cases depth with
    | zero => cases shallow
    | succ depth =>
      exact readValue_obj (fun m member _ ends =>
        ih m member (Nat.le_trans (depth_le_members member) (Nat.le_of_succ_le_succ shallow)) ends) rest

/-! ## On one line -/

open Text (Printable)

theorem printable_escapeChar (c : Char) : Printable (escapeChar c) := by
  have hex : ∀ d < 16, 0x20 ≤ (hexChar d).toNat := by decide
  unfold escapeChar
  split
  · decide
  split
  · decide
  split
  · decide
  split
  · decide
  split
  · decide
  split
  · decide
  split
  · decide
  split
  next control =>
    have digits : Printable [hexChar (c.toNat / 16), hexChar (c.toNat % 16)] :=
      .cons (hex _ (by omega)) (.cons (hex _ (by omega)) (List.forall_mem_nil _))
    exact .append (by decide : Printable ['\\', 'u', '0', '0']) digits
  next high => exact .cons (Nat.not_lt.mp high) (List.forall_mem_nil _)

theorem printable_quote (s : String) : Printable (quote s) := by
  have escaped : Printable (s.toList.flatMap escapeChar) := by
    intro c member
    obtain ⟨d, _, inside⟩ := List.mem_flatMap.mp member
    exact printable_escapeChar d c inside
  exact .append (.cons (by decide) escaped) (by decide)

theorem printable_items {items : List Json} (each : ∀ item ∈ items, Printable item.chars) (first : Bool) :
    Printable (itemChars first items) := by
  induction items generalizing first with
  | nil => exact List.forall_mem_nil _
  | cons j items ih =>
    have later := ih (fun k member => each k (List.mem_cons_of_mem _ member)) false
    have separator : Printable (if first then [] else [',']) := by cases first <;> decide
    exact (separator.append (each j List.mem_cons_self)).append later

theorem printable_members {members : List (String × Json)} (each : ∀ member ∈ members, Printable member.2.chars)
    (first : Bool) : Printable (memberChars first members) := by
  induction members generalizing first with
  | nil => exact List.forall_mem_nil _
  | cons m members ih =>
    have later := ih (fun k member => each k (List.mem_cons_of_mem _ member)) false
    have separator : Printable (if first then [] else [',']) := by cases first <;> decide
    have value := Printable.cons (by decide : 0x20 ≤ ':'.toNat) (each m List.mem_cons_self)
    exact ((separator.append (printable_quote m.1)).append value).append later

/-- A compact text is all on one line. -/
theorem Whole.printable {j : Json} (whole : j.Whole) : Printable j.chars := by
  induction whole with
  | null => decide
  | bool value => cases value <;> decide
  | @int n fits => exact Text.printable_integer n
  | str s => exact printable_quote s
  | arr each ih => exact .append (.cons (by decide) (printable_items ih true)) (by decide)
  | obj each ih => exact .append (.cons (by decide) (printable_members ih true)) (by decide)

/-! ## Texts -/

theorem utf8_text (j : Json) : Text.utf8 j.text = j.octets := by
  rw [← Text.octets_toList, text, String.toList_ofList, octets]

/-- A whole and ordered value is the same again after writing and reading, if it is not nested too deep to be read. -/
theorem parse_text {j : Json} (whole : j.Whole) (ordered : j.Ordered) (shallow : j.depth ≤ maxDepth) :
    parse j.text = .ok j := by
  have read := whole.readValue shallow ends_nil
  rw [List.append_nil] at read
  rw [parse, utf8_text, ofBytes, readAll, read]
  exact congrArg Except.ok ordered.settle

end ToolBridge.Json

import ToolBridge.Json.Reader
import ToolBridge.Proofs.JsonTokens

/-! Lists and objects of JSON text, however their lines are broken. Blanks may stand before an item or a key, before the
bracket that closes, and after a colon; the reader passes over them and comes to the next value. -/

namespace ToolBridge.Json

theorem octets_quote (s : String) (rest : Bytes) :
    Text.octets (quote s) ++ rest = 0x22 :: (Text.octets (s.toList.flatMap escapeChar) ++ 0x22 :: rest) := by
  have mark : String.utf8EncodeChar '"' = [0x22] := by decide
  simp [quote, mark]

theorem ends_nil : Ends [] := fun _ head => by cases head

theorem ends_cons {b : UInt8} (other : isDigit b = false ∧ b ≠ 0x2E ∧ b ≠ 0x65 ∧ b ≠ 0x45) (rest : Bytes) :
    Ends (b :: rest) := fun _ head => Option.some.inj head ▸ other

theorem digit_apart {b c : UInt8} (digit : isDigit b = true) (other : isDigit c = false) : (b == c) = false := by
  rw [beq_eq_false_iff_ne]
  rintro rfl
  exact absurd digit (by simp [other])

theorem visible_digit {b : UInt8} (digit : isDigit b = true) : isSpace b = false := by
  have apart {c : UInt8} (other : isDigit c = false) := digit_apart digit other
  simp only [isSpace, apart (by decide : isDigit 0x20 = false), apart (by decide : isDigit 0x0A = false),
    apart (by decide : isDigit 0x09 = false), apart (by decide : isDigit 0x0D = false), Bool.or_self]

/-! ## Blanks -/

def Blanks (blanks : Bytes) : Prop := ∀ b ∈ blanks, isSpace b = true

theorem blanks_nil : Blanks [] := List.forall_mem_nil _

theorem skipSpace_blanks {blanks : Bytes} (all : Blanks blanks) {b : UInt8} (visible : isSpace b = false) (rest : Bytes) :
    skipSpace (blanks ++ b :: rest) = b :: rest := by
  rw [skipSpace, List.dropWhile_append_of_pos all]
  simp [visible]

theorem skipSpace_cons {b : UInt8} (visible : isSpace b = false) (rest : Bytes) : skipSpace (b :: rest) = b :: rest :=
  skipSpace_blanks blanks_nil visible rest

theorem ends_blanks {blanks : Bytes} (all : Blanks blanks) {rest : Bytes} (ends : Ends rest) : Ends (blanks ++ rest) := by
  cases blanks with
  | nil => exact ends
  | cons b blanks =>
    have blank := all b List.mem_cons_self
    have visible : ∀ c, isSpace c = false → b ≠ c := fun c visible same =>
      Bool.false_ne_true ((visible.symm.trans (congrArg isSpace same.symm)).trans blank)
    refine ends_cons ⟨?_, visible 0x2E (by decide), visible 0x65 (by decide), visible 0x45 (by decide)⟩ _
    exact Bool.eq_false_iff.mpr fun digit => Bool.false_ne_true ((visible_digit digit).symm.trans blank)

/-- What stands before an item or a key: nothing before the first, else a comma. -/
def separator (first : Bool) : Bytes := if first then [] else [0x2C]

theorem hasItem_next {blanks : Bytes} (all : Blanks blanks) {b : UInt8} (visible : isSpace b = false) (item : b ≠ 0x5D)
    (first : Bool) (rest : Bytes) : hasItem first (separator first ++ (blanks ++ b :: rest)) = .ok (true, b :: rest) := by
  cases first with
  | true => simp only [separator, if_true, List.nil_append, hasItem, skipSpace_blanks all visible]
  | false =>
    have comma : skipSpace (0x2C :: (blanks ++ b :: rest)) = 0x2C :: (blanks ++ b :: rest) := rfl
    simp only [separator, Bool.false_eq_true, if_false, List.singleton_append, hasItem, comma]
    split
    next empty => cases empty
    next closed => cases closed
    next same =>
      cases same
      rw [if_neg (by decide), skipSpace_blanks all visible]
      split
      next empty => cases empty
      next closed => exact absurd (List.cons.inj closed).1 item
      next => rfl

theorem hasItem_close {blanks : Bytes} (all : Blanks blanks) (first : Bool) (rest : Bytes) :
    hasItem first (blanks ++ 0x5D :: rest) = .ok (false, 0x5D :: rest) := by
  rw [hasItem, skipSpace_blanks all (by decide)]
  rfl

theorem hasKey_next {blanks : Bytes} (all : Blanks blanks) (first : Bool) (rest : Bytes) :
    hasKey first (separator first ++ (blanks ++ 0x22 :: rest)) = .ok (true, rest) := by
  have quote := skipSpace_blanks all (by decide : isSpace 0x22 = false) rest
  cases first with
  | true =>
    simp only [separator, if_true, List.nil_append, hasKey, quote]
    rfl
  | false =>
    have comma : skipSpace (0x2C :: (blanks ++ 0x22 :: rest)) = 0x2C :: (blanks ++ 0x22 :: rest) := rfl
    simp only [separator, Bool.false_eq_true, if_false, List.singleton_append, hasKey, comma]
    split
    next empty => cases empty
    next closed => cases closed
    next same =>
      cases same
      rw [if_neg (by decide), quote]
      rfl

theorem hasKey_close {blanks : Bytes} (all : Blanks blanks) (first : Bool) (rest : Bytes) :
    hasKey first (blanks ++ 0x7D :: rest) = .ok (false, 0x7D :: rest) := by
  rw [hasKey, skipSpace_blanks all (by decide)]
  rfl

/-! ## Layouts -/

/-- How the values in a list or an object are written, and the blanks around them. -/
structure Layout where
  value : Json → Bytes
  /-- Before an item or a key. -/
  line : Bytes
  /-- Before the closing bracket. -/
  close : Bytes
  gap : Bytes
  line_blanks : Blanks line
  close_blanks : Blanks close

namespace Layout

variable (l : Layout)

def items (first : Bool) : List Json → Bytes
  | [] => []
  | j :: rest => separator first ++ (l.line ++ (l.value j ++ items false rest))

def members (first : Bool) : List (String × Json) → Bytes
  | [] => []
  | (name, j) :: rest => separator first ++ (l.line ++ 0x22 :: (Text.octets (name.toList.flatMap escapeChar) ++
      0x22 :: 0x3A :: (l.gap ++ (l.value j ++ members false rest))))

/-- The value starts with a visible character that does not close a list. -/
def Opens (j : Json) : Prop := ∃ b tail, l.value j = b :: tail ∧ isSpace b = false ∧ b ≠ 0x5D

theorem ends_items (items : List Json) (rest : Bytes) : Ends (l.items false items ++ (l.close ++ 0x5D :: rest)) := by
  cases items with
  | nil => exact ends_blanks l.close_blanks (ends_cons (by decide) rest)
  | cons j items => exact ends_cons (by decide) _

theorem ends_members (members : List (String × Json)) (rest : Bytes) :
    Ends (l.members false members ++ (l.close ++ 0x7D :: rest)) := by
  cases members with
  | nil => exact ends_blanks l.close_blanks (ends_cons (by decide) rest)
  | cons m members => exact ends_cons (by decide) _

variable {l}

theorem length_items_lt {items : List Json} (opens : ∀ j ∈ items, l.Opens j) (first : Bool) {rest : Bytes}
    (some_ : rest ≠ []) : items.length < (l.items first items ++ rest).length := by
  induction items generalizing first with
  | nil => exact List.length_pos_iff.mpr some_
  | cons j items ih =>
    have fewer := ih (fun k member => opens k (List.mem_cons_of_mem _ member)) false
    obtain ⟨b, tail, head, _⟩ := opens j List.mem_cons_self
    rw [Layout.items, head]
    simp only [List.length_append, List.length_cons] at fewer ⊢
    omega

theorem length_members_lt (members : List (String × Json)) (first : Bool) {rest : Bytes} (some_ : rest ≠ []) :
    members.length < (l.members first members ++ rest).length := by
  induction members generalizing first with
  | nil => exact List.length_pos_iff.mpr some_
  | cons m members ih =>
    have fewer := ih false
    rw [Layout.members]
    simp only [List.length_append, List.length_cons] at fewer ⊢
    omega

section
variable {σ : Type}

/-- Items are read one after the other, up to the bracket. -/
theorem readItems_laid {item : σ → Reader σ} (push : σ → Json → σ) {items : List Json}
    (opens : ∀ j ∈ items, l.Opens j)
    (reads : ∀ j ∈ items, ∀ state rest, Ends rest → item state (l.value j ++ rest) = .ok (push state j, rest))
    {bound : Bytes} (enough : items.length < bound.length) (first : Bool) (state : σ) (rest : Bytes) :
    readItems item bound first state (l.items first items ++ (l.close ++ 0x5D :: rest)) =
      .ok (items.foldl push state, 0x5D :: rest) := by
  induction items generalizing bound first state with
  | nil =>
    obtain ⟨b, bound, rfl⟩ := List.exists_cons_of_length_pos (Nat.zero_lt_of_lt enough)
    rw [Layout.items, List.nil_append, readItems, hasItem_close l.close_blanks]
    rfl
  | cons j items ih =>
    obtain ⟨_, bound, rfl⟩ := List.exists_cons_of_length_pos (Nat.zero_lt_of_lt enough)
    obtain ⟨b, tail, head, visible, item_⟩ := opens j List.mem_cons_self
    have next := hasItem_next l.line_blanks visible item_ first
      (tail ++ (l.items false items ++ (l.close ++ 0x5D :: rest)))
    have read := reads j List.mem_cons_self state _ (l.ends_items items rest)
    have later := ih (fun k member => opens k (List.mem_cons_of_mem _ member))
      (fun k member => reads k (List.mem_cons_of_mem _ member)) (Nat.lt_of_succ_lt_succ enough) false (push state j)
    rw [head, List.cons_append] at read
    simp only [Layout.items, head, List.append_assoc, List.cons_append, readItems, next, bind, Except.bind, if_true, read,
      later, List.foldl_cons]

/-- Members are read one after the other, up to the brace. What one is read to may rest on those before it. -/
theorem readMembers_laid {member : σ → String → Reader σ} (push : σ → String × Json → σ)
    {members : List (String × Json)} {state : σ}
    (reads : ∀ before m after, members = before ++ m :: after → ∀ rest, Ends rest →
      member (before.foldl push state) m.1 (0x3A :: (l.gap ++ (l.value m.2 ++ rest))) =
        .ok (push (before.foldl push state) m, rest))
    {bound : Bytes} (enough : members.length < bound.length) (first : Bool) (rest : Bytes) :
    readMembers member bound first state (l.members first members ++ (l.close ++ 0x7D :: rest)) =
      .ok (members.foldl push state, 0x7D :: rest) := by
  induction members generalizing bound first state with
  | nil =>
    obtain ⟨b, bound, rfl⟩ := List.exists_cons_of_length_pos (Nat.zero_lt_of_lt enough)
    rw [Layout.members, List.nil_append, readMembers, hasKey_close l.close_blanks]
    rfl
  | cons m members ih =>
    obtain ⟨_, bound, rfl⟩ := List.exists_cons_of_length_pos (Nat.zero_lt_of_lt enough)
    obtain ⟨name, j⟩ := m
    have read := reads [] (name, j) members rfl _ (l.ends_members members rest)
    have later := ih (fun before m after shape => reads ((name, j) :: before) m after (congrArg _ shape))
      (Nat.lt_of_succ_lt_succ enough) false
    rw [List.foldl_nil] at read
    simp only [Layout.members, List.append_assoc, List.cons_append, readMembers, hasKey_next l.line_blanks, bind,
      Except.bind, if_true, readString_escaped, read, later, List.foldl_cons]

end

end Layout

end ToolBridge.Json

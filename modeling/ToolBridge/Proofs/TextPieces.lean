import Mathlib.Data.List.TakeDrop
import Mathlib.Data.List.TakeWhile
import ToolBridge.Text.Ascii
import ToolBridge.Text.Blank
import ToolBridge.Text.Numeral
import ToolBridge.Text.Split

/-! Reading back text put together from pieces: what was padded is trimmed, words are told apart at
the blanks between them, a piece before a separator ends at it, and a numeral gives its number. -/

namespace ToolBridge.Text

/-- Neither begins nor ends with a blank. -/
structure Trimmed (s : String) : Prop where
  start : s.toList.head?.any isBlank = false
  finish : s.toList.getLast?.any isBlank = false

def Blank (s : String) : Prop := ∀ c ∈ s.toList, isBlank c = true

/-- A piece without blanks. -/
def Solid (s : String) : Prop := ∀ c ∈ s.toList, isBlank c = false

instance (s : String) : Decidable (Trimmed s) :=
  decidable_of_iff (s.toList.head?.any isBlank = false ∧ s.toList.getLast?.any isBlank = false)
    ⟨fun ⟨start, finish⟩ => ⟨start, finish⟩, fun ⟨start, finish⟩ => ⟨start, finish⟩⟩

theorem isBlank_of_visible {c : Char} (low : 0x21 ≤ c.toNat) (high : c.toNat ≤ 0x7E) : isBlank c = false := by
  simp only [isBlank, Bool.or_eq_false_iff, Bool.and_eq_false_iff, decide_eq_false_iff_not, beq_eq_false_iff_ne]
  omega

theorem Solid.single {s : String} (solid : Solid s) : '\n' ∉ s.toList :=
  fun member => absurd (solid _ member) (by decide)

theorem Solid.trimmed {s : String} (solid : Solid s) : Trimmed s where
  start := by
    cases first : s.toList.head? with
    | none => rfl
    | some c => simpa using solid c (List.mem_of_head? first)
  finish := by
    cases last : s.toList.getLast? with
    | none => rfl
    | some c => simpa using solid c (List.mem_of_getLast? last)

theorem dropWhile_padding {p : Char → Bool} {padding s : List Char} (all : ∀ c ∈ padding, p c = true)
    (start : s.head?.any p = false) : (padding ++ s).dropWhile p = s := by
  rw [List.dropWhile_append_of_pos all]
  cases s with
  | nil => rfl
  | cons c rest => exact List.dropWhile_cons_of_neg (by simpa using start)

theorem trimChars_padded {before after s : List Char} (left : ∀ c ∈ before, isBlank c = true)
    (right : ∀ c ∈ after, isBlank c = true) (start : s.head?.any isBlank = false)
    (finish : s.getLast?.any isBlank = false) : trimChars (before ++ s ++ after) = s := by
  have reversed : ∀ c ∈ after.reverse, isBlank c = true := fun c member => right c (List.mem_reverse.mp member)
  cases s with
  | nil =>
    have all : ∀ c ∈ before ++ after, isBlank c = true := by
      intro c member
      exact (List.mem_append.mp member).elim (left c) (right c)
    rw [trimChars, List.append_nil, List.dropWhile_eq_nil_iff.mpr all]
    rfl
  | cons c rest =>
    rw [trimChars, List.append_assoc, dropWhile_padding left (by simpa using start), List.reverse_append,
      dropWhile_padding reversed (by rwa [List.head?_reverse]), List.reverse_reverse]

theorem trim_padded {before after s : String} (left : Blank before) (right : Blank after)
    (trimmed : Trimmed s) : trim (before ++ s ++ after) = s := by
  rw [trim, String.toList_append, String.toList_append,
    trimChars_padded left right trimmed.start trimmed.finish, String.ofList_toList]

theorem trim_eq_self {s : String} (trimmed : Trimmed s) : trim s = s := by
  have nothing : Blank "" := by simp [Blank]
  simpa using trim_padded nothing nothing trimmed

theorem words_go_solid {word w rest : List Char} (solid : ∀ c ∈ w, isBlank c = false) :
    words.go word (w ++ rest) = words.go (w.reverse ++ word) rest := by
  induction w generalizing word with
  | nil => rfl
  | cons c w ih =>
    rw [List.cons_append, words.go, if_neg (by simp [solid c]), ih fun d later => solid d (List.mem_cons_of_mem _ later),
      List.reverse_cons, List.append_assoc, List.singleton_append]

theorem words_go_word {w rest : List Char} (solid : ∀ c ∈ w, isBlank c = false) (nonempty : w ≠ []) :
    words.go [] (w ++ ' ' :: rest) = w :: words.go [] rest := by
  have blank : isBlank ' ' = true := by decide
  rw [words_go_solid solid, List.append_nil, words.go, if_pos blank, if_neg (by simpa using nonempty),
    List.reverse_reverse]

theorem words_go_last {w : List Char} (solid : ∀ c ∈ w, isBlank c = false) (nonempty : w ≠ []) :
    words.go [] w = [w] := by
  have whole : words.go [] (w ++ []) = words.go (w.reverse ++ []) [] := words_go_solid solid
  rw [List.append_nil, List.append_nil] at whole
  rw [whole, words.go, if_neg (by simpa using nonempty), List.reverse_reverse]

theorem words_three {a b c : String} (first : Solid a) (second : Solid b) (third : Solid c)
    (a_ne : a ≠ "") (b_ne : b ≠ "") (c_ne : c ≠ "") :
    words (a ++ " " ++ b ++ " " ++ c) = [a, b, c] := by
  have apart : (a ++ " " ++ b ++ " " ++ c).toList = a.toList ++ ' ' :: (b.toList ++ ' ' :: c.toList) := by
    simp [String.toList_append]
  have pieces : words.go [] (a ++ " " ++ b ++ " " ++ c).toList = [a.toList, b.toList, c.toList] := by
    rw [apart, words_go_word first (by simpa using a_ne), words_go_word second (by simpa using b_ne),
      words_go_last third (by simpa using c_ne)]
  simp only [words, pieces, List.map_cons, List.map_nil, String.ofList_toList]

theorem words_go_apart {word s : List Char} (solid : ∀ c ∈ word, isBlank c = false) :
    ∀ w ∈ words.go word s, ∀ c ∈ w, isBlank c = false := by
  have reversed : ∀ c ∈ word.reverse, isBlank c = false := fun c member => solid c (List.mem_reverse.mp member)
  fun_induction words.go word s with
  | case1 => exact fun w member => nomatch member
  | case2 word => exact fun w member => List.mem_singleton.mp member ▸ reversed
  | case3 word c rest blank empty ih => exact ih (List.forall_mem_nil _) (List.forall_mem_nil _)
  | case4 word c rest blank spoken ih =>
    intro w member
    rcases List.mem_cons.mp member with rfl | later
    · exact reversed
    · exact ih (List.forall_mem_nil _) (List.forall_mem_nil _) w later
  | case5 word c rest visible ih =>
    have longer : ∀ d ∈ c :: word, isBlank d = false := List.forall_mem_cons.mpr ⟨by simpa using visible, solid⟩
    exact ih longer fun d member => longer d (List.mem_reverse.mp member)

theorem solid_words (s : String) : ∀ word ∈ words s, Solid word := by
  intro word member
  obtain ⟨w, inside, rfl⟩ := List.mem_map.mp member
  rw [Solid, String.toList_ofList]
  exact words_go_apart (List.forall_mem_nil _) w inside

theorem cutChars_first {sep : Char} {before after : List Char} (free : sep ∉ before) :
    cutChars sep (before ++ sep :: after) = some (before, after) := by
  have others : ∀ c ∈ before, (c != sep) = true := by
    intro c member
    exact bne_iff_ne.mpr fun same => free (same ▸ member)
  rw [cutChars, List.span_eq_takeWhile_dropWhile, List.takeWhile_append_of_pos others,
    List.dropWhile_append_of_pos others]
  simp

theorem cutAt_first {sep : Char} {before after : String} (free : sep ∉ before.toList) :
    cutAt sep (before ++ .singleton sep ++ after) = some (before, after) := by
  have apart : (before ++ .singleton sep ++ after).toList = before.toList ++ sep :: after.toList := by
    simp [String.toList_append]
  simp only [cutAt, apart, cutChars_first free, Option.map_some, String.ofList_toList]

theorem pieces_go_head (sep : Char) (piece s : List Char) :
    (pieces.go sep piece s).head? = some (piece.reverse ++ s.takeWhile (· != sep)) := by
  induction s generalizing piece with
  | nil => simp [pieces.go]
  | cons c rest ih =>
    unfold pieces.go
    by_cases here : c = sep
    · simp [here]
    · simp [here, ih]

theorem split_headD (sep : Char) (s : String) :
    (split sep s).headD "" = .ofList (s.toList.takeWhile (· != sep)) := by
  rw [List.headD_eq_head?_getD, split, List.head?_map, pieces, pieces_go_head]
  rfl

theorem occurs_iff (needle s : List Char) : occurs needle s = true ↔ needle <:+: s := by
  induction s with
  | nil => simp [occurs]
  | cons c rest ih => rw [occurs, Bool.or_eq_true, ih, List.isPrefixOf_iff_prefix, List.infix_cons_iff]

theorem contains_iff (needle s : String) : contains needle s = true ↔ needle.toList <:+: s.toList :=
  occurs_iff _ _

/-- A numeral of the number, in either case and after any zeros. -/
def Spells (radix : Nat) (s : String) (n : Nat) : Prop :=
  ∃ zeros, (lower s).toList = List.replicate zeros '0' ++ Nat.toDigits radix n

theorem spells_toDigits {radix : Nat} (many : 2 ≤ radix) (low : radix ≤ 16) (n : Nat) :
    Spells radix (.ofList (Nat.toDigits radix n)) n := by
  have small : ∀ d < 16, (Nat.digitChar d).toLower = Nat.digitChar d := by decide
  refine ⟨0, ?_⟩
  rw [lower, String.toList_ofList, String.toList_ofList, List.replicate_zero, List.nil_append]
  induction n using Nat.strongRecOn with
  | ind n ih =>
    by_cases one : n < radix
    · simp [Nat.toDigits_of_lt_base one, small n (by omega)]
    · have smaller : n / radix < n := Nat.div_lt_self (by omega) (by omega)
      have last : n % radix < radix := Nat.mod_lt _ (by omega)
      rw [Nat.toDigits_of_base_le (by omega) (by omega), List.map_append, ih _ smaller, List.map_singleton,
        small _ (by omega)]

theorem digitValue_toLower (c : Char) : digitValue c.toLower = digitValue c := by
  by_cases upper : c.toNat < 128
  · have ascii : ∀ n < 128, digitValue (Char.ofNat n).toLower = digitValue (Char.ofNat n) := by decide
    simpa using ascii c.toNat upper
  · have above : ¬ (c.val ≥ 'A'.val ∧ c.val ≤ 'Z'.val) := by
      rintro ⟨_, below⟩
      exact upper (Nat.lt_of_le_of_lt (UInt32.le_iff_toNat_le.mp below) (by decide))
    have kept : c.toLower = c := dif_neg above
    rw [kept]

/-- The value of what is read with one more digit. -/
def shift (radix value : Nat) (c : Char) : Option Nat := (digitIn radix c).map (value * radix + ·)

theorem readDigits_eq {radix : Nat} {digits : List Char} (nonempty : digits ≠ []) :
    readDigits radix digits = digits.foldlM (shift radix) 0 := by
  cases digits with
  | nil => exact absurd rfl nonempty
  | cons c rest => rfl

theorem readDigits_toLower (radix : Nat) (digits : List Char) :
    readDigits radix (digits.map Char.toLower) = readDigits radix digits := by
  by_cases empty : digits = []
  · simp [empty]
  · rw [readDigits_eq empty, readDigits_eq (by simpa using empty), List.foldlM_map]
    have same : ∀ c, digitIn radix c.toLower = digitIn radix c := fun c => by rw [digitIn, digitValue_toLower, digitIn]
    simp only [shift, same]
    rfl

theorem digitIn_digitChar {radix d : Nat} (low : radix ≤ 16) (digit : d < radix) :
    digitIn radix (Nat.digitChar d) = some d := by
  have values : ∀ d < 16, digitValue (Nat.digitChar d) = some d := by decide
  simp [digitIn, values d (by omega), digit]

theorem foldlM_shift_toDigits {radix : Nat} (many : 2 ≤ radix) (low : radix ≤ 16) (n : Nat) :
    (Nat.toDigits radix n).foldlM (shift radix) 0 = some n := by
  induction n using Nat.strongRecOn with
  | ind n ih =>
    by_cases one : n < radix
    · rw [Nat.toDigits_of_lt_base one]
      simp [shift, digitIn_digitChar low one]
    · have smaller : n / radix < n := Nat.div_lt_self (by omega) (by omega)
      have last : n % radix < radix := Nat.mod_lt _ (by omega)
      rw [Nat.toDigits_of_base_le (by omega) (by omega), List.foldlM_append, ih _ smaller]
      simp [shift, digitIn_digitChar low last, Nat.div_add_mod']

theorem foldlM_shift_zeros (radix zeros : Nat) (positive : 0 < radix) :
    (List.replicate zeros '0').foldlM (shift radix) 0 = some 0 := by
  have zero : shift radix 0 '0' = some 0 := by simp [shift, digitIn, digitValue, positive]
  induction zeros with
  | zero => rfl
  | succ zeros ih => simpa [List.replicate_succ, List.foldlM_cons, zero] using ih

theorem readDigits_spelled {radix n : Nat} {s : String} (many : 2 ≤ radix) (low : radix ≤ 16)
    (spelled : Spells radix s n) : readDigits radix s.toList = some n := by
  obtain ⟨zeros, digits⟩ := spelled
  have nonempty : (lower s).toList ≠ [] := by
    simp [digits, Nat.toDigits_ne_nil]
  rw [← readDigits_toLower, ← String.toList_ofList (l := s.toList.map Char.toLower), ← lower]
  rw [readDigits_eq nonempty, digits, List.foldlM_append, foldlM_shift_zeros _ _ (by omega)]
  exact foldlM_shift_toDigits many low n

theorem digit_of_foldlM_shift {radix value n : Nat} {digits : List Char}
    (read : digits.foldlM (shift radix) value = some n) : ∀ c ∈ digits, (digitValue c).isSome := by
  induction digits generalizing value with
  | nil => simp
  | cons d rest ih =>
    rw [List.foldlM_cons] at read
    obtain ⟨next, first, later⟩ := Option.bind_eq_some_iff.mp read
    intro c member
    rcases List.mem_cons.mp member with rfl | inside
    · obtain ⟨digit, found, _⟩ := Option.map_eq_some_iff.mp first
      exact Option.isSome_of_mem (Option.filter_eq_some_iff.mp found).1
    · exact ih later c inside

theorem digit_range {c : Char} (digit : (digitValue c).isSome) : 0x30 ≤ c.toNat ∧ c.toNat ≤ 0x7A := by
  have bounds : ∀ low high : Char, low ≤ c ∧ c ≤ high → low.toNat ≤ c.toNat ∧ c.toNat ≤ high.toNat := fun _ _ h => h
  by_contra outside
  have decimal := mt (bounds '0' '9') (by simp only [Char.reduceToNat]; omega)
  have small := mt (bounds 'a' 'z') (by simp only [Char.reduceToNat]; omega)
  have capital := mt (bounds 'A' 'Z') (by simp only [Char.reduceToNat]; omega)
  simp [digitValue, decimal, small, capital] at digit

theorem visible_of_digit {c : Char} (digit : (digitValue c).isSome) : isBlank c = false ∧ c ≠ ';' := by
  have range := digit_range digit
  refine ⟨isBlank_of_visible (by omega) (by omega), ?_⟩
  rintro rfl
  exact absurd digit (by decide)

theorem Spells.digits {radix n : Nat} {s : String} (many : 2 ≤ radix) (low : radix ≤ 16)
    (spelled : Spells radix s n) : ∀ c ∈ s.toList, (digitValue c).isSome := by
  have read := readDigits_spelled many low spelled
  intro c member
  rw [readDigits_eq (List.ne_nil_of_mem member)] at read
  exact digit_of_foldlM_shift read c member

/-- A sign is no digit, so a text that spells a number begins with none. -/
theorem readNatChars_of_readDigits {radix n : Nat} {s : List Char} (digits : readDigits radix s = some n) :
    readNatChars radix s = some n := by
  unfold readNatChars
  split
  · have sign : digitIn radix '+' = none := rfl
    simp [readDigits, sign] at digits
  · exact digits

theorem readNat_spelled {radix bound n : Nat} {s : String} (many : 2 ≤ radix) (low : radix ≤ 16)
    (below : n < bound) (spelled : Spells radix s n) : readNat radix bound s = some n := by
  rw [readNat, readNatChars_of_readDigits (readDigits_spelled many low spelled)]
  simp [below]

/-! ## Without control characters -/

/-- No control character of ASCII but perhaps the last, so no line break. -/
def Printable (s : List Char) : Prop := ∀ c ∈ s, 0x20 ≤ c.toNat

instance (s : List Char) : Decidable (Printable s) := List.decidableBAll (fun c : Char => 0x20 ≤ c.toNat) s

theorem Printable.append {s t : List Char} (first : Printable s) (last : Printable t) : Printable (s ++ t) :=
  fun c member => (List.mem_append.mp member).elim (first c) (last c)

theorem Printable.cons {c : Char} {s : List Char} (first : 0x20 ≤ c.toNat) (later : Printable s) : Printable (c :: s) :=
  List.forall_mem_cons.mpr ⟨first, later⟩

theorem digits_natural (n : Nat) : ∀ c ∈ (toString n).toList, (digitValue c).isSome :=
  have spelled : Spells 10 (toString n) n := spells_toDigits (by decide) (by decide) n
  spelled.digits (by decide) (by decide)

theorem printable_natural (n : Nat) : Printable (toString n).toList := fun c member =>
  Nat.le_trans (by decide) (digit_range (digits_natural n c member)).1

theorem toList_negative (n : Nat) : (toString (Int.negSucc n)).toList = '-' :: (toString (n + 1)).toList := by
  have sign : "-".toList = ['-'] := by decide
  change ("-" ++ toString (n + 1)).toList = _
  rw [String.toList_append, sign, List.singleton_append]

theorem printable_integer (n : Int) : Printable (toString n).toList := by
  cases n with
  | ofNat n => exact printable_natural n
  | negSucc n => exact toList_negative n ▸ .cons (by decide) (printable_natural (n + 1))

theorem readDigits_natural (n : Nat) : readDigits 10 (toString n).toList = some n :=
  readDigits_spelled (by decide) (by decide) (spells_toDigits (by decide) (by decide) n)

theorem readInt_toString {n : Int} (word : -2147483648 ≤ n ∧ n ≤ 2147483647) : readInt 32 (toString n) = some n := by
  cases n with
  | ofNat n =>
    have read := readNatChars_of_readDigits (readDigits_natural n)
    have plain := digits_natural n
    have small : n < Nat.pow 2 31 := Nat.lt_succ_of_le (Int.ofNat_le.mp word.2)
    change readInt 32 (toString n) = some (n : Int)
    unfold readInt
    split
    next digits signed =>
      rw [signed] at plain
      exact absurd (plain '-' List.mem_cons_self) (by decide)
    next =>
      rw [read, Option.filter_some_pos (by simpa using small)]
      rfl
  | negSucc n =>
    have small : n + 1 ≤ Nat.pow 2 31 := by
      have := word.1
      change _ ≤ 2147483648
      omega
    rw [readInt, toList_negative]
    simp only
    rw [readDigits_natural, Option.filter_some_pos (by simpa using small)]
    rfl

end ToolBridge.Text

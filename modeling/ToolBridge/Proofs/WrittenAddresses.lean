import Mathlib.Data.Nat.Digits.Defs
import ToolBridge.Net.Address
import ToolBridge.Proofs.TextPieces

/-! Internet addresses written and read back. The text of version 6 leaves out the longest run of zeros, or shows the
last two groups as an address of version 4; the reader puts back as many zeros as are missing. -/

namespace ToolBridge

namespace Text

theorem digitIn_toDigits {radix : Nat} (many : 2 ≤ radix) (low : radix ≤ 16) (n : Nat) :
    ∀ c ∈ Nat.toDigits radix n, (digitIn radix c).isSome = true := by
  induction n using Nat.strongRecOn with
  | ind n ih =>
    by_cases one : n < radix
    · simp [Nat.toDigits_of_lt_base one, digitIn_digitChar low one]
    · have smaller : n / radix < n := Nat.div_lt_self (by omega) (by omega)
      have last : n % radix < radix := Nat.mod_lt _ (by omega)
      rw [Nat.toDigits_of_base_le (by omega) (by omega), List.forall_mem_append]
      exact ⟨ih _ smaller, by simp [digitIn_digitChar low last]⟩

end Text

namespace Net.Address

/-! ## Numbers -/

/-- What may come after a number: no digit that would go on with it. -/
def Parted (radix : Nat) (rest : List Char) : Prop := ∀ c, rest.head? = some c → Text.digitIn radix c = none

theorem parted_nil (radix : Nat) : Parted radix [] := fun _ head => by cases head

theorem parted_cons {radix : Nat} {c : Char} (other : Text.digitIn radix c = none) (rest : List Char) :
    Parted radix (c :: rest) := fun _ head => Option.some.inj head ▸ other

theorem Parted.digits_nil {radix : Nat} {rest : List Char} (parted : Parted radix rest) :
    rest.takeWhile (fun c => (Text.digitIn radix c).isSome) = [] := by
  cases rest with
  | nil => rfl
  | cons c rest => simp [parted c rfl]

theorem readGroup_written {radix most n : Nat} (many : 2 ≤ radix) (low : radix ≤ 16)
    (short : (Nat.toDigits radix n).length ≤ most) {rest : List Char} (parted : Parted radix rest) :
    readGroup radix most (Nat.toDigits radix n ++ rest) = some (Nat.toDigits radix n, n, rest) := by
  have digits := Text.digitIn_toDigits many low n
  have front : (Nat.toDigits radix n ++ rest).takeWhile (fun c => (Text.digitIn radix c).isSome) =
      Nat.toDigits radix n := by
    rw [List.takeWhile_append_of_pos digits, parted.digits_nil, List.append_nil]
  have some_ : (Nat.toDigits radix n).isEmpty = false := by simp [Nat.toDigits_ne_nil]
  have read : Text.readDigits radix (Nat.toDigits radix n) = some n := by
    rw [Text.readDigits_eq Nat.toDigits_ne_nil, Text.foldlM_shift_toDigits many low]
  unfold readGroup
  simp only [front, some_, Bool.false_or, decide_eq_true_eq]
  rw [if_neg (Nat.not_lt.mpr short), read, Option.map_some, List.drop_left]

theorem readGroup_none {radix most : Nat} {rest : List Char} (parted : Parted radix rest) :
    readGroup radix most rest = none := by
  simp [readGroup, parted.digits_nil]

/-! ## Version 4 -/

def octetChars (b : UInt8) : List Char := Nat.toDigits 10 b.toNat

theorem octet_digits : ∀ n < 256, (Nat.toDigits 10 n).length ≤ 3 ∧
    ((Nat.toDigits 10 n).length ≤ 1 ∨ (Nat.toDigits 10 n).head? ≠ some '0') := by decide +kernel

theorem readOctet_written (b : UInt8) {rest : List Char} (parted : Parted 10 rest) :
    readOctet (octetChars b ++ rest) = some (b, rest) := by
  obtain ⟨short, head⟩ := octet_digits b.toNat b.toNat_lt
  have valid : (decide (b.toNat > 255) || (decide ((Nat.toDigits 10 b.toNat).length > 1) &&
      (Nat.toDigits 10 b.toNat).head? == some '0')) = false := by
    have below := b.toNat_lt
    simp only [Bool.or_eq_false_iff, Bool.and_eq_false_iff, decide_eq_false_iff_not, beq_eq_false_iff_ne]
    exact ⟨by omega, head.imp_left Nat.not_lt.mpr⟩
  rw [readOctet, octetChars, readGroup_written (by decide) (by decide) short parted]
  simp only [Option.bind_eq_bind, Option.bind_some, valid, Bool.false_eq_true, if_false]
  simp

theorem readChar_same (c : Char) (rest : List Char) : readChar c (c :: rest) = some rest := by
  simp [readChar]

def octetsChars (a b c d : UInt8) : List Char :=
  octetChars a ++ '.' :: (octetChars b ++ '.' :: (octetChars c ++ '.' :: octetChars d))

theorem toList_octetsText (a b c d : UInt8) : (octetsText a b c d).toList = octetsChars a b c d := by
  simp [octetsText, octetsChars, octetChars, toString, Nat.repr]

theorem readV4_written (a b c d : UInt8) : readV4 (octetsChars a b c d) = some ((a, b, c, d), []) := by
  have dot (rest : List Char) : Parted 10 ('.' :: rest) := parted_cons (by decide) rest
  have last := readOctet_written d (parted_nil 10)
  rw [List.append_nil] at last
  simp only [readV4, octetsChars, readOctet_written _ (dot _), Option.bind_eq_bind, Option.bind_some, readChar_same,
    last]

theorem readV4_none {rest : List Char} (parted : Parted 10 rest) : readV4 rest = none := by
  rw [readV4, readOctet, readGroup_none parted]
  rfl

theorem rest_of_readOctet {input rest : List Char} {b : UInt8} (read : readOctet input = some (b, rest)) :
    ∃ n, rest = input.drop n := by
  obtain ⟨⟨digits, value, after⟩, group, checked⟩ := Option.bind_eq_some_iff.mp read
  have same : after = input.drop digits.length := by
    unfold readGroup at group
    simp only at group
    split at group
    · cases group
    · obtain ⟨_, _, found⟩ := Option.map_eq_some_iff.mp group
      cases found
      rfl
  simp only at checked
  split at checked
  · cases checked
  · cases checked
    exact ⟨_, same⟩

theorem dot_of_readV4 {input rest : List Char} {octets : UInt8 × UInt8 × UInt8 × UInt8}
    (read : readV4 input = some (octets, rest)) : '.' ∈ input := by
  obtain ⟨⟨a, after⟩, first, later⟩ := Option.bind_eq_some_iff.mp read
  obtain ⟨next, dot, -⟩ := Option.bind_eq_some_iff.mp later
  obtain ⟨n, rfl⟩ := rest_of_readOctet first
  refine List.mem_of_mem_drop (i := n) ?_
  cases shape : input.drop n with
  | nil => simp [shape, readChar] at dot
  | cons c tail =>
    have same : c = '.' := by
      by_contra other
      simp [shape, readChar, other] at dot
    rw [same]
    exact List.mem_cons_self

theorem readV4_plain {input : List Char} (plain : '.' ∉ input) : readV4 input = none :=
  Option.eq_none_iff_forall_not_mem.mpr fun _ member => plain (dot_of_readV4 (Option.mem_def.mp member))

/-! ## Groups -/

def groupChars (g : UInt16) : List Char := Nat.toDigits 16 g.toNat

/-- Groups as they are written where others stand before, or none. -/
def groupsChars (first : Bool) : List UInt16 → List Char
  | [] => []
  | g :: gs => (if first then [] else [':']) ++ (groupChars g ++ groupsChars false gs)

theorem toList_groupsText (gs : List UInt16) : (groupsText gs).toList = groupsChars true gs := by
  have later (g : UInt16) (gs : List UInt16) :
      [':'].intercalate ((g :: gs).map groupChars) = groupChars g ++ groupsChars false gs := by
    induction gs generalizing g with
    | nil => simp [groupsChars, List.intercalate]
    | cons h gs ih =>
      rw [List.map_cons, List.map_cons, List.intercalate_cons_cons, ← List.map_cons, ih, groupsChars]
      simp
  have colon : ":".toList = [':'] := by decide
  rw [groupsText, String.toList_intercalate, List.map_map, colon]
  cases gs with
  | nil => rfl
  | cons g gs =>
    refine Eq.trans (congrArg _ (List.map_congr_left fun g _ => ?_)) (later g gs)
    simp [groupChars]

theorem groupChars_free (g : UInt16) : '.' ∉ groupChars g := fun member =>
  absurd (Text.digitIn_toDigits (by decide) (by decide) g.toNat '.' member) (by decide)

theorem groupsChars_free (first : Bool) (gs : List UInt16) : '.' ∉ groupsChars first gs := by
  induction gs generalizing first with
  | nil => exact List.not_mem_nil
  | cons g gs ih => cases first <;> simp [groupsChars, groupChars_free, ih]

theorem parted_groupsChars (gs : List UInt16) {tail : List Char} (parted : Parted 16 tail) :
    Parted 16 (groupsChars false gs ++ tail) := by
  cases gs with
  | nil => exact parted
  | cons g gs => exact parted_cons (by decide) _

/-- What comes after the groups of one side: nothing, or the double colon. -/
inductive Closed : List Char → Prop where
  | nil : Closed []
  | zeros (rest : List Char) : Closed (':' :: ':' :: rest)

theorem Closed.parted {tail : List Char} (closed : Closed tail) (radix : Nat)
    (colon : Text.digitIn radix ':' = none) : Parted radix tail := by
  cases closed with
  | nil => exact parted_nil radix
  | zeros rest => exact parted_cons colon _

theorem readGroups_closed {tail : List Char} (closed : Closed tail) (first : Bool) (most : Nat) :
    readGroups first tail most = ([], false, tail) := by
  have start : (if first then some tail else readChar ':' tail).bind readV4 = none ∧
      (if first then some tail else readChar ':' tail).bind (readGroup 16 4) = none := by
    have stop {rest : List Char} (decimal : Parted 10 rest) (hexadecimal : Parted 16 rest) :
        (some rest).bind readV4 = none ∧ (some rest).bind (readGroup 16 4) = none :=
      ⟨readV4_none decimal, readGroup_none hexadecimal⟩
    cases first with
    | true => exact stop (closed.parted 10 (by decide)) (closed.parted 16 (by decide))
    | false =>
      cases closed with
      | nil => exact ⟨rfl, rfl⟩
      | zeros rest => exact stop (parted_cons (by decide) rest) (parted_cons (by decide) rest)
  cases most with
  | zero => rfl
  | succ most => simp [readGroups, start]

theorem readGroups_group (first : Bool) (g : UInt16) (most : Nat) {rest : List Char} (parted : Parted 16 rest)
    (version : most = 0 ∨ readV4 (groupChars g ++ rest) = none) :
    readGroups first ((if first then [] else [':']) ++ (groupChars g ++ rest)) (most + 1) =
      (g :: (readGroups false rest most).1, (readGroups false rest most).2) := by
  have start : (if first then some ((if first then [] else [':']) ++ (groupChars g ++ rest))
      else readChar ':' ((if first then [] else [':']) ++ (groupChars g ++ rest))) = some (groupChars g ++ rest) := by
    cases first with
    | true => rfl
    | false => exact readChar_same ':' _
  have embedded : (if most = 0 then none else readV4 (groupChars g ++ rest)) = none := by
    split
    · rfl
    · exact version.resolve_left ‹_›
  have short : (Nat.toDigits 16 g.toNat).length ≤ 4 := Nat.toDigits_length 16 g.toNat 4 (by decide) g.toNat_lt
  have group : readGroup 16 4 (groupChars g ++ rest) = some (groupChars g, g.toNat, rest) :=
    readGroup_written (by decide) (by decide) short parted
  rw [readGroups]
  simp only [start, Option.bind_some, embedded, group, Nat.toUInt16_eq, UInt16.ofNat_toNat]

theorem readGroups_written (first : Bool) {gs : List UInt16} {most : Nat} (fits : gs.length ≤ most) {tail : List Char}
    (closed : Closed tail) (plain : '.' ∉ tail) :
    readGroups first (groupsChars first gs ++ tail) most = (gs, false, tail) := by
  induction gs generalizing first most with
  | nil => exact readGroups_closed closed first most
  | cons g gs ih =>
    obtain ⟨most, rfl⟩ := Nat.exists_eq_add_of_le' (Nat.le_trans (Nat.succ_pos _) fits)
    have parted := parted_groupsChars gs (closed.parted 16 (by decide))
    have version : readV4 (groupChars g ++ (groupsChars false gs ++ tail)) = none :=
      readV4_plain (by simp [groupChars_free, groupsChars_free, plain])
    rw [groupsChars, List.append_assoc, List.append_assoc, readGroups_group first g most parted (.inr version),
      ih false (Nat.le_of_succ_le_succ fits)]

/-! ## The longest run of zeros -/

/-- So many zeros stand at a place among the groups. -/
def Zeros (groups : List UInt16) (run : Nat × Nat) : Prop :=
  ∃ before after, groups = before ++ List.replicate run.2 0 ++ after ∧ before.length = run.1

theorem zeros_go {before : List UInt16} {run : Nat} {best : Nat × Nat} {rest : List UInt16}
    (found : Zeros (before ++ List.replicate run 0 ++ rest) best) :
    Zeros (before ++ List.replicate run 0 ++ rest) (longestZeros.go (before.length + run) run best rest) := by
  induction rest generalizing before run best with
  | nil => exact found
  | cons g rest ih =>
    rw [longestZeros.go]
    by_cases zero : g = 0
    · subst zero
      have longer : before ++ List.replicate run 0 ++ 0 :: rest =
          before ++ List.replicate (run + 1) 0 ++ rest := by
        rw [List.replicate_succ']
        simp
      rw [if_pos (by decide), longer]
      rw [longer] at found
      have place : before.length + run - run = before.length := by omega
      refine ih ?_
      split
      · exact ⟨before, rest, rfl, place.symm⟩
      · exact found
    · have next : before ++ List.replicate run 0 ++ g :: rest =
          (before ++ List.replicate run 0 ++ [g]) ++ List.replicate 0 0 ++ rest := by simp
      have length : (before ++ List.replicate run 0 ++ [g]).length + 0 = before.length + run + 1 := by
        simp [Nat.add_assoc]
      rw [if_neg (by simpa using zero), next, ← length]
      rw [next] at found
      exact ih found

theorem zeros_longestZeros (groups : List UInt16) : Zeros groups (longestZeros groups) :=
  @zeros_go [] 0 (0, 0) groups ⟨[], groups, rfl, rfl⟩

/-! ## Version 6 -/

/-- An address of version 4 mapped into version 6. -/
def mapped (high low : UInt16) : List UInt16 := [0, 0, 0, 0, 0, 0xFFFF, high, low]

def mappedText (high low : UInt16) : String :=
  "::ffff:" ++ octetsText (high / 256).toUInt8 high.toUInt8 (low / 256).toUInt8 low.toUInt8

theorem joinOctets_split (g : UInt16) : joinOctets (g / 256).toUInt8 g.toUInt8 = g := by
  have below := g.toNat_lt
  refine UInt16.toNat_inj.mp ?_
  simp [joinOctets]
  omega

theorem vector_of_toList {groups : Vector UInt16 8} {l : List UInt16} (shape : groups.toList = l)
    (length : l.toArray.size = 8) : (⟨l.toArray, length⟩ : Vector UInt16 8) = groups := by
  refine Vector.toList_inj.mp ?_
  rw [shape, Vector.toList_mk]

/-- Groups around a double colon, or none left out. -/
theorem readV6_closed {groups : Vector UInt16 8} {front back : List UInt16} {zeros : Nat} (some_ : 0 < zeros)
    (shape : groups.toList = front ++ List.replicate zeros 0 ++ back) :
    readV6 (groupsChars true front ++ ':' :: ':' :: groupsChars true back) = some (groups, []) := by
  have length : front.length + zeros + back.length = 8 := by
    have all := congrArg List.length shape
    simp only [Vector.length_toList, List.length_append, List.length_replicate] at all
    exact all.symm
  have plain : '.' ∉ ':' :: ':' :: groupsChars true back := by
    simp [groupsChars_free]
  have first := readGroups_written true (by omega : front.length ≤ 8) (.zeros (groupsChars true back)) plain
  have last := readGroups_written true (by omega : back.length ≤ 7 - front.length) .nil List.not_mem_nil
  rw [List.append_nil] at last
  have short : front.length ≠ 8 := by omega
  have missing : 8 - front.length - back.length = zeros := by omega
  have whole : (front ++ List.replicate (8 - front.length - back.length) 0 ++ back).length = 8 := by
    rw [missing, ← shape, Vector.length_toList]
  unfold readV6
  simp only [first, dif_neg short, Bool.false_eq_true, if_false, readChar_same, Option.bind_eq_bind, Option.bind_some,
    last, dif_pos whole]
  refine congrArg (fun v => some (v, [])) (vector_of_toList ?_ _)
  rw [missing, shape]

theorem readV6_full (groups : Vector UInt16 8) : readV6 (groupsChars true groups.toList) = some (groups, []) := by
  have length : groups.toList.length = 8 := Vector.length_toList
  have read := readGroups_written true (Nat.le_of_eq length) .nil List.not_mem_nil
  rw [List.append_nil] at read
  unfold readV6
  simp only [read, dif_pos length]
  exact congrArg (fun v => some (v, [])) (vector_of_toList rfl _)

theorem readGroups_embedded (a b c d : UInt8) (most : Nat) :
    readGroups false (':' :: octetsChars a b c d) (most + 2) = ([joinOctets a b, joinOctets c d], true, []) := by
  simp [readGroups, readChar_same, readV4_written]

theorem toList_mappedText (high low : UInt16) :
    (mappedText high low).toList = ':' :: ':' :: (groupChars 0xFFFF ++ ':' ::
      octetsChars (high / 256).toUInt8 high.toUInt8 (low / 256).toUInt8 low.toUInt8) := by
  have label : "::ffff:".toList = ':' :: ':' :: (groupChars 0xFFFF ++ [':']) := by decide +kernel
  simp [mappedText, label, toList_octetsText]

theorem readV6_mapped {groups : Vector UInt16 8} {high low : UInt16} (shape : groups.toList = mapped high low) :
    readV6 (mappedText high low).toList = some (groups, []) := by
  obtain ⟨octets, written⟩ : ∃ octets,
      octets = octetsChars (high / 256).toUInt8 high.toUInt8 (low / 256).toUInt8 low.toUInt8 := ⟨_, rfl⟩
  have version : readV4 (groupChars 0xFFFF ++ ':' :: octets) = none :=
    readV4_none (parted_cons (by decide : Text.digitIn 10 'f' = none) _)
  have first := readGroups_closed (.zeros (groupChars 0xFFFF ++ ':' :: octets)) true 8
  have last := readGroups_group true 0xFFFF 6 (parted_cons (by decide : Text.digitIn 16 ':' = none) octets) (.inr version)
  rw [if_pos rfl, List.nil_append] at last
  have embedded : readGroups false (':' :: octets) 6 = ([high, low], true, []) := by
    rw [written, readGroups_embedded, joinOctets_split, joinOctets_split]
  rw [embedded] at last
  rw [toList_mappedText, ← written]
  unfold readV6
  simp only [first, List.length_nil, Nat.reduceEqDiff, dif_neg, not_false_eq_true, Bool.false_eq_true, if_false,
    readChar_same, Option.bind_eq_bind, Option.bind_some, last]
  refine congrArg (fun v => some (v, [])) (vector_of_toList ?_ _)
  rw [shape]
  rfl

/-! ## Texts -/

theorem toList_text_v6 (groups : Vector UInt16 8) :
    (∃ high low, groups.toList = mapped high low ∧ (text (.v6 groups)).toList = (mappedText high low).toList) ∨
      (∃ front zeros back, 0 < zeros ∧ groups.toList = front ++ List.replicate zeros 0 ++ back ∧
        (text (.v6 groups)).toList = groupsChars true front ++ ':' :: ':' :: groupsChars true back) ∨
      (text (.v6 groups)).toList = groupsChars true groups.toList := by
  rw [text]
  split
  next high low shape => exact .inl ⟨high, low, shape, rfl⟩
  next =>
    refine .inr ?_
    obtain ⟨before, after, shape, place⟩ := zeros_longestZeros groups.toList
    split
    next start length found =>
    rw [found] at shape place
    dsimp only at shape place
    split
    next long =>
      have front : groups.toList.take start = before := by
        rw [shape, List.append_assoc, ← place, List.take_left]
      have back : groups.toList.drop (start + length) = after := by
        rw [shape, ← place]
        exact List.drop_left' (by simp)
      refine .inl ⟨before, length, after, Nat.lt_of_succ_lt long, shape, ?_⟩
      rw [front, back]
      simp [toList_groupsText]
    next => exact .inr (toList_groupsText _)

theorem parse?_text (a : Address) : parse? a.text = some a := by
  cases a with
  | v4 a b c d => rw [text, parse?, toList_octetsText, readV4_written]
  | v6 groups =>
    have six (none_ : readV4 (text (.v6 groups)).toList = none)
        (read : readV6 (text (.v6 groups)).toList = some (groups, [])) : parse? (text (.v6 groups)) = some (.v6 groups) := by
      rw [parse?, none_, read]
    rcases toList_text_v6 groups with ⟨high, low, shape, written⟩ | ⟨front, zeros, back, some_, shape, written⟩ | written
    · rw [written] at six
      refine six ?_ (readV6_mapped shape)
      rw [toList_mappedText]
      exact readV4_none (parted_cons (by decide) _)
    · rw [written] at six
      exact six (readV4_plain (by simp [groupsChars_free])) (readV6_closed some_ shape)
    · rw [written] at six
      exact six (readV4_plain (groupsChars_free true _)) (readV6_full groups)

end Net.Address

end ToolBridge

import ToolBridge.Json.Printer
import ToolBridge.Json.Token
import ToolBridge.Proofs.TextPieces
import ToolBridge.Proofs.TextOctets

/-! Strings and whole numbers of JSON text, written and read back. In a string every character that could end it, escape
another or break a line is escaped itself, and no octet of any other character looks like one of those. -/

namespace ToolBridge

namespace Text

def octets (s : List Char) : Bytes := s.flatMap String.utf8EncodeChar

@[simp] theorem octets_nil : octets [] = [] := rfl

@[simp] theorem octets_cons (c : Char) (s : List Char) : octets (c :: s) = String.utf8EncodeChar c ++ octets s := rfl

@[simp] theorem octets_append (s t : List Char) : octets (s ++ t) = octets s ++ octets t := List.flatMap_append

theorem octets_toList (s : String) : octets s.toList = utf8 s := (utf8_eq s).symm

theorem utf8_toString (c : Char) : utf8 c.toString = String.utf8EncodeChar c := by simp [utf8_eq, Char.toString]

theorem encodeChar_of_ascii {c : Char} (ascii : c.toNat < 0x80) : String.utf8EncodeChar c = [c.toNat.toUInt8] := by
  have small : c.val.toNat ≤ 127 := Nat.le_of_lt_succ ascii
  rw [String.utf8EncodeChar, if_pos small]
  rfl

theorem octets_ascii {c : Char} (ascii : c.toNat < 0x80) (s : List Char) :
    octets (c :: s) = c.toNat.toUInt8 :: octets s := by
  rw [octets_cons, encodeChar_of_ascii ascii, List.singleton_append]

end Text

namespace Json

/-! ## Strings -/

theorem readQuoted_close (done rest : Bytes) : readQuoted done (0x22 :: rest) = .ok (done.reverse, rest) := by
  rw [readQuoted]
  rfl

theorem readQuoted_escape {c : Char} {rest after : Bytes} (read : readEscape rest = .ok (c, after)) (done : Bytes) :
    readQuoted done (0x5C :: rest) = readQuoted ((String.utf8EncodeChar c).reverse ++ done) after := by
  rw [readQuoted, if_neg (by decide), if_pos (by decide)]
  split
  next read' =>
    cases read.symm.trans read'
    rw [Text.utf8_toString]
  next read' => cases read.symm.trans read'

/-- An octet that a string holds as it is. -/
def Bare (b : UInt8) : Prop := b ≠ 0x22 ∧ b ≠ 0x5C ∧ 0x20 ≤ b

theorem readQuoted_bare {run : Bytes} (bare : ∀ b ∈ run, Bare b) (done rest : Bytes) :
    readQuoted done (run ++ rest) = readQuoted (run.reverse ++ done) rest := by
  induction run generalizing done with
  | nil => rfl
  | cons b run ih =>
    obtain ⟨quote, slash, high⟩ := bare b List.mem_cons_self
    rw [List.cons_append, readQuoted, if_neg (by simpa using quote), if_neg (by simpa using slash),
      if_neg (UInt8.not_lt.mpr high), ih fun other member => bare other (List.mem_cons_of_mem _ member)]
    simp

theorem bare_encodeChar {c : Char} (quote : c ≠ '"') (slash : c ≠ '\\') (high : 0x20 ≤ c.toNat) :
    ∀ b ∈ String.utf8EncodeChar c, Bare b := by
  intro b member
  by_cases ascii : b < 0x80
  · have same := Text.encodeChar_ascii member ascii
    refine ⟨?_, ?_, UInt8.le_iff_toNat_le.mpr (same ▸ high)⟩
    · rintro rfl
      exact quote (Char.toNat_inj.mp same)
    · rintro rfl
      exact slash (Char.toNat_inj.mp same)
  · have large : 0x80 ≤ b.toNat := UInt8.le_iff_toNat_le.mp (UInt8.not_lt.mp ascii)
    refine ⟨?_, ?_, UInt8.le_iff_toNat_le.mpr (Nat.le_trans (by decide) large)⟩ <;>
      rintro rfl <;> exact absurd large (by decide)

theorem hexChar_ascii : ∀ d < 16, (hexChar d).toNat < 0x80 := by decide

theorem hexValue_hexChar : ∀ d < 16, hexValue (hexChar d).toNat.toUInt8 = some d := by decide

theorem readEscape_hex {n : Nat} (control : n < 32) (rest : Bytes) :
    readEscape (Text.octets ['u', '0', '0', hexChar (n / 16), hexChar (n % 16)] ++ rest) = .ok (Char.ofNat n, rest) := by
  have zero : hexValue 0x30 = some 0 := by decide
  have high := hexValue_hexChar (n / 16) (by omega)
  have low := hexValue_hexChar (n % 16) (by omega)
  have shape : Text.octets ['u', '0', '0', hexChar (n / 16), hexChar (n % 16)] =
      [0x75, 0x30, 0x30, (hexChar (n / 16)).toNat.toUInt8, (hexChar (n % 16)).toNat.toUInt8] := by
    simp only [Text.octets_cons, Text.encodeChar_of_ascii (hexChar_ascii (n / 16) (by omega)),
      Text.encodeChar_of_ascii (hexChar_ascii (n % 16) (by omega))]
    rfl
  have whole : 0 * 4096 + 0 * 256 + n / 16 * 16 + n % 16 = n := by omega
  have plain : isTrailing n = false ∧ isLeading n = false := by
    simp only [isTrailing, isLeading, Bool.and_eq_false_iff, decide_eq_false_iff_not]
    omega
  simp only [shape, List.cons_append, List.nil_append, readEscape, readUnicode, readHex, zero, high, low, whole]
  simp [bind, Except.bind, plain]

theorem readQuoted_escapeChar (c : Char) (done rest : Bytes) :
    readQuoted done (Text.octets (escapeChar c) ++ rest) = readQuoted ((String.utf8EncodeChar c).reverse ++ done) rest := by
  have named {letter c : Char} (b : UInt8) (one : String.utf8EncodeChar letter = [b])
      (read : readEscape (b :: rest) = .ok (c, rest)) :
      readQuoted done (Text.octets ['\\', letter] ++ rest) =
        readQuoted ((String.utf8EncodeChar c).reverse ++ done) rest := by
    have slash : String.utf8EncodeChar '\\' = [0x5C] := by decide
    simp only [Text.octets_cons, Text.octets_nil, slash, one, List.append_nil, List.cons_append]
    exact readQuoted_escape read done
  have numbered {n : Nat} (same : c.toNat = n) : c = Char.ofNat n := same ▸ (Char.ofNat_toNat c).symm
  unfold escapeChar
  split
  next same =>
    obtain rfl := eq_of_beq same
    exact named 0x22 (by decide) rfl
  split
  next same =>
    obtain rfl := eq_of_beq same
    exact named 0x5C (by decide) rfl
  split
  next same => exact eq_of_beq same ▸ named 0x6E (by decide) rfl
  split
  next same => exact eq_of_beq same ▸ named 0x72 (by decide) rfl
  split
  next same => exact eq_of_beq same ▸ named 0x74 (by decide) rfl
  split
  next same => exact numbered (eq_of_beq same) ▸ named 0x62 (by decide) rfl
  split
  next same => exact numbered (eq_of_beq same) ▸ named 0x66 (by decide) rfl
  split
  next control =>
    have read := readEscape_hex control rest
    rw [Char.ofNat_toNat] at read
    have slash : String.utf8EncodeChar '\\' = [0x5C] := by decide
    rw [Text.octets_cons, slash]
    exact readQuoted_escape read done
  next quote slash _ _ _ _ _ high =>
    rw [Text.octets_cons, Text.octets_nil, List.append_nil]
    exact readQuoted_bare (bare_encodeChar (by simpa using quote) (by simpa using slash) (Nat.not_lt.mp high)) done rest

theorem readQuoted_escaped (s : List Char) (done rest : Bytes) :
    readQuoted done (Text.octets (s.flatMap escapeChar) ++ 0x22 :: rest) =
      .ok (done.reverse ++ Text.octets s, rest) := by
  induction s generalizing done with
  | nil => simp [readQuoted_close]
  | cons c s ih =>
    rw [List.flatMap_cons, Text.octets_append, List.append_assoc, readQuoted_escapeChar, ih]
    simp

theorem readString_escaped (s : String) (rest : Bytes) :
    readString (Text.octets (s.toList.flatMap escapeChar) ++ 0x22 :: rest) = .ok (s, rest) := by
  have whole := readQuoted_escaped s.toList [] rest
  rw [List.reverse_nil, List.nil_append, Text.octets_toList] at whole
  simp only [readString, whole, bind, Except.bind, Text.ofUtf8?_utf8]

/-! ## Whole numbers -/

/-- What may come after a number: nothing that would go on with it. -/
def Ends (rest : Bytes) : Prop :=
  ∀ b, rest.head? = some b → isDigit b = false ∧ b ≠ 0x2E ∧ b ≠ 0x65 ∧ b ≠ 0x45

theorem isDigit_digitChar : ∀ d < 10, isDigit (Nat.digitChar d).toNat.toUInt8 = true ∧
    (Nat.digitChar d).toNat.toUInt8.toNat - 0x30 = d ∧ (Nat.digitChar d).toNat < 0x80 := by decide

theorem readSignificand_digit {d : Nat} (digit : d < 10) {significand : Nat} (fits : significand * 10 + d < UInt64.size)
    (taken : Nat) (rest : Bytes) :
    readSignificand significand taken (Text.octets [Nat.digitChar d] ++ rest) =
      readSignificand (significand * 10 + d) (taken + 1) rest := by
  obtain ⟨isDigit, value, ascii⟩ := isDigit_digitChar d digit
  rw [Text.octets_ascii ascii, Text.octets_nil, List.singleton_append, readSignificand, if_pos isDigit]
  simp only [value]
  rw [if_pos fits]

theorem readSignificand_toDigits {n : Nat} (fits : n < UInt64.size) (taken : Nat) (rest : Bytes) :
    readSignificand 0 taken (Text.octets (Nat.toDigits 10 n) ++ rest) =
      readSignificand n (taken + (Nat.toDigits 10 n).length) rest := by
  induction n using Nat.strongRecOn generalizing taken rest with
  | ind n ih =>
    by_cases one : n < 10
    · rw [Nat.toDigits_of_lt_base one, readSignificand_digit one (by omega)]
      simp
    · have last : n % 10 < 10 := Nat.mod_lt _ (by omega)
      rw [Nat.toDigits_of_base_le (by omega) (by omega), Text.octets_append, List.append_assoc,
        ih _ (by omega) (by omega), readSignificand_digit last (by omega)]
      simp [Nat.div_add_mod', Nat.add_assoc]

theorem Ends.stops {rest : Bytes} (ends : Ends rest) (significand taken : Nat) :
    readSignificand significand taken rest = (significand, taken, rest) := by
  cases rest with
  | nil => rfl
  | cons b rest => simp [readSignificand, (ends b rfl).1]

theorem Ends.readAfterDigits {rest : Bytes} (ends : Ends rest) (positive : Bool) (significand : Nat) :
    readAfterDigits positive significand 0 rest =
      if positive then .ok (.int significand, rest)
      else if significand == 0 || significand > 9223372036854775808 then
        .ok (signed false (.ofNat significand), rest)
      else .ok (.int (-significand), rest) := by
  unfold Json.readAfterDigits
  split
  next => exact absurd rfl (ends _ rfl).2.1
  next => exact absurd rfl (ends _ rfl).2.2.1
  next => exact absurd rfl (ends _ rfl).2.2.2
  next => simp

theorem toDigits_head (n : Nat) :
    ∃ d digits, d < 10 ∧ (0 < n → 0 < d) ∧ Nat.toDigits 10 n = Nat.digitChar d :: digits := by
  induction n using Nat.strongRecOn with
  | ind n ih =>
    by_cases one : n < 10
    · exact ⟨n, [], one, id, Nat.toDigits_of_lt_base one⟩
    · obtain ⟨d, digits, small, least, shape⟩ := ih (n / 10) (by omega)
      refine ⟨d, digits ++ [Nat.digitChar (n % 10)], small, fun _ => least (by omega), ?_⟩
      rw [Nat.toDigits_of_base_le (by omega) (by omega), shape, List.cons_append]

theorem Ends.span {rest : Bytes} (ends : Ends rest) :
    rest.takeWhile isDigit = [] ∧ rest.dropWhile isDigit = rest := by
  cases rest with
  | nil => exact ⟨rfl, rfl⟩
  | cons b rest => simp [(ends b rfl).1]

theorem readNumber_digit {b : UInt8} (digit : isDigit b = true) (positive : b ≠ 0x30) (plus : Bool) (rest : Bytes) :
    readNumber plus (b :: rest) =
      let (significand, _, rest) := readSignificand 0 0 (b :: rest)
      readAfterDigits plus significand (rest.takeWhile isDigit).length (rest.dropWhile isDigit) := by
  unfold readNumber
  split
  next empty => cases empty
  next same =>
    cases same
    exact absurd rfl positive
  next same =>
    cases same
    rw [if_pos digit]

/-- Digits of a number below `2 ^ 64` are read as that number. -/
theorem readNumber_toDigits {n : Nat} (fits : n < UInt64.size) {rest : Bytes} (ends : Ends rest) (plus : Bool) :
    readNumber plus (Text.octets (Nat.toDigits 10 n) ++ rest) = readAfterDigits plus n 0 rest := by
  by_cases zero : n = 0
  · have apart : startsWithDigit rest = false := by
      cases rest with
      | nil => rfl
      | cons b rest => exact (ends b rfl).1
    have shape : Text.octets (Nat.toDigits 10 n) ++ rest = 0x30 :: rest := by
      rw [zero]
      rfl
    rw [shape, readNumber, apart, zero]
    rfl
  · obtain ⟨d, digits, small, least, shape⟩ := toDigits_head n
    obtain ⟨digit, value, ascii⟩ := isDigit_digitChar d small
    have read := readSignificand_toDigits fits 0 rest
    rw [ends.stops, shape, Text.octets_ascii ascii, List.cons_append] at read
    have positive : (Nat.digitChar d).toNat.toUInt8 ≠ 0x30 := by
      intro same
      rw [same] at value
      exact absurd value (Nat.ne_of_lt (least (Nat.pos_of_ne_zero zero)))
    rw [shape, Text.octets_ascii ascii, List.cons_append, readNumber_digit digit positive]
    simp only [read, ends.span, List.length_nil]

/-- The octets that a natural number is written with. -/
def naturalOctets (n : Nat) : Bytes := Text.octets (toString n).toList

theorem naturalOctets_eq (n : Nat) : naturalOctets n = Text.octets (Nat.toDigits 10 n) :=
  congrArg Text.octets String.toList_ofList

theorem naturalOctets_head (n : Nat) : ∃ b tail, naturalOctets n = b :: tail ∧ isDigit b = true := by
  obtain ⟨d, digits, small, _, shape⟩ := toDigits_head n
  obtain ⟨digit, _, ascii⟩ := isDigit_digitChar d small
  exact ⟨_, _, by rw [naturalOctets_eq, shape, Text.octets_ascii ascii], digit⟩

/-- The range of the whole numbers that are written with all their digits: 64 bits, signed or not. -/
def Fits (n : Int) : Prop := -9223372036854775808 ≤ n ∧ n < 18446744073709551616

theorem readNumber_natural {n : Nat} (fits : Fits n) {rest : Bytes} (ends : Ends rest) :
    readNumber true (naturalOctets n ++ rest) = .ok (.int n, rest) := by
  have below : n < UInt64.size := Int.ofNat_lt.mp fits.2
  rw [naturalOctets_eq, readNumber_toDigits below ends, ends.readAfterDigits, if_pos rfl]

theorem readNumber_negative {n : Nat} (positive : 0 < n) (fits : Fits (-n)) {rest : Bytes} (ends : Ends rest) :
    readNumber false (naturalOctets n ++ rest) = .ok (.int (-n), rest) := by
  have below : n ≤ 9223372036854775808 := by
    have := fits.1
    omega
  have inside : ¬ (n == 0 || decide (n > 9223372036854775808)) = true := by
    simp only [Bool.or_eq_true, beq_iff_eq, decide_eq_true_eq]
    omega
  rw [naturalOctets_eq, readNumber_toDigits (Nat.lt_of_le_of_lt below (by decide)) ends, ends.readAfterDigits,
    if_neg (by decide), if_neg inside]

end Json

end ToolBridge

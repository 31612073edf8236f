import ToolBridge.Json.Fault
import ToolBridge.Text.Utf8
import ToolBridge.Decimal.Scale

/-! The words, numbers and strings of JSON text. A reader takes its token from the front of the
octets and gives back the rest. -/

namespace ToolBridge.Json

abbrev Reader (α : Type) := Bytes → Except Fault (α × Bytes)

def isSpace (b : UInt8) : Bool := b == 0x20 || b == 0x0A || b == 0x09 || b == 0x0D

def skipSpace (input : Bytes) : Bytes := input.dropWhile isSpace

/-- What is left of a word whose first letter has been read. -/
def readWord : Bytes → Reader Unit
  | [], rest => .ok ((), rest)
  | _ :: _, [] => .error (.before [] .endInValue)
  | w :: word, b :: rest =>
    if b == w then readWord word rest else .error (.before rest .expectedWord)

def isDigit (b : UInt8) : Bool := 0x30 ≤ b && b ≤ 0x39

def startsWithDigit : Bytes → Bool
  | b :: _ => isDigit b
  | [] => false

/-- Takes digits for as long as the significand stays below `2 ^ 64`. Gives the significand, the
number of digits taken, and what is left, which starts with a digit only where one did not fit. -/
def readSignificand (significand taken : Nat) : Bytes → Nat × Nat × Bytes
  | [] => (significand, taken, [])
  | b :: rest =>
    if isDigit b then
      let longer := significand * 10 + (b.toNat - 0x30)
      if longer < UInt64.size then readSignificand longer (taken + 1) rest
      else (significand, taken, b :: rest)
    else (significand, taken, b :: rest)

def signed (positive : Bool) (x : Binary64) : Number := .double (if positive then x else x.neg)

def scaled (positive : Bool) (significand : Nat) (exponent : Int) : Reader Number := fun rest =>
  match Decimal.scale? significand exponent with
  | some x => .ok (signed positive x, rest)
  | none => .error (.before rest .numberOutOfRange)

/-- The digits of an exponent; none as soon as they pass 31 bits, the digit that does being read. -/
def readExponentDigits (value : Nat) : Bytes → Option Nat × Bytes
  | [] => (some value, [])
  | b :: rest =>
    if isDigit b then
      let longer := value * 10 + (b.toNat - 0x30)
      if longer < 2147483648 then readExponentDigits longer rest else (none, rest)
    else (some value, b :: rest)

/-- What follows the letter of an exponent. -/
def readExponent (positive : Bool) (significand : Nat) (exponent : Int) : Reader Number := fun input =>
  let (up, input) := match input with
    | 0x2B :: rest => (true, rest)
    | 0x2D :: rest => (false, rest)
    | rest => (true, rest)
  match input with
  | [] => .error (.before [] .endInValue)
  | b :: rest =>
    if !isDigit b then .error (.before rest .invalidNumber)
    else match readExponentDigits 0 (b :: rest) with
      | (some value, rest) =>
        scaled positive significand (if up then exponent + value else exponent - value) rest
      | (none, rest) =>
        if significand != 0 && up then .error (.before rest .numberOutOfRange)
        else .ok (signed positive .zero, rest.dropWhile isDigit)

def readExponent? (positive : Bool) (significand : Nat) (exponent : Int) : Reader Number
  | 0x65 :: rest => readExponent positive significand exponent rest
  | 0x45 :: rest => readExponent positive significand exponent rest
  | rest => scaled positive significand exponent rest

/-- What follows the point. Digits that the significand has no room for are read and dropped. -/
def readFraction (positive : Bool) (significand : Nat) (exponent : Int) : Reader Number := fun input =>
  let (significand, taken, rest) := readSignificand significand 0 input
  if taken == 0 && !startsWithDigit rest then
    .error (.past rest (if rest.isEmpty then .endInValue else .invalidNumber))
  else readExponent? positive significand (exponent - taken) (rest.dropWhile isDigit)

/-- What follows the whole digits; `dropped` of them did not fit into the significand. -/
def readAfterDigits (positive : Bool) (significand dropped : Nat) : Reader Number
  | 0x2E :: rest => readFraction positive significand dropped rest
  | 0x65 :: rest => readExponent positive significand dropped rest
  | 0x45 :: rest => readExponent positive significand dropped rest
  | rest =>
    if dropped != 0 then scaled positive significand dropped rest
    else if positive then .ok (.int significand, rest)
    else if significand == 0 || significand > 9223372036854775808 then
      .ok (signed false (.ofNat significand), rest)
    else .ok (.int (-significand), rest)

/-- A number whose sign has been read. -/
def readNumber (positive : Bool) : Reader Number
  | [] => .error (.before [] .endInValue)
  | 0x30 :: rest =>
    if startsWithDigit rest then .error (.past rest .invalidNumber)
    else readAfterDigits positive 0 0 rest
  | b :: rest =>
    if isDigit b then
      let (significand, _, rest) := readSignificand 0 0 (b :: rest)
      readAfterDigits positive significand (rest.takeWhile isDigit).length (rest.dropWhile isDigit)
    else .error (.before rest .invalidNumber)

def hexValue (b : UInt8) : Option Nat :=
  if isDigit b then some (b.toNat - 0x30)
  else if 0x61 ≤ b ∧ b ≤ 0x66 then some (b.toNat - 0x61 + 10)
  else if 0x41 ≤ b ∧ b ≤ 0x46 then some (b.toNat - 0x41 + 10)
  else none

/-- Four hexadecimal digits; fewer octets than four are all read. -/
def readHex : Reader Nat
  | a :: b :: c :: d :: rest =>
    match hexValue a, hexValue b, hexValue c, hexValue d with
    | some a, some b, some c, some d => .ok (a * 4096 + b * 256 + c * 16 + d, rest)
    | _, _, _, _ => .error (.before rest .invalidEscape)
  | _ => .error (.before [] .endInString)

def isLeading (unit : Nat) : Bool := 0xD800 ≤ unit && unit ≤ 0xDBFF

def isTrailing (unit : Nat) : Bool := 0xDC00 ≤ unit && unit ≤ 0xDFFF

/-- The second escape of a pair, whose first gave `lead`. -/
def readPair (lead : Nat) : Reader Char
  | [] => .error (.before [] .endInString)
  | 0x5C :: [] => .error (.before [] .endInString)
  | 0x5C :: 0x75 :: rest => do
    let (trail, rest) ← readHex rest
    if isTrailing trail then
      .ok (Char.ofNat ((lead - 0xD800) * 1024 + (trail - 0xDC00) + 0x10000), rest)
    else .error (.before rest .loneSurrogate)
  | 0x5C :: _ :: rest => .error (.before rest .unfinishedPair)
  | _ :: rest => .error (.before rest .unfinishedPair)

def readUnicode : Reader Char := fun input => do
  let (unit, rest) ← readHex input
  if isTrailing unit then .error (.before rest .loneSurrogate)
  else if isLeading unit then readPair unit rest
  else .ok (Char.ofNat unit, rest)

/-- What follows a backslash. -/
def readEscape : Reader Char
  | [] => .error (.before [] .endInString)
  | 0x22 :: rest => .ok ('"', rest)
  | 0x5C :: rest => .ok ('\\', rest)
  | 0x2F :: rest => .ok ('/', rest)
  | 0x62 :: rest => .ok (Char.ofNat 8, rest)
  | 0x66 :: rest => .ok (Char.ofNat 12, rest)
  | 0x6E :: rest => .ok ('\n', rest)
  | 0x72 :: rest => .ok ('\r', rest)
  | 0x74 :: rest => .ok ('\t', rest)
  | 0x75 :: rest => readUnicode rest
  | _ :: rest => .error (.before rest .invalidEscape)

theorem readHex_length {input rest : Bytes} {n : Nat} (h : readHex input = .ok (n, rest)) :
    rest.length < input.length := by
  unfold readHex at h
  split at h
  · split at h <;> simp_all
    omega
  · simp at h

theorem readPair_length {lead : Nat} {input rest : Bytes} {c : Char}
    (h : readPair lead input = .ok (c, rest)) : rest.length < input.length := by
  unfold readPair at h
  split at h
  · simp at h
  · simp at h
  · next tail =>
    cases read : readHex tail with
    | error => simp [read, bind, Except.bind] at h
    | ok value =>
      have shorter : value.2.length < _ := readHex_length (n := value.1) (by simpa using read)
      simp only [read, bind, Except.bind] at h
      split at h <;> simp_all
      omega
  · simp at h
  · simp at h

theorem readUnicode_length {input rest : Bytes} {c : Char} (h : readUnicode input = .ok (c, rest)) :
    rest.length < input.length := by
  unfold readUnicode at h
  cases read : readHex input with
  | error => simp [read, bind, Except.bind] at h
  | ok value =>
    have shorter : value.2.length < _ := readHex_length (n := value.1) (by simpa using read)
    simp only [read, bind, Except.bind] at h
    split at h
    · simp at h
    · split at h
      · exact Nat.lt_trans (readPair_length h) shorter
      · simp_all

theorem readEscape_length {input rest : Bytes} {c : Char} (h : readEscape input = .ok (c, rest)) :
    rest.length < input.length := by
  unfold readEscape at h
  split at h
  case h_10 => have := readUnicode_length h; simp; omega
  all_goals simp_all

/-- Octets up to the closing quote, those already read standing last first in `done`. -/
def readQuoted (done : Bytes) : Reader Bytes
  | [] => .error (.before [] .endInString)
  | b :: rest =>
    if b == 0x22 then .ok (done.reverse, rest)
    else if b == 0x5C then
      match _h : readEscape rest with
      | .ok (c, after) => readQuoted ((Text.utf8 c.toString).reverse ++ done) after
      | .error fault => .error fault
    else if b < 0x20 then .error (.before rest .controlCharacter)
    else readQuoted (b :: done) rest
termination_by input => input.length
decreasing_by
  · have := readEscape_length (by assumption); simp; omega
  · simp

/-- A string whose opening quote has been read. -/
def readString : Reader String := fun input => do
  let (bytes, rest) ← readQuoted [] input
  match Text.ofUtf8? bytes with
  | some s => .ok (s, rest)
  | none => .error (.before rest .invalidCharacter)

end ToolBridge.Json

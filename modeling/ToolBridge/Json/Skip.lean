import ToolBridge.Json.Reader

/-! Passing over a value nobody asked for. Its strings and numbers are checked for their form only,
brackets may nest without bound, and a comma before a closing bracket reads as a missing item. -/

namespace ToolBridge.Json

def skipEscape : Reader Unit
  | [] => .error (.before [] .endInString)
  | b :: rest =>
    if b == 0x75 then (readHex rest).map fun (_, rest) => ((), rest)
    else if b == 0x22 || b == 0x5C || b == 0x2F || b == 0x62 || b == 0x66 || b == 0x6E || b == 0x72 ||
        b == 0x74 then .ok ((), rest)
    else .error (.before rest .invalidEscape)

theorem skipEscape_length {input rest : Bytes} {u : Unit} (h : skipEscape input = .ok (u, rest)) :
    rest.length < input.length := by
  unfold skipEscape at h
  split at h
  · simp at h
  · next b tail =>
    split at h
    · cases read : readHex tail with
      | error => simp [read, Except.map] at h
      | ok value =>
        have shorter : value.2.length < _ := readHex_length (n := value.1) (by simpa using read)
        simp [read, Except.map] at h
        subst h
        simp
        omega
    · split at h <;> simp_all

/-- What is left of a string whose opening quote has been read. A control character is not read. -/
def skipQuoted : Reader Unit
  | [] => .error (.before [] .endInString)
  | b :: rest =>
    if b == 0x22 then .ok ((), rest)
    else if b == 0x5C then
      match _h : skipEscape rest with
      | .ok (_, after) => skipQuoted after
      | .error fault => .error fault
    else if b < 0x20 then .error (.before (b :: rest) .controlCharacter)
    else skipQuoted rest
termination_by input => input.length
decreasing_by
  · have := skipEscape_length (by assumption); simp; omega
  · simp

def skipExponent : Reader Unit := fun input =>
  let unsigned := match input with
    | b :: rest => if b == 0x2B || b == 0x2D then rest else b :: rest
    | [] => []
  if startsWithDigit unsigned then .ok ((), unsigned.dropWhile isDigit)
  else .error (.before (unsigned.drop 1) .invalidNumber)

def skipExponent? : Reader Unit
  | 0x65 :: rest => skipExponent rest
  | 0x45 :: rest => skipExponent rest
  | rest => .ok ((), rest)

def skipAfterDigits : Reader Unit
  | 0x2E :: rest =>
    if startsWithDigit rest then skipExponent? (rest.dropWhile isDigit)
    else .error (.past rest .invalidNumber)
  | rest => skipExponent? rest

def skipNumber : Reader Unit
  | 0x30 :: rest =>
    if startsWithDigit rest then .error (.past rest .invalidNumber) else skipAfterDigits rest
  | input =>
    if startsWithDigit input then skipAfterDigits (input.dropWhile isDigit)
    else .error (.before (input.drop 1) .invalidNumber)

/-- The items up to and with the closing bracket. -/
def skipItems (item : Reader Unit) : Bytes → Bool → Reader Unit
  | [], _, input => .error (.past input .endInList)
  | _ :: bound, first, input =>
    match skipSpace input with
    | [] => .error (.past [] .endInList)
    | b :: rest =>
      if b == 0x5D then .ok ((), rest)
      else if !first && b != 0x2C then .error (.past (b :: rest) .expectedListCommaOrEnd)
      else do
        let (_, rest) ← item (if first then b :: rest else rest)
        skipItems item bound false rest

def skipKey : Reader Unit := fun input =>
  match skipSpace input with
  | [] => .error (.past [] .endInObject)
  | b :: rest =>
    if b != 0x22 then .error (.past (b :: rest) .keyNotString)
    else do
      let (_, rest) ← skipQuoted rest
      readColon rest

/-- The members up to and with the closing brace. -/
def skipMembers (value : Reader Unit) : Bytes → Bool → Reader Unit
  | [], _, input => .error (.past input .endInObject)
  | _ :: bound, first, input =>
    match skipSpace input with
    | [] => .error (.past [] .endInObject)
    | b :: rest =>
      if b == 0x7D then .ok ((), rest)
      else if !first && b != 0x2C then .error (.past (b :: rest) .expectedObjectCommaOrEnd)
      else do
        let (_, rest) ← skipKey (if first then b :: rest else rest)
        let (_, rest) ← value rest
        skipMembers value bound false rest

/-- A value nested no deeper than `bound` is long. -/
def skipNested : Bytes → Reader Unit
  | [], input => .error (.past input .endInValue)
  | _ :: bound, input =>
    match skipSpace input with
    | [] => .error (.past [] .endInValue)
    | b :: rest =>
      if b == 0x6E then readWord [0x75, 0x6C, 0x6C] rest
      else if b == 0x74 then readWord [0x72, 0x75, 0x65] rest
      else if b == 0x66 then readWord [0x61, 0x6C, 0x73, 0x65] rest
      else if b == 0x2D then skipNumber rest
      else if isDigit b then skipNumber (b :: rest)
      else if b == 0x22 then skipQuoted rest
      else if b == 0x5B then skipItems (skipNested bound) rest true rest
      else if b == 0x7B then skipMembers (skipNested bound) rest true rest
      else .error (.past (b :: rest) .expectedValue)

/-- No text nests deeper than it is long. -/
def skipValue : Reader Unit := fun input => skipNested input input

end ToolBridge.Json

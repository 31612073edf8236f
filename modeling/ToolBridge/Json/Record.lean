import ToolBridge.Json.Skip

/-! Records of named, typed fields from JSON text: an object with the fields as members, or a list of
their values in order. Members of other names are passed over; a name may not come twice. -/

namespace ToolBridge.Json

/-- The fault of a value, of whatever type, that stands where `expected` was. A scalar is read first
and may have a fault of its own. -/
def mismatch {α : Type} (expected : String) (input : Bytes) : Except Fault α :=
  let found (what : Found) (rest : Bytes) : Except Fault α :=
    .error (.before rest (.wrongType what expected))
  match input with
  | [] => .error (.past [] .expectedValue)
  | b :: rest =>
    if b == 0x6E then do let (_, rest) ← readWord [0x75, 0x6C, 0x6C] rest; found .null rest
    else if b == 0x74 then do let (_, rest) ← readWord [0x72, 0x75, 0x65] rest; found (.bool true) rest
    else if b == 0x66 then do
      let (_, rest) ← readWord [0x61, 0x6C, 0x73, 0x65] rest
      found (.bool false) rest
    else if b == 0x2D then do let (n, rest) ← readNumber false rest; found (.number n) rest
    else if isDigit b then do let (n, rest) ← readNumber true (b :: rest); found (.number n) rest
    else if b == 0x22 then do let (s, rest) ← readString rest; found (.str s) rest
    else if b == 0x5B then found .list (b :: rest)
    else if b == 0x7B then found .map (b :: rest)
    else .error (.past (b :: rest) .expectedValue)

/-- Passes blanks and demands that something follows. -/
def atValue {α : Type} (reader : UInt8 → Reader α) : Reader α := fun input =>
  match skipSpace input with
  | [] => .error (.past [] .endInValue)
  | b :: rest => reader b (b :: rest)

def readText (expected : String) : Reader String :=
  atValue fun b input =>
    if b == 0x22 then readString (input.drop 1) else mismatch expected input

def readBool : Reader Bool :=
  atValue fun b input =>
    if b == 0x74 then (readWord [0x72, 0x75, 0x65] (input.drop 1)).map fun (_, rest) => (true, rest)
    else if b == 0x66 then
      (readWord [0x61, 0x6C, 0x73, 0x65] (input.drop 1)).map fun (_, rest) => (false, rest)
    else mismatch "a boolean" input

/-- A whole number from `least` to below `bound`, of a type called `type`. -/
def readWhole (least bound : Int) (type : String) : Reader Int :=
  atValue fun b input => do
    let (n, rest) ←
      if b == 0x2D then readNumber false (input.drop 1)
      else if isDigit b then readNumber true input
      else mismatch type input
    match n with
    | .int value =>
      if least ≤ value && value < bound then .ok (value, rest)
      else .error (.before rest (.wrongValue (.number n) type))
    | .double _ => .error (.before rest (.wrongType (.number n) type))

def readOption {α : Type} (reader : Reader α) : Reader (Option α) := fun input =>
  match skipSpace input with
  | 0x6E :: rest => (readWord [0x75, 0x6C, 0x6C] rest).map fun (_, rest) => (none, rest)
  | input => (reader input).map fun (value, rest) => (some value, rest)

def readList {α : Type} (item : Reader α) : Reader (List α) :=
  atValue fun b input =>
    if b == 0x5B then do
      let push (done : List α) : Reader (List α) := fun input =>
        (item input).map fun (value, rest) => (value :: done, rest)
      let (done, rest) ← readItems push input true [] (input.drop 1)
      .ok (done.reverse, rest.drop 1)
    else mismatch "a sequence" input

/-- A field of a record under construction: what its value changes. -/
structure Field (σ : Type) where
  name : String
  read : Reader (σ → σ)
  required : Bool := true

structure Record (σ : Type) where
  title : String
  fields : List (Field σ)
  /-- What stands before any field is read; kept where an optional field is absent. -/
  start : σ

namespace Record

variable {σ : Type}

/-- Where a record that fails as a whole is said to fail: behind its closing brace if that is next. -/
def pastBrace (input : Bytes) : Bytes :=
  match skipSpace input with
  | 0x7D :: rest => rest
  | rest => rest

def pastBracket (input : Bytes) : Bytes :=
  match skipSpace input with
  | 0x5D :: rest => rest
  | 0x2C :: rest => skipSpace rest
  | rest => rest

def expectation (r : Record σ) : String := s!"struct {r.title}"

/-- The record so far, and the names of the fields read. -/
def readMember (r : Record σ) (state : σ × List String) (key : String) : Reader (σ × List String) :=
  fun input =>
    match r.fields.find? (·.name == key) with
    | none => do
      let (_, rest) ← readColon input
      let (_, rest) ← skipValue rest
      .ok (state, rest)
    | some field =>
      if state.2.contains key then .error (.before (pastBrace input) (.duplicateField key))
      else do
        let (_, rest) ← readColon input
        let (change, rest) ← field.read rest
        .ok ((change state.1, key :: state.2), rest)

def readObject (r : Record σ) : Reader σ := fun input => do
  let ((value, names), rest) ← readMembers r.readMember input true (r.start, []) input
  match r.fields.find? (fun field => field.required && !names.contains field.name) with
  | some field => .error (.before (pastBrace rest) (.missingField field.name))
  | none => .ok (value, rest.drop 1)

/-- Values in the order of the fields; fields left over at the end must be optional. -/
def readFields (r : Record σ) : List (Field σ) → Nat → σ → Reader σ
  | [], _, value, input => .ok (value, input)
  | field :: fields, index, value, input => do
    let (more, rest) ← hasItem (index == 0) input
    if more then
      let (change, rest) ← field.read rest
      readFields r fields (index + 1) (change value) rest
    else if field.required then
      .error (.before (pastBracket rest)
        (.wrongLength index s!"{r.expectation} with {r.fields.length} elements"))
    else readFields r fields (index + 1) value rest

def closeList : Reader Unit := fun input =>
  match skipSpace input with
  | [] => .error (.past [] .endInList)
  | 0x5D :: rest => .ok ((), rest)
  | 0x2C :: rest => match skipSpace rest with
    | 0x5D :: rest => .error (.past (0x5D :: rest) .trailingComma)
    | rest => .error (.past rest .trailingCharacters)
  | rest => .error (.past rest .trailingCharacters)

def read (r : Record σ) : Reader σ :=
  atValue fun b input =>
    if b == 0x7B then r.readObject (input.drop 1)
    else if b == 0x5B then do
      let (value, rest) ← r.readFields r.fields 0 r.start (input.drop 1)
      let (_, rest) ← closeList rest
      .ok (value, rest)
    else mismatch r.expectation input

end Record

end ToolBridge.Json

import ToolBridge.Json.Token

/-! JSON values from text, nested at most `maxDepth` deep. Members are kept as written. -/

namespace ToolBridge.Json

def maxDepth : Nat := 127

/-- Whether a list goes on with an item, which then starts the rest. -/
def hasItem (first : Bool) : Reader Bool := fun input =>
  match skipSpace input with
  | [] => .error (.past [] .endInList)
  | 0x5D :: rest => .ok (false, 0x5D :: rest)
  | b :: rest =>
    if first then .ok (true, b :: rest)
    else if b != 0x2C then .error (.past (b :: rest) .expectedListCommaOrEnd)
    else match skipSpace rest with
      | [] => .error (.past [] .endInValue)
      | 0x5D :: rest => .error (.past (0x5D :: rest) .trailingComma)
      | rest => .ok (true, rest)

/-- Whether an object goes on with a key, whose opening quote has then been read. -/
def hasKey (first : Bool) : Reader Bool := fun input =>
  match skipSpace input with
  | [] => .error (.past [] .endInObject)
  | 0x7D :: rest => .ok (false, 0x7D :: rest)
  | b :: rest =>
    if first then
      if b == 0x22 then .ok (true, rest) else .error (.past (b :: rest) .keyNotString)
    else if b != 0x2C then .error (.past (b :: rest) .expectedObjectCommaOrEnd)
    else match skipSpace rest with
      | [] => .error (.past [] .endInValue)
      | 0x22 :: rest => .ok (true, rest)
      | 0x7D :: rest => .error (.past (0x7D :: rest) .trailingComma)
      | rest => .error (.past rest .keyNotString)

def readColon : Reader Unit := fun input =>
  match skipSpace input with
  | [] => .error (.past [] .endInObject)
  | b :: rest => if b == 0x3A then .ok ((), rest) else .error (.past (b :: rest) .expectedColon)

/-- Reads on to the closing bracket, which is left. Every item takes an octet, so the octets there
are will do as the bound. -/
def readItems {σ : Type} (item : σ → Reader σ) : Bytes → Bool → σ → Reader σ
  | [], _, _, input => .error (.past input .endInList)
  | _ :: bound, first, state, input => do
    let (more, rest) ← hasItem first input
    if more then
      let (state, rest) ← item state rest
      readItems item bound false state rest
    else .ok (state, rest)

/-- Reads on to the closing brace, which is left. `member` reads from the colon of its key on. -/
def readMembers {σ : Type} (member : σ → String → Reader σ) : Bytes → Bool → σ → Reader σ
  | [], _, _, input => .error (.past input .endInObject)
  | _ :: bound, first, state, input => do
    let (more, rest) ← hasKey first input
    if more then
      let (key, rest) ← readString rest
      let (state, rest) ← member state key rest
      readMembers member bound false state rest
    else .ok (state, rest)

/-- A value with at most `depth` brackets around any part of it. -/
def readValue : Nat → Reader Json
  | depth, input =>
    match skipSpace input with
    | [] => .error (.past [] .endInValue)
    | b :: rest =>
      if b == 0x6E then (readWord [0x75, 0x6C, 0x6C] rest).map fun (_, rest) => (.null, rest)
      else if b == 0x74 then
        (readWord [0x72, 0x75, 0x65] rest).map fun (_, rest) => (.bool true, rest)
      else if b == 0x66 then
        (readWord [0x61, 0x6C, 0x73, 0x65] rest).map fun (_, rest) => (.bool false, rest)
      else if b == 0x2D then (readNumber false rest).map fun (n, rest) => (.num n, rest)
      else if isDigit b then (readNumber true (b :: rest)).map fun (n, rest) => (.num n, rest)
      else if b == 0x22 then (readString rest).map fun (s, rest) => (.str s, rest)
      else if b == 0x5B then
        match depth with
        | 0 => .error (.past (b :: rest) .tooDeep)
        | depth + 1 => do
          let item (done : List Json) : Reader (List Json) := fun input =>
            (readValue depth input).map fun (v, rest) => (v :: done, rest)
          let (items, rest) ← readItems item rest true [] rest
          .ok (.arr items.reverse, rest.drop 1)
      else if b == 0x7B then
        match depth with
        | 0 => .error (.past (b :: rest) .tooDeep)
        | depth + 1 => do
          let member (done : List (String × Json)) (key : String) : Reader (List (String × Json)) :=
            fun input => do
              let (_, rest) ← readColon input
              let (v, rest) ← readValue depth rest
              .ok ((key, v) :: done, rest)
          let (members, rest) ← readMembers member rest true [] rest
          .ok (.obj members.reverse, rest.drop 1)
      else .error (.past (b :: rest) .expectedValue)

/-- Nothing but blanks may follow. -/
def readEnd (input : Bytes) : Except Fault Unit :=
  match skipSpace input with
  | [] => .ok ()
  | rest => .error (.past rest .trailingCharacters)

def readAll {α : Type} (reader : Reader α) (input : Bytes) : Except Fault α := do
  let (value, rest) ← reader input
  readEnd rest
  .ok value

/-- A value that fills the whole text. -/
def ofBytes (input : Bytes) : Except Fault Json :=
  (readAll (readValue maxDepth) input).map settle

def parse (s : String) : Except Fault Json := ofBytes (Text.utf8 s)

end ToolBridge.Json

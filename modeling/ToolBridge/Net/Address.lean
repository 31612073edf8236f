import ToolBridge.Text.Numeral

/-! Internet addresses, versions 4 and 6, and their text. -/

namespace ToolBridge.Net

inductive Address where
  | v4 (a b c d : UInt8)
  /-- Eight groups of sixteen bits. -/
  | v6 (groups : Vector UInt16 8)
deriving DecidableEq, Repr

namespace Address

def loopback : Address := .v4 127 0 0 1

/-! ## Reading -/

/-- Digits at the front, their value and what follows. More than `most` digits are no number. -/
def readGroup (radix most : Nat) (input : List Char) : Option (List Char × Nat × List Char) :=
  let digits := input.takeWhile fun c => (Text.digitIn radix c).isSome
  if digits.isEmpty || digits.length > most then none
  else (Text.readDigits radix digits).map fun value =>
    (digits, value, input.drop digits.length)

/-- A number below 256 with no needless zero in front. -/
def readOctet (input : List Char) : Option (UInt8 × List Char) := do
  let (digits, value, rest) ← readGroup 10 3 input
  if value > 255 || (digits.length > 1 && digits.head? == some '0') then none
  else some (value.toUInt8, rest)

def readChar (c : Char) : List Char → Option (List Char)
  | d :: rest => if d == c then some rest else none
  | [] => none

def readV4 (input : List Char) : Option ((UInt8 × UInt8 × UInt8 × UInt8) × List Char) := do
  let (a, input) ← readOctet input
  let (b, input) ← readOctet (← readChar '.' input)
  let (c, input) ← readOctet (← readChar '.' input)
  let (d, input) ← readOctet (← readChar '.' input)
  some ((a, b, c, d), input)

def joinOctets (high low : UInt8) : UInt16 := high.toUInt16 * 256 + low.toUInt16

/-- Up to `most` groups with colons between them, and whether the last two came as a version 4
address. `first` tells whether no group stands before. -/
def readGroups (first : Bool) (input : List Char) : Nat → List UInt16 × Bool × List Char
  | 0 => ([], false, input)
  | most + 1 =>
    let start := if first then some input else readChar ':' input
    let embedded := if most = 0 then none else start.bind readV4
    match embedded with
    | some ((a, b, c, d), rest) => ([joinOctets a b, joinOctets c d], true, rest)
    | none => match start.bind (readGroup 16 4) with
      | none => ([], false, input)
      | some (_, value, rest) =>
        let (later, ended, rest) := readGroups false rest most
        (value.toUInt16 :: later, ended, rest)

/-- Eight groups, or fewer around one double colon that stands for zeros. -/
def readV6 (input : List Char) : Option (Vector UInt16 8 × List Char) :=
  let (front, ended, rest) := readGroups true input 8
  if h : front.length = 8 then some (⟨front.toArray, by simpa using h⟩, rest)
  else if ended then none
  else do
    let rest ← readChar ':' (← readChar ':' rest)
    let (back, _, rest) := readGroups true rest (7 - front.length)
    let groups := front ++ List.replicate (8 - front.length - back.length) 0 ++ back
    if h : groups.length = 8 then some (⟨groups.toArray, by simpa using h⟩, rest) else none

def parse? (s : String) : Option Address :=
  match readV4 s.toList with
  | some ((a, b, c, d), []) => some (.v4 a b c d)
  | _ => match readV6 s.toList with
    | some (groups, []) => some (.v6 groups)
    | _ => none

/-! ## Writing -/

/-- Start and length of the first longest run of zeros. -/
def longestZeros (groups : List UInt16) : Nat × Nat :=
  (go 0 0 (0, 0) groups)
where
  /-- `run` zeros stand right before position `index`. -/
  go (index run : Nat) (best : Nat × Nat) : List UInt16 → Nat × Nat
    | [] => best
    | g :: rest =>
      if g == 0 then
        go (index + 1) (run + 1) (if run + 1 > best.2 then (index - run, run + 1) else best) rest
      else go (index + 1) 0 best rest

def octetsText (a b c d : UInt8) : String :=
  s!"{a.toNat}.{b.toNat}.{c.toNat}.{d.toNat}"

def groupsText (groups : List UInt16) : String :=
  ":".intercalate (groups.map fun g => String.ofList (Nat.toDigits 16 g.toNat))

/-- An address that maps a version 4 address shows it; else the longest run of two zeros or more
is a double colon. -/
def text : Address → String
  | .v4 a b c d => octetsText a b c d
  | .v6 groups =>
    match groups.toList with
    | [0, 0, 0, 0, 0, 0xFFFF, high, low] =>
      "::ffff:" ++ octetsText (high / 256).toUInt8 high.toUInt8 (low / 256).toUInt8 low.toUInt8
    | groups =>
      let (start, length) := longestZeros groups
      if length > 1 then
        groupsText (groups.take start) ++ "::" ++ groupsText (groups.drop (start + length))
      else groupsText groups

end Address

/-- An address and a port. -/
structure Endpoint where
  address : Address
  port : Nat
deriving DecidableEq, Repr

namespace Endpoint

def text (e : Endpoint) : String :=
  match e.address with
  | .v4 .. => s!"{e.address.text}:{e.port}"
  | .v6 _ => s!"[{e.address.text}]:{e.port}"

def readPort (input : List Char) : Option Nat := do
  let digits ← Address.readChar ':' input
  (Text.readDigits 10 digits).filter (· < UInt16.size)

def parse? (s : String) : Option Endpoint :=
  match s.toList with
  | '[' :: rest => do
    let (groups, rest) ← Address.readV6 rest
    let port ← readPort (← Address.readChar ']' rest)
    some ⟨.v6 groups, port⟩
  | input => do
    let ((a, b, c, d), rest) ← Address.readV4 input
    let port ← readPort rest
    some ⟨.v4 a b c d, port⟩

end Endpoint

end ToolBridge.Net

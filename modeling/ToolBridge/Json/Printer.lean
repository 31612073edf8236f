import ToolBridge.Json.Basic
import ToolBridge.Decimal.Shortest

/-! JSON text, compact and indented. Members are written in the order they stand in. -/

namespace ToolBridge.Json

def hexChar (n : Nat) : Char := if n < 10 then Char.ofNat (0x30 + n) else Char.ofNat (0x57 + n)

/-- Only the quote, the backslash and the control characters below the blank are escaped. -/
def escapeChar (c : Char) : List Char :=
  if c == '"' then ['\\', '"']
  else if c == '\\' then ['\\', '\\']
  else if c == '\n' then ['\\', 'n']
  else if c == '\r' then ['\\', 'r']
  else if c == '\t' then ['\\', 't']
  else if c.toNat == 8 then ['\\', 'b']
  else if c.toNat == 12 then ['\\', 'f']
  else if c.toNat < 32 then ['\\', 'u', '0', '0', hexChar (c.toNat / 16), hexChar (c.toNat % 16)]
  else [c]

def quote (s : String) : List Char := '"' :: s.toList.flatMap escapeChar ++ ['"']

/-- Plain notation where the first digit stands for a power of ten from -5 to 15, with at least one
digit on either side of the point; otherwise one digit, the rest, and a signed exponent. -/
def scientificChars (s : Decimal.Scientific) : List Char :=
  let digits := s.digits.map fun d => Char.ofNat (0x30 + d)
  let e := s.exponent
  if 0 ≤ e ∧ e < 16 then
    let whole := e.toNat + 1
    if digits.length ≤ whole then digits ++ List.replicate (whole - digits.length) '0' ++ ['.', '0']
    else digits.take whole ++ '.' :: digits.drop whole
  else if -5 ≤ e ∧ e < 0 then
    '0' :: '.' :: List.replicate (-e - 1).toNat '0' ++ digits
  else
    let exponent := (if e < 0 then '-' else '+') :: (toString e.natAbs).toList
    match digits with
    | [] => []
    | [d] => d :: 'e' :: exponent
    | d :: rest => d :: '.' :: rest ++ 'e' :: exponent

def Number.chars : Number → List Char
  | .int value => (toString value).toList
  | .double value =>
    (if value.negative then ['-'] else []) ++ scientificChars (Decimal.shortest value)

mutual

def chars : Json → List Char
  | .null => ['n', 'u', 'l', 'l']
  | .bool true => ['t', 'r', 'u', 'e']
  | .bool false => ['f', 'a', 'l', 's', 'e']
  | .num n => n.chars
  | .str s => quote s
  | .arr items => '[' :: itemChars true items ++ [']']
  | .obj members => '\x7b' :: memberChars true members ++ ['\x7d']

/-- `first` tells whether no item stands before. -/
def itemChars (first : Bool) : List Json → List Char
  | [] => []
  | item :: rest => (if first then [] else [',']) ++ chars item ++ itemChars false rest

def memberChars (first : Bool) : List (String × Json) → List Char
  | [] => []
  | (k, v) :: rest =>
    (if first then [] else [',']) ++ quote k ++ ':' :: chars v ++ memberChars false rest

end

def text (j : Json) : String := .ofList j.chars

def indentation (depth : Nat) : List Char := '\n' :: List.replicate (2 * depth) ' '

mutual

/-- One item or member a line, two blanks deeper than the bracket; empty brackets stay closed. -/
def prettyChars (depth : Nat) : Json → List Char
  | .arr [] => ['[', ']']
  | .arr items => '[' :: prettyItems (depth + 1) true items ++ indentation depth ++ [']']
  | .obj [] => ['\x7b', '\x7d']
  | .obj members =>
    '\x7b' :: prettyMembers (depth + 1) true members ++ indentation depth ++ ['\x7d']
  | other => chars other

def prettyItems (depth : Nat) (first : Bool) : List Json → List Char
  | [] => []
  | item :: rest =>
    (if first then [] else [',']) ++ indentation depth ++ prettyChars depth item ++
      prettyItems depth false rest

def prettyMembers (depth : Nat) (first : Bool) : List (String × Json) → List Char
  | [] => []
  | (k, v) :: rest =>
    (if first then [] else [',']) ++ indentation depth ++ quote k ++ ':' :: ' ' ::
      prettyChars depth v ++ prettyMembers depth false rest

end

def prettyText (j : Json) : String := .ofList (j.prettyChars 0)

end ToolBridge.Json

import ToolBridge.Decimal.Binary64

/-! JSON values. An object keeps its members as written, repeated names included; `settle` gives the
value that a map of the members has. -/

namespace ToolBridge

inductive Json.Number where
  | int (value : Int)
  | double (value : Binary64)
deriving DecidableEq, Repr

inductive Json where
  | null
  | bool (value : Bool)
  | num (value : Json.Number)
  | str (value : String)
  | arr (items : List Json)
  | obj (members : List (String × Json))
deriving Repr

namespace Json

def ofInt (n : Int) : Json := .num (.int n)

def ofNat (n : Nat) : Json := .num (.int n)

/-- The members with `key` set to `value`, in the order of the keys. -/
def insertMember (key : String) (value : Json) : List (String × Json) → List (String × Json)
  | [] => [(key, value)]
  | (k, v) :: rest =>
    if key < k then (key, value) :: (k, v) :: rest
    else if key == k then (key, value) :: rest
    else (k, v) :: insertMember key value rest

/-- An object of the given members, keys in order and the last of a repeated key kept. -/
def ofMembers (members : List (String × Json)) : Json :=
  .obj (members.foldl (fun done (k, v) => insertMember k v done) [])

mutual

/-- Members in the order of their keys, the last of a repeated key kept, at every depth. -/
def settle : Json → Json
  | .arr items => .arr (settleAll items)
  | .obj members => .obj ((settleMembers members).foldl (fun done (k, v) => insertMember k v done) [])
  | other => other

def settleAll : List Json → List Json
  | [] => []
  | item :: rest => settle item :: settleAll rest

def settleMembers : List (String × Json) → List (String × Json)
  | [] => []
  | (k, v) :: rest => (k, settle v) :: settleMembers rest

end

def asString? : Json → Option String
  | .str s => some s
  | _ => none

def members? : Json → Option (List (String × Json))
  | .obj members => some members
  | _ => none

def isObject (j : Json) : Bool := j.members?.isSome

/-- The first member of that name, of an object. -/
def member? (j : Json) (key : String) : Option Json :=
  match j with
  | .obj members => members.lookup key
  | _ => none

end Json

end ToolBridge

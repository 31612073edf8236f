/-! How running a tool can go wrong: the tool says so, or it crashes. -/

namespace ToolBridge.Tool

inductive Failure where
  | notFound (name : String)
  | invalidParams (details : String)
  | failed (details : String)
deriving DecidableEq, Repr

def Failure.message : Failure → String
  | .notFound name => s!"tool not found: {name}"
  | .invalidParams details => s!"invalid parameters: {details}"
  | .failed details => details

/-- A crash, with its message if it left one. -/
structure Crash where
  said : Option String
deriving DecidableEq, Repr

def Crash.message (c : Crash) : String := c.said.getD "panic"

inductive Run where
  | text (output : String)
  | failure (failure : Failure)
  | crash (crash : Crash)
deriving DecidableEq, Repr

end ToolBridge.Tool

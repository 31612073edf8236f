import ToolBridge.Net.Address

/-! What observers of a server are told. -/

namespace ToolBridge.Server

inductive Event where
  | started (endpoint : Net.Endpoint)
  | stopped
  | sessionOpened (session : String)
  | sessionClosed (session : String)
  | streamOpened (session : String) (connection : Nat)
  | streamClosed (session : String) (connection : Nat)
deriving DecidableEq, Repr

end ToolBridge.Server

import ToolBridge.Http.Fault
import ToolBridge.Net.Address
import ToolBridge.Tool.Failure

/-! What an operation of the bridge as a whole can answer instead of succeeding. -/

namespace ToolBridge

inductive ConfigFlaw where
  | pathNotRooted (path : String)
  | noRequestsPerTick
  /-- An environment variable whose value cannot be read. -/
  | variable (name value : String)
  | stated (reason : String)
deriving DecidableEq, Repr

def ConfigFlaw.message : ConfigFlaw → String
  | .pathNotRooted path => s!"path must start with '/': {path}"
  | .noRequestsPerTick => "maxRequestsPerTick must be at least 1"
  | .variable name value => s!"{name}: {value}"
  | .stated reason => reason

inductive Error where
  | bind (endpoint : Net.Endpoint) (reason : String)
  | transport (reason : String)
  | protocol (fault : Http.Fault)
  | tool (failure : Tool.Failure)
  | config (flaw : ConfigFlaw)
  | alreadyRunning
  | executorAttached
deriving DecidableEq, Repr

def Error.message : Error → String
  | .bind endpoint reason => s!"failed to bind listener on {endpoint.text}: {reason}"
  | .transport reason => s!"transport error: {reason}"
  | .protocol fault => s!"protocol error: {fault.message}"
  | .tool failure => s!"tool execution failed: {failure.message}"
  | .config flaw => s!"invalid configuration: {flaw.message}"
  | .alreadyRunning => "server is already running"
  | .executorAttached => "an executor is already attached to this server"

end ToolBridge

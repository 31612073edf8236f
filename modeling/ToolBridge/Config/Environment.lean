import ToolBridge.Config.Basic
import ToolBridge.Text.Ascii
import ToolBridge.Text.Split

/-! Environment variables that override a configuration. They are applied in a fixed order up to the
first whose value cannot be read. -/

namespace ToolBridge

abbrev Environment := List (String × String)

namespace Config

def readSwitch (value : String) : Option Bool :=
  match Text.lower (Text.trim value) with
  | "1" | "true" | "yes" | "on" => some true
  | "0" | "false" | "no" | "off" => some false
  | _ => none

/-- Origins between commas, blanks around them and empty ones left out. -/
def readOrigins (value : String) : List String :=
  ((Text.split ',' value).map Text.trim).filter (· ≠ "")

/-- A variable, and what its value does to a configuration if it can be read. -/
structure Variable where
  name : String
  apply : String → Config → Option Config

def Variable.all : List Variable := [
  ⟨"MCP_BRIDGE_ENABLED", fun value c => (readSwitch value).map fun enabled => { c with enabled }⟩,
  ⟨"MCP_BRIDGE_PORT", fun value c => (Text.readNat 10 UInt16.size value).map fun port => { c with port }⟩,
  ⟨"MCP_BRIDGE_BIND", fun value c => (Net.Address.parse? value).map fun address => { c with address }⟩,
  ⟨"MCP_BRIDGE_API_KEY", fun value c => some { c with apiKey := some value }⟩,
  ⟨"MCP_BRIDGE_ALLOWED_ORIGINS", fun value c => some { c with allowedOrigins := readOrigins value }⟩]

def applyVariables (env : Environment) : List Variable → Config → Config × Option ConfigFlaw
  | [], c => (c, none)
  | v :: rest, c => match env.lookup v.name with
    | none => applyVariables env rest c
    | some value => match v.apply value c with
      | none => (c, some (.variable v.name value))
      | some c => applyVariables env rest c

/-- The configuration as far as it came, and the flaw that stopped it. -/
def applyEnvironment (env : Environment) (c : Config) : Config × Option ConfigFlaw :=
  applyVariables env Variable.all c

end Config

end ToolBridge

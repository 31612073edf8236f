import ToolBridge.Proofs.ToolRuns
import ToolBridge.Proofs.ToolTables
import ToolBridge.Proofs.WrittenJson

/-! What is published of tools, and what calls of them are held to. -/

namespace ToolBridge

namespace Json

/-! ## Members that are set -/

end Json

namespace Tool.Descriptor
variable (d : Descriptor)

end Tool.Descriptor

namespace Dispatch
open Tool (Change Descriptor First Table)
open Tool.Change (latest? leftOn)

section
variable {registry : Tool.Registry} {listed : List Descriptor} (lists : registry.list = .ok listed) {name : String}
  {d : Descriptor} (found : listed.find? (·.name == name) = some d) (id : Json) {params : Json}
  (named : params.member? "name" = some (.str name))
include lists found named

end

section
variable (changes : List Change) (now : Calendar.Instant) (id : Json)

end

end Dispatch

end ToolBridge

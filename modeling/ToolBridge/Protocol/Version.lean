import ToolBridge.Text.Blank

/-! Versions of the tool protocol, named by their dates. -/

namespace ToolBridge.Protocol

inductive Version where
  | v2024_11_05
  | v2025_03_26
  | v2025_06_18
deriving DecidableEq, Repr

namespace Version

def all : List Version := [.v2024_11_05, .v2025_03_26, .v2025_06_18]

def latest : Version := .v2025_06_18

def date : Version → String
  | .v2024_11_05 => "2024-11-05"
  | .v2025_03_26 => "2025-03-26"
  | .v2025_06_18 => "2025-06-18"

def ofDate? (s : String) : Option Version := all.find? (·.date == Text.trim s)

/-- The client's version where it is known, else the latest. -/
def negotiate (requested : Option String) : Version := (requested.bind ofDate?).getD latest

theorem ofDate?_date (v : Version) : ofDate? v.date = some v := by cases v <;> decide +kernel

end Version

end ToolBridge.Protocol

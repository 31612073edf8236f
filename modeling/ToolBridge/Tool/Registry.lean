import ToolBridge.Calendar.Instant
import ToolBridge.Tool.Descriptor
import ToolBridge.Tool.Failure

/-! Tools by name: any host's list of them with a way to run one, and a table that is such a list. -/

namespace ToolBridge.Tool

abbrev Arguments := List (String × String)

/-- What the bridge sees of a host's tools at one time. -/
structure Registry where
  list : Except Crash (List Descriptor)
  run : String → Arguments → Run

/-- A tool of a table. Its name is known even where its own description of itself crashes. -/
structure Entry where
  name : String
  describe : Except Crash Descriptor
  run : Calendar.Instant → Arguments → Run

/-- Tools in the order of their names, and the names that are switched off. -/
structure Table where
  entries : List Entry := []
  disabled : List String := []

namespace Table

def insert (e : Entry) : List Entry → List Entry
  | [] => [e]
  | f :: rest =>
    if e.name < f.name then e :: f :: rest
    else if e.name == f.name then e :: rest
    else f :: insert e rest

/-- A tool takes the place of one of the same name. -/
def register (e : Entry) (t : Table) : Table := { t with entries := insert e t.entries }

def setEnabled (name : String) (enabled : Bool) (t : Table) : Table :=
  { t with disabled :=
      if enabled then t.disabled.filter (· != name)
      else if t.disabled.contains name then t.disabled else name :: t.disabled }

/-- Tools switched off count as well. -/
def size (t : Table) : Nat := t.entries.length

def enabled (t : Table) : List Entry := t.entries.filter fun e => !t.disabled.contains e.name

def list (t : Table) : Except Crash (List Descriptor) := t.enabled.mapM (·.describe)

def run (now : Calendar.Instant) (t : Table) (name : String) (arguments : Arguments) : Run :=
  match t.enabled.find? (·.name == name) with
  | some e => e.run now arguments
  | none => .failure (.notFound name)

def registry (now : Calendar.Instant) (t : Table) : Registry := ⟨t.list, t.run now⟩

end Table

end ToolBridge.Tool

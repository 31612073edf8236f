import ToolBridge.Entries

/-! Header fields of a request: one value a name. Lines of one name are merged in the order they
come, with a comma and a blank between their values. -/

namespace ToolBridge.Http

abbrev Fields := Entries String String

def Fields.add (name value : String) (fields : Fields) : Fields :=
  fields.put name (match fields.get? name with
    | some earlier => earlier ++ ", " ++ value
    | none => value)

end ToolBridge.Http

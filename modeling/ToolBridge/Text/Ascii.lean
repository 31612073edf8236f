/-! Letter case of ASCII; every other character is left alone. -/

namespace ToolBridge.Text

def lower (s : String) : String := .ofList (s.toList.map Char.toLower)

/-- Equality up to the case of ASCII letters. -/
def sameLetters (s t : String) : Bool := lower s == lower t

end ToolBridge.Text

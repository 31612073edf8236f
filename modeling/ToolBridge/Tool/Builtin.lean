import ToolBridge.Json.Printer
import ToolBridge.Text.Numeral
import ToolBridge.Tool.Registry

/-! The tools that every bridge can offer: one that repeats what it is told, one that tells the time. -/

namespace ToolBridge.Tool

def echoDescriptor : Descriptor where
  name := "echo"
  description := "Echo a message back to the caller"
  category := "diagnostics"
  parameters := [
    ⟨"message", "string", "Text to return", true⟩,
    ⟨"repeat", "number", "Number of repetitions (default 1)", false⟩]

def maxRepeat : Nat := 64

def runEcho (arguments : Arguments) : Run :=
  match arguments.lookup "message" with
  | none => .failure (.invalidParams "missing 'message'")
  | some message =>
    let repeats (n : Nat) : Run :=
      if n > maxRepeat then .failure (.failed s!"repeat must be at most {maxRepeat}")
      else .text (String.join (List.replicate n message))
    match arguments.lookup "repeat" with
    | none => repeats 1
    | some value => match Text.readNat 10 UInt64.size value with
      | some n => repeats n
      | none => .failure (.invalidParams s!"repeat: {value}")

def echo : Entry := ⟨echoDescriptor.name, .ok echoDescriptor, fun _ => runEcho⟩

def clockDescriptor : Descriptor where
  name := "get_current_time"
  description := "Get the current datetime and timestamp"
  category := "diagnostics"
  parameters := []

def clock : Entry :=
  ⟨clockDescriptor.name, .ok clockDescriptor, fun now _ => .text now.describe.prettyText⟩

def Table.withBuiltin (t : Table) : Table := (t.register echo).register clock

end ToolBridge.Tool

import ToolBridge.Bytes
import ToolBridge.Json.Printer
import ToolBridge.Text.Quoted

/-! What can be wrong with JSON text: the cause, its wording, and the place it is found at. -/

namespace ToolBridge.Json

/-- What stands where something else was expected. -/
inductive Found where
  | null
  | bool (value : Bool)
  | number (value : Number)
  | str (value : String)
  | list
  | map
deriving DecidableEq, Repr

inductive Cause where
  | endInList
  | endInObject
  | endInString
  | endInValue
  | expectedColon
  | expectedListCommaOrEnd
  | expectedObjectCommaOrEnd
  | expectedWord
  | expectedValue
  | invalidEscape
  | invalidNumber
  | numberOutOfRange
  | invalidCharacter
  | controlCharacter
  | keyNotString
  | loneSurrogate
  | unfinishedPair
  | trailingComma
  | trailingCharacters
  | tooDeep
  | wrongType (found : Found) (expected : String)
  | wrongValue (found : Found) (expected : String)
  | missingField (name : String)
  | duplicateField (name : String)
  | wrongLength (length : Nat) (expected : String)
  | notAnAddress
  | noVariant (kind : String)
deriving DecidableEq, Repr

def Found.describe : Found → String
  | .null => "null"
  | .bool value => s!"boolean `{value}`"
  | .number (.int value) => s!"integer `{value}`"
  | .number (.double value) => "floating point `" ++ (Json.num (.double value)).text ++ "`"
  | .str value => "string " ++ Text.quoted value
  | .list => "sequence"
  | .map => "map"

def Cause.message : Cause → String
  | .endInList => "EOF while parsing a list"
  | .endInObject => "EOF while parsing an object"
  | .endInString => "EOF while parsing a string"
  | .endInValue => "EOF while parsing a value"
  | .expectedColon => "expected `:`"
  | .expectedListCommaOrEnd => "expected `,` or `]`"
  | .expectedObjectCommaOrEnd => "expected `,` or `\x7d`"
  | .expectedWord => "expected ident"
  | .expectedValue => "expected value"
  | .invalidEscape => "invalid escape"
  | .invalidNumber => "invalid number"
  | .numberOutOfRange => "number out of range"
  | .invalidCharacter => "invalid unicode code point"
  | .controlCharacter => "control character (\\u0000-\\u001F) found while parsing a string"
  | .keyNotString => "key must be a string"
  | .loneSurrogate => "lone leading surrogate in hex escape"
  | .unfinishedPair => "unexpected end of hex escape"
  | .trailingComma => "trailing comma"
  | .trailingCharacters => "trailing characters"
  | .tooDeep => "recursion limit exceeded"
  | .wrongType found expected => s!"invalid type: {found.describe}, expected {expected}"
  | .wrongValue found expected => s!"invalid value: {found.describe}, expected {expected}"
  | .missingField name => s!"missing field `{name}`"
  | .duplicateField name => s!"duplicate field `{name}`"
  | .wrongLength length expected => s!"invalid length {length}, expected {expected}"
  | .notAnAddress => "invalid IP address syntax"
  | .noVariant kind => s!"data did not match any variant of untagged enum {kind}"

/-- A cause, and how many octets of the text were left after the place of the fault. -/
structure Fault where
  cause : Cause
  left : Nat
deriving DecidableEq, Repr

namespace Fault

/-- A fault right before `rest`. -/
def before (rest : Bytes) (cause : Cause) : Fault := ⟨cause, rest.length⟩

/-- A fault that counts the first octet of `rest`, if there is one, among what was read. -/
def past (rest : Bytes) (cause : Cause) : Fault := ⟨cause, rest.length - 1⟩

/-- Line, from 1, and octets read of that line; a line feed read starts an empty line. -/
def place (whole : Bytes) (fault : Fault) : Nat × Nat :=
  let done := whole.take (whole.length - fault.left)
  (done.count 0x0A + 1, (done.reverse.takeWhile (· != 0x0A)).length)

def message (whole : Bytes) (fault : Fault) : String :=
  let (line, column) := fault.place whole
  s!"{fault.cause.message} at line {line} column {column}"

end Fault

end ToolBridge.Json

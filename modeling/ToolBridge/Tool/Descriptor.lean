import ToolBridge.Json.Record

/-! What a tool says of itself: name, purpose, and the parameters it takes. -/

namespace ToolBridge.Tool

structure Parameter where
  name : String
  type : String
  description : String
  required : Bool
deriving DecidableEq, Repr, Inhabited

structure Descriptor where
  name : String
  description : String
  category : String
  parameters : List Parameter
deriving DecidableEq, Repr, Inhabited

namespace Parameter

def toJson (p : Parameter) : Json :=
  .obj [("name", .str p.name), ("type", .str p.type), ("description", .str p.description),
    ("required", .bool p.required)]

def record : Json.Record Parameter where
  title := "ToolParameter"
  start := ⟨"", "", "", false⟩
  fields := [
    { name := "name"
      read := fun input => (Json.readText "a string" input).map fun (s, rest) =>
        (fun p => { p with name := s }, rest) },
    { name := "type"
      read := fun input => (Json.readText "a string" input).map fun (s, rest) =>
        (fun p => { p with type := s }, rest) },
    { name := "description"
      read := fun input => (Json.readText "a string" input).map fun (s, rest) =>
        (fun p => { p with description := s }, rest) },
    { name := "required"
      read := fun input => (Json.readBool input).map fun (b, rest) =>
        (fun p => { p with required := b }, rest) }]

end Parameter

namespace Descriptor

/-- A parameter of a repeated name is described as the last says. -/
def properties (d : Descriptor) : Json :=
  .ofMembers (d.parameters.map fun p =>
    (p.name, .obj [("description", .str p.description), ("type", .str p.type)]))

def required (d : Descriptor) : List String := (d.parameters.filter (·.required)).map (·.name)

/-- The shape its arguments must have, as a schema. -/
def inputSchema (d : Descriptor) : Json :=
  .obj [("properties", d.properties), ("required", .arr (d.required.map .str)), ("type", .str "object")]

def toJson (d : Descriptor) : Json :=
  .obj [("name", .str d.name), ("description", .str d.description), ("category", .str d.category),
    ("parameters", .arr (d.parameters.map Parameter.toJson))]

/-- As listed to clients. -/
def listing (d : Descriptor) : Json :=
  .obj [("name", .str d.name), ("description", .str d.description), ("category", .str d.category),
    ("inputSchema", d.inputSchema)]

def record : Json.Record Descriptor where
  title := "ToolDescriptor"
  start := ⟨"", "", "", []⟩
  fields := [
    { name := "name"
      read := fun input => (Json.readText "a string" input).map fun (s, rest) =>
        (fun d => { d with name := s }, rest) },
    { name := "description"
      read := fun input => (Json.readText "a string" input).map fun (s, rest) =>
        (fun d => { d with description := s }, rest) },
    { name := "category"
      read := fun input => (Json.readText "a string" input).map fun (s, rest) =>
        (fun d => { d with category := s }, rest) },
    { name := "parameters"
      read := fun input => (Json.readList Parameter.record.read input).map fun (ps, rest) =>
        (fun d => { d with parameters := ps }, rest) }]

def parse (s : String) : Except Json.Fault Descriptor :=
  Json.readAll record.read (Text.utf8 s)

end Descriptor

end ToolBridge.Tool

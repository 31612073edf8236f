import ToolBridge.Config.Environment
import ToolBridge.Config.File

/-! The command line, and the configuration that it gives together with a file and the environment.
Later layers override earlier ones: defaults, file, environment, command line. -/

namespace ToolBridge.CommandLine

structure Options where
  config : Option String := none
  port : Option Nat := none
  address : Option Net.Address := none
  path : Option String := none
  apiKey : Option String := none
  allowedOrigins : List String := []
deriving DecidableEq, Repr

/-- The options that take a value. -/
inductive Key where
  | config
  | port
  | bind
  | path
  | apiKey
  | allowOrigin
deriving DecidableEq, Repr

def Key.ofLong? : String → Option Key
  | "config" => some .config
  | "port" => some .port
  | "bind" => some .bind
  | "path" => some .path
  | "api-key" => some .apiKey
  | "allow-origin" => some .allowOrigin
  | _ => none

def Key.ofShort? : Char → Option Key
  | 'c' => some .config
  | 'p' => some .port
  | _ => none

inductive Request where
  | run (options : Options)
  | help
  | version
  /-- The command line is wrong. -/
  | usage
deriving DecidableEq, Repr

def readPort (value : String) : Option Nat :=
  match Text.readInt 64 value with
  | some n => if 0 ≤ n ∧ n < UInt16.size then some n.toNat else none
  | none => none

/-- Files have names. -/
def readFileName (value : String) : Option String := if value = "" then none else some value

/-- None where the value cannot be read, or the option is there already and may not come twice. -/
def set (key : Key) (value : String) (o : Options) : Option Options :=
  match key with
  | .config => if o.config.isSome then none else
      (readFileName value).map fun config => { o with config := some config }
  | .port => if o.port.isSome then none else
      (readPort value).map fun port => { o with port := some port }
  | .bind => if o.address.isSome then none else
      (Net.Address.parse? value).map fun address => { o with address := some address }
  | .path => if o.path.isSome then none else some { o with path := some value }
  | .apiKey => if o.apiKey.isSome then none else some { o with apiKey := some value }
  | .allowOrigin => some { o with allowedOrigins := o.allowedOrigins ++ [value] }

/-- One argument on its own. -/
inductive Word where
  | long (name : String) (value : Option String)
  /-- A dash, a letter, and what follows it. -/
  | short (letter : Char) (rest : List Char)
  | endOfOptions
  | plain

def Word.of (s : String) : Word :=
  match s.toList with
  | ['-', '-'] => .endOfOptions
  | '-' :: '-' :: rest => match Text.cutChars '=' rest with
    | some (name, value) => .long (.ofList name) (some (.ofList value))
    | none => .long (.ofList rest) none
  | '-' :: letter :: rest => .short letter rest
  | _ => .plain

/-- An argument that looks like an option is not the value of the one before it. -/
def isValue (s : String) : Bool :=
  match Word.of s with
  | .plain => true
  | _ => false

/-- The value written against a letter, with or without an equals sign. -/
def attached (rest : List Char) : Option String :=
  match rest with
  | [] => none
  | '=' :: value => some (.ofList value)
  | value => some (.ofList value)

/-- Reads arguments in order; the first that is wrong or asks for words decides. -/
def readArguments (o : Options) : List String → Request
  | [] => .run o
  | arg :: rest =>
    let withValue (key : Option Key) (value : Option String) : Request :=
      match key, value with
      | none, _ => .usage
      | some key, some value => match set key value o with
        | some o => readArguments o rest
        | none => .usage
      | some key, none => match rest with
        | [] => .usage
        | value :: rest =>
          if isValue value then
            match set key value o with
            | some o => readArguments o rest
            | none => .usage
          else .usage
    match Word.of arg with
    | .long "help" none => .help
    | .long "version" none => .version
    | .long name value => withValue (Key.ofLong? name) value
    | .short 'h' _ => .help
    | .short 'V' _ => .version
    | .short letter value => withValue (Key.ofShort? letter) (attached value)
    | .endOfOptions => if rest.isEmpty then .run o else .usage
    | .plain => .usage

def configVariable : String := "MCP_BRIDGE_CONFIG"

/-- A configuration file that the command line does not name may be named by the environment. -/
def parse (env : Environment) (arguments : List String) : Request :=
  match readArguments {} arguments with
  | .run o => match o.config, env.lookup configVariable with
    | none, some value => match set .config value o with
      | some o => .run o
      | none => .usage
    | _, _ => .run o
  | other => other

/-- An option that is not there changes nothing. -/
def overlay (o : Options) (c : Config) : Config :=
  { c with
    port := o.port.getD c.port
    address := o.address.getD c.address
    path := o.path.getD c.path
    apiKey := o.apiKey.or c.apiKey
    allowedOrigins := if o.allowedOrigins.isEmpty then c.allowedOrigins else o.allowedOrigins }

/-- `file` is what stands where the options name a configuration file, if they name one. -/
def config (file : Option Config.File) (env : Environment) (o : Options) : Except Error Config := do
  let base ← match file with
    | some file => Config.load file
    | none => .ok {}
  match base.applyEnvironment env with
  | (_, some flaw) => .error (.config flaw)
  | (c, none) =>
    (overlay o c).check.mapError .config
    return overlay o c

end ToolBridge.CommandLine

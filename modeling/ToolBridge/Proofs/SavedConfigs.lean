import ToolBridge.Config.File
import ToolBridge.Proofs.IndentedJson
import ToolBridge.Proofs.WrittenAddresses

/-! Configurations saved and loaded. Each field is read back from what is written for it, so the file gives the
configuration again, if it is valid. -/

namespace ToolBridge.Config

open Json (Gives Told Reader Blanks Ends)

/-- The numbers fit into the words that they are kept in. -/
structure Storable (c : Config) : Prop where
  port : c.port < UInt16.size
  maxRequestsPerTick : c.maxRequestsPerTick < UInt64.size
  maxBodyBytes : c.maxBodyBytes < UInt64.size
  requestTimeoutSecs : c.requestTimeoutSecs < UInt64.size
  sessionIdleTimeoutSecs : c.sessionIdleTimeoutSecs < UInt64.size
  keepAliveSecs : c.keepAliveSecs < UInt64.size

/-! ## Values -/

theorem gives_nat {n bound : Nat} (below : n < bound) (word : bound ≤ UInt64.size) (type : String) (depth : Nat) :
    Gives (readNat bound type) depth (.ofNat n) n := by
  intro blanks rest all ends
  have within : (0 : Int) ≤ n ∧ (n : Int) < bound := by omega
  rw [readNat, Json.gives_whole (Nat.lt_of_lt_of_le below word) within type depth blanks rest all ends]
  rfl

theorem gives_address (a : Net.Address) (depth : Nat) : Gives readAddress depth (.str a.text) a := by
  intro blanks rest all ends
  rw [readAddress, Json.gives_text "IP address" depth a.text blanks rest all ends]
  simp only [bind, Except.bind, Net.Address.parse?_text]

theorem gives_origins (origins : List String) (expected : String) (depth : Nat) :
    Gives (Json.readList (Json.readText expected)) depth (.arr (origins.map .str)) origins :=
  have opens (s : String) : (Json.indented depth).Opens (.str s) :=
    ⟨0x22, _, (List.append_nil _).symm.trans (Json.prettyOctets_str (depth + 1) s []), by decide, by decide⟩
  have told (s : String) : (Json.str s).asString?.getD "" = s := rfl
  Json.gives_list (fun j => j.asString?.getD "") told (fun s _ => opens s)
    fun s _ => Json.gives_text expected (depth + 1) s

/-! ## Files -/

/-- A field is told by what is written for its value. -/
def toldField {α : Type} (name : String) (read : Reader α) (set : α → Config → Config) {j : Json} {value : α}
    (gives : Gives read 1 j value) : Told Config 1 where
  field := field name read set
  value := j
  change := set value
  gives := by
    intro blanks rest all ends
    dsimp only [field]
    rw [gives blanks rest all ends]
    rfl

def tolds {c : Config} (fits : c.Storable) : List (Told Config 1) := [
  toldField "enabled" Json.readBool (fun value c => { c with enabled := value }) (Json.gives_bool 1 c.enabled),
  toldField "port" (readNat UInt16.size "u16") (fun value c => { c with port := value })
    (gives_nat fits.port (by decide) "u16" 1),
  toldField "bindAddress" readAddress (fun value c => { c with address := value }) (gives_address c.address 1),
  toldField "path" (Json.readText "a string") (fun value c => { c with path := value })
    (Json.gives_text "a string" 1 c.path),
  toldField "apiKey" (Json.readOption (Json.readText "a string")) (fun value c => { c with apiKey := value })
    (Json.gives_option (Json.gives_text "a string" 1) c.apiKey),
  toldField "allowedOrigins" (Json.readList (Json.readText "a string")) (fun value c => { c with allowedOrigins := value })
    (gives_origins c.allowedOrigins "a string" 1),
  toldField "maxRequestsPerTick" (readNat UInt64.size "usize") (fun value c => { c with maxRequestsPerTick := value })
    (gives_nat fits.maxRequestsPerTick (Nat.le_refl _) "usize" 1),
  toldField "maxBodyBytes" (readNat UInt64.size "usize") (fun value c => { c with maxBodyBytes := value })
    (gives_nat fits.maxBodyBytes (Nat.le_refl _) "usize" 1),
  toldField "requestTimeoutSecs" (readNat UInt64.size "u64") (fun value c => { c with requestTimeoutSecs := value })
    (gives_nat fits.requestTimeoutSecs (Nat.le_refl _) "u64" 1),
  toldField "sessionIdleTimeoutSecs" (readNat UInt64.size "u64")
    (fun value c => { c with sessionIdleTimeoutSecs := value })
    (gives_nat fits.sessionIdleTimeoutSecs (Nat.le_refl _) "u64" 1),
  toldField "sseKeepaliveSecs" (readNat UInt64.size "u64") (fun value c => { c with keepAliveSecs := value })
    (gives_nat fits.keepAliveSecs (Nat.le_refl _) "u64" 1)]

theorem fields_tolds {c : Config} (fits : c.Storable) : (tolds fits).map (·.field) = record.fields := rfl

theorem toJson_tolds {c : Config} (fits : c.Storable) :
    .obj ((tolds fits).map fun t => (t.field.name, t.value)) = c.toJson := rfl

theorem foldl_tolds {c : Config} (fits : c.Storable) :
    (tolds fits).foldl (fun value t => t.change value) record.start = c := by
  simp only [tolds, toldField, List.foldl_cons, List.foldl_nil]

theorem names_apart : (record.fields.map (·.name)).Nodup := by decide

theorem parse_fileText {c : Config} (fits : c.Storable) : parse c.fileText = .ok c := by
  have octets : Text.utf8 c.fileText = c.toJson.prettyOctets 0 := by
    rw [← Text.octets_toList, fileText, Json.prettyText, String.toList_ofList, Json.prettyOctets]
  have read := record.gives_filled (fields_tolds fits) names_apart (List.cons_ne_nil _ _) [] [] Json.blanks_nil
    Json.ends_nil
  rw [toJson_tolds, foldl_tolds, List.append_nil, List.nil_append] at read
  rw [parse, octets, Json.readAll, read]
  rfl

/-- A configuration goes on as it is if it is valid. -/
def checked (c : Config) : Except Error Config := (c.check.mapError .config).bind fun _ => .ok c

theorem checked_eq_ok {c d : Config} : c.checked = .ok d ↔ c.check = .ok () ∧ d = c := by
  unfold checked
  cases c.check with
  | ok => simp [Except.mapError, Except.bind, eq_comm]
  | error flaw => simp [Except.mapError, Except.bind]

theorem load_decoded {bytes : Bytes} {text : String} (decoded : Text.ofUtf8? bytes = some text) :
    load (.content bytes) = ((parse text).mapError .config).bind checked := by
  simp only [load, decoded]
  rfl

def saved (c : Config) : Bytes := Text.utf8 c.fileText

theorem load_saved {c : Config} (fits : c.Storable) : load (.content c.saved) = c.checked := by
  rw [saved, load_decoded (Text.ofUtf8?_utf8 _), parse_fileText fits]
  rfl

/-- What is saved of a configuration loads exactly if it is valid, and is then the configuration itself, which is saved
with the same bytes again. Otherwise the flaw is told. -/
theorem saved_configuration_loads {c : Config} (fits : c.Storable) :
    ((∃ loaded, load (.content c.saved) = .ok loaded) ↔ c.check = .ok ()) ∧
    (∀ loaded, load (.content c.saved) = .ok loaded → loaded = c ∧ loaded.saved = c.saved) ∧
    (c.check ≠ .ok () → ∃ flaw, c.check = .error flaw ∧ load (.content c.saved) = .error (.config flaw)) := by
  rw [load_saved fits]
  refine ⟨⟨fun ⟨_, loads⟩ => (checked_eq_ok.mp loads).1, fun valid => ⟨c, checked_eq_ok.mpr ⟨valid, rfl⟩⟩⟩, ?_, ?_⟩
  · intro loaded loads
    obtain ⟨_, rfl⟩ := checked_eq_ok.mp loads
    exact ⟨rfl, rfl⟩
  · intro refused
    cases told : c.check with
    | ok => exact absurd told refused
    | error flaw =>
      refine ⟨flaw, rfl, ?_⟩
      rw [checked, told]
      rfl

/-- Every number as large as its word, and texts with what has to be escaped or left out. -/
def extreme : Config where
  enabled := false
  port := 65535
  address := .v6 #v[0x2001, 0xdb8, 0, 0, 0, 0xff00, 0, 0x8329]
  path := "/mcp \"\\é😀"
  apiKey := some "\n\u0000\u001f日本"
  allowedOrigins := ["http://localhost:3000", "", "*"]
  maxRequestsPerTick := 18446744073709551615
  maxBodyBytes := 0
  requestTimeoutSecs := 18446744073709551615
  sessionIdleTimeoutSecs := 18446744073709551615
  keepAliveSecs := 18446744073709551615

theorem saved_extreme_loads :
    extreme.address.text = "2001:db8::ff00:0:8329" ∧ load (.content extreme.saved) = .ok extreme ∧
      load (.content { extreme with path := "mcp" }.saved) = .error (.config (.pathNotRooted "mcp")) := by
  have fits : extreme.Storable := by constructor <;> decide
  have unrooted : Config.Storable { extreme with path := "mcp" } := by constructor <;> decide
  obtain ⟨accepted, same, -⟩ := saved_configuration_loads fits
  obtain ⟨-, -, refused⟩ := saved_configuration_loads unrooted
  obtain ⟨loaded, loads⟩ := accepted.mpr (by decide +kernel)
  have check : { extreme with path := "mcp" }.check = .error (.pathNotRooted "mcp") := by decide +kernel
  obtain ⟨flaw, told, fails⟩ := refused (by rw [check]; decide)
  refine ⟨by decide +kernel, ?_, ?_⟩
  · rw [loads, (same loaded loads).1]
  · rw [fails, Except.error.inj (told.symm.trans check)]

end ToolBridge.Config

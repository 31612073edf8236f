import Mathlib.Data.List.Forall2
import ToolBridge.CommandLine
import ToolBridge.Proofs.RecordStarts
import ToolBridge.Proofs.SavedConfigs

/-! The layers of a configuration. Each supplies some of the settings, and every setting is taken from the highest layer
that supplies it: the command line, the environment, the file, the defaults. -/

namespace ToolBridge

namespace Config

inductive Setting where
  | enabled
  | port
  | address
  | path
  | apiKey
  | allowedOrigins
  | maxRequestsPerTick
  | maxBodyBytes
  | requestTimeoutSecs
  | sessionIdleTimeoutSecs
  | keepAliveSecs
deriving DecidableEq, Repr

def Setting.Value : Setting → Type
  | .enabled => Bool
  | .address => Net.Address
  | .path => String
  | .apiKey => Option String
  | .allowedOrigins => List String
  | .port | .maxRequestsPerTick | .maxBodyBytes | .requestTimeoutSecs | .sessionIdleTimeoutSecs | .keepAliveSecs => Nat

def get (c : Config) : (s : Setting) → s.Value
  | .enabled => c.enabled
  | .port => c.port
  | .address => c.address
  | .path => c.path
  | .apiKey => c.apiKey
  | .allowedOrigins => c.allowedOrigins
  | .maxRequestsPerTick => c.maxRequestsPerTick
  | .maxBodyBytes => c.maxBodyBytes
  | .requestTimeoutSecs => c.requestTimeoutSecs
  | .sessionIdleTimeoutSecs => c.sessionIdleTimeoutSecs
  | .keepAliveSecs => c.keepAliveSecs

theorem ext_get {c d : Config} (same : ∀ s, c.get s = d.get s) : c = d := by
  obtain ⟨⟩ := c
  obtain ⟨⟩ := d
  rw [Config.mk.injEq]
  exact ⟨same .enabled, same .port, same .address, same .path, same .apiKey, same .allowedOrigins,
    same .maxRequestsPerTick, same .maxBodyBytes, same .requestTimeoutSecs, same .sessionIdleTimeoutSecs,
    same .keepAliveSecs⟩

/-! ## Layers -/

/-- The value of each setting that is supplied. -/
def Layer : Type := (s : Setting) → Option s.Value

namespace Layer

def empty : Layer := fun _ => none

def only (s : Setting) (value : s.Value) : Layer := fun t => if same : s = t then some (same ▸ value) else none

def or (upper lower : Layer) : Layer := fun s => (upper s).or (lower s)

/-- The settings that are supplied replace those of a configuration. -/
def upon (l : Layer) (c : Config) : Config where
  enabled := (l .enabled).getD c.enabled
  port := (l .port).getD c.port
  address := (l .address).getD c.address
  path := (l .path).getD c.path
  apiKey := (l .apiKey).getD c.apiKey
  allowedOrigins := (l .allowedOrigins).getD c.allowedOrigins
  maxRequestsPerTick := (l .maxRequestsPerTick).getD c.maxRequestsPerTick
  maxBodyBytes := (l .maxBodyBytes).getD c.maxBodyBytes
  requestTimeoutSecs := (l .requestTimeoutSecs).getD c.requestTimeoutSecs
  sessionIdleTimeoutSecs := (l .sessionIdleTimeoutSecs).getD c.sessionIdleTimeoutSecs
  keepAliveSecs := (l .keepAliveSecs).getD c.keepAliveSecs

theorem get_upon (l : Layer) (c : Config) (s : Setting) : (l.upon c).get s = (l s).getD (c.get s) := by
  cases s <;> rfl

theorem upon_upon (upper lower : Layer) (c : Config) : upper.upon (lower.upon c) = (upper.or lower).upon c := by
  refine ext_get fun s => ?_
  rw [get_upon, get_upon, get_upon, or]
  cases upper s <;> rfl

theorem eq_upon_iff {l : Layer} {c base : Config} : c = l.upon base ↔ ∀ s, c.get s = (l s).getD (base.get s) := by
  refine ⟨?_, fun same => ext_get fun s => (same s).trans (get_upon l base s).symm⟩
  rintro rfl s
  exact get_upon l base s

end Layer

theorem Setting.differs (s : Setting) : ∃ a b : s.Value, a ≠ b := by
  cases s with
  | enabled => exact ⟨true, false, Bool.noConfusion⟩
  | address => exact ⟨Net.Address.loopback, Net.Address.v4 0 0 0 0, (by decide : Net.Address.loopback ≠ .v4 0 0 0 0)⟩
  | path => exact ⟨"", "/", (by decide : "" ≠ "/")⟩
  | apiKey => exact ⟨none, some "", (Option.some_ne_none "").symm⟩
  | allowedOrigins => exact ⟨[], [""], (List.cons_ne_nil "" []).symm⟩
  | _ => exact ⟨Nat.zero, Nat.succ Nat.zero, Nat.zero_ne_one⟩

/-- A layer can be told from what it does to all configurations. -/
theorem Layer.eq_of_upon {l l' : Layer} (same : ∀ c, l.upon c = l'.upon c) : l = l' := by
  funext s
  have supplied (x : s.Value) : (l s).getD x = (l' s).getD x := by
    have set : ((only s x).upon {}).get s = x := by simp [get_upon, only]
    have both := congrArg (·.get s) (same ((only s x).upon {}))
    simpa only [get_upon l, get_upon l', set] using both
  obtain ⟨a, b, differ⟩ := s.differs
  cases upper : l s with
  | none =>
    cases lower : l' s with
    | none => rfl
    | some x =>
      simp only [upper, lower, Option.getD_none, Option.getD_some] at supplied
      exact absurd ((supplied a).trans (supplied b).symm) differ
  | some x =>
    cases lower : l' s with
    | none =>
      simp only [upper, lower, Option.getD_none, Option.getD_some] at supplied
      exact absurd ((supplied a).symm.trans (supplied b)) differ
    | some y =>
      simp only [upper, lower, Option.getD_some] at supplied
      exact congrArg some (supplied a)

/-! ## The file -/

/-- The change that a text makes to whatever stands before is that of a layer. -/
def Layered (change : Config → Config) : Prop := ∃ l : Layer, ∀ c, change c = l.upon c

theorem Layered.comp {first later : Config → Config} (lower : Layered first) (upper : Layered later) :
    Layered fun c => later (first c) := by
  obtain ⟨l, same⟩ := lower
  obtain ⟨u, same'⟩ := upper
  exact ⟨u.or l, fun c => (same' (first c)).trans ((congrArg u.upon (same c)).trans (u.upon_upon l c))⟩

theorem field_layered {α : Type} {name : String} {read : Json.Reader α} {set : α → Config → Config}
    (each : ∀ value, Layered (set value)) {input rest : Bytes} {change : Config → Config}
    (told : (field name read set).read input = .ok (change, rest)) : Layered change := by
  dsimp only [field] at told
  cases found : read input with
  | error fault =>
    rw [found] at told
    cases told
  | ok value =>
    rw [found] at told
    cases told
    exact each value.1

/-- Every field of the record supplies one setting. -/
theorem record_composes : Json.Composes record.fields Layered where
  same := ⟨.empty, fun _ => rfl⟩
  more := by
    intro change kept f member input next rest told
    refine kept.comp ?_
    simp only [record, List.mem_cons, List.not_mem_nil, or_false] at member
    rcases member with rfl | rfl | rfl | rfl | rfl | rfl | rfl | rfl | rfl | rfl | rfl
    · exact field_layered (fun value => ⟨.only .enabled value, fun _ => rfl⟩) told
    · exact field_layered (fun value => ⟨.only .port value, fun _ => rfl⟩) told
    · exact field_layered (fun value => ⟨.only .address value, fun _ => rfl⟩) told
    · exact field_layered (fun value => ⟨.only .path value, fun _ => rfl⟩) told
    · exact field_layered (fun value => ⟨.only .apiKey value, fun _ => rfl⟩) told
    · exact field_layered (fun value => ⟨.only .allowedOrigins value, fun _ => rfl⟩) told
    · exact field_layered (fun value => ⟨.only .maxRequestsPerTick value, fun _ => rfl⟩) told
    · exact field_layered (fun value => ⟨.only .maxBodyBytes value, fun _ => rfl⟩) told
    · exact field_layered (fun value => ⟨.only .requestTimeoutSecs value, fun _ => rfl⟩) told
    · exact field_layered (fun value => ⟨.only .sessionIdleTimeoutSecs value, fun _ => rfl⟩) told
    · exact field_layered (fun value => ⟨.only .keepAliveSecs value, fun _ => rfl⟩) told

/-- What a file supplies: nothing if none is named or it is missing, else the settings that its text tells over whatever
stands before. It must be valid over the defaults. -/
inductive FileTells : Option File → Layer → Prop where
  | unnamed : FileTells none .empty
  | missing : FileTells (some .missing) .empty
  | content {bytes : Bytes} {text : String} {l : Layer} (decoded : Text.ofUtf8? bytes = some text)
      (reads : ∀ c, Json.readAll (record.upon c).read (Text.utf8 text) = .ok (l.upon c))
      (valid : (l.upon {}).check = .ok ()) : FileTells (some (.content bytes)) l

/-- A file tells one layer at most. -/
theorem FileTells.unique {file : Option File} {l l' : Layer} (first : FileTells file l) (second : FileTells file l') :
    l = l' := by
  cases first with
  | unnamed => cases second; rfl
  | missing => cases second; rfl
  | content decoded reads _ =>
    cases second with
    | content decoded' reads' _ =>
      cases decoded.symm.trans decoded'
      exact Layer.eq_of_upon fun c => Except.ok.inj ((reads c).symm.trans (reads' c))

theorem record_upon_default : record.upon {} = record := rfl

theorem parse_eq_ok {text : String} {c : Config} :
    parse text = .ok c ↔ ∃ l : Layer, c = l.upon {} ∧
      ∀ base, Json.readAll (record.upon base).read (Text.utf8 text) = .ok (l.upon base) := by
  constructor
  · intro parsed
    rcases Json.Record.uniform_readAll record_composes (Text.utf8 text) with ⟨change, ⟨l, same⟩, told⟩ | ⟨fault, told⟩
    · refine ⟨l, ?_, fun base => (told base).trans (congrArg Except.ok (same base))⟩
      rw [parse, ← record_upon_default, told] at parsed
      exact (Except.ok.inj parsed).symm.trans (same {})
    · rw [parse, ← record_upon_default, told] at parsed
      cases parsed
  · rintro ⟨l, rfl, told⟩
    rw [parse, ← record_upon_default, told]

def loadNamed : Option File → Except Error Config
  | some file => load file
  | none => .ok {}

theorem load_content_eq_ok {bytes : Bytes} {c : Config} :
    load (.content bytes) = .ok c ↔ ∃ text, Text.ofUtf8? bytes = some text ∧ parse text = .ok c ∧ c.check = .ok () := by
  constructor
  · intro loaded
    cases decoded : Text.ofUtf8? bytes with
    | none =>
      simp only [load, decoded] at loaded
      cases loaded
    | some text =>
      rw [load_decoded decoded] at loaded
      cases parsed : parse text with
      | error flaw =>
        rw [parsed] at loaded
        cases loaded
      | ok d =>
        rw [parsed] at loaded
        obtain ⟨valid, rfl⟩ := checked_eq_ok.mp loaded
        exact ⟨text, rfl, parsed, valid⟩
  · rintro ⟨text, decoded, parsed, valid⟩
    rw [load_decoded decoded, parsed]
    exact checked_eq_ok.mpr ⟨valid, rfl⟩

theorem loadNamed_eq_ok {file : Option File} {c : Config} :
    loadNamed file = .ok c ↔ ∃ l, FileTells file l ∧ c = l.upon {} := by
  constructor
  · intro loaded
    cases file with
    | none => exact ⟨.empty, .unnamed, (Except.ok.inj loaded).symm⟩
    | some file =>
      cases file with
      | missing => exact ⟨.empty, .missing, (Except.ok.inj loaded).symm⟩
      | unreadable reason => cases loaded
      | content bytes =>
        obtain ⟨text, decoded, parsed, valid⟩ := load_content_eq_ok.mp loaded
        obtain ⟨l, rfl, reads⟩ := parse_eq_ok.mp parsed
        exact ⟨l, .content decoded reads valid, rfl⟩
  · rintro ⟨l, told, rfl⟩
    cases told with
    | unnamed => rfl
    | missing => rfl
    | content decoded reads valid =>
      exact load_content_eq_ok.mpr ⟨_, decoded, parse_eq_ok.mpr ⟨l, rfl, reads⟩, valid⟩

/-! ## The environment -/

/-- The variable that a setting is read from, if there is one. -/
def Setting.variableName? : Setting → Option String
  | .enabled => some "MCP_BRIDGE_ENABLED"
  | .port => some "MCP_BRIDGE_PORT"
  | .address => some "MCP_BRIDGE_BIND"
  | .apiKey => some "MCP_BRIDGE_API_KEY"
  | .allowedOrigins => some "MCP_BRIDGE_ALLOWED_ORIGINS"
  | _ => none

/-- What a variable's value gives for the setting. Keys and origins can always be read. -/
def Setting.read? : (s : Setting) → String → Option s.Value
  | .enabled, value => readSwitch value
  | .port, value => Text.readNat 10 UInt16.size value
  | .address, value => Net.Address.parse? value
  | .apiKey, value => some (some value)
  | .allowedOrigins, value => some (readOrigins value)
  | _, _ => none

/-- The settings with variables, in the order in which these are applied. -/
def variableSettings : List Setting := [.enabled, .port, .address, .apiKey, .allowedOrigins]

/-- The value of the variable of a setting, if it is present. -/
def Setting.told? (s : Setting) (env : Environment) : Option String := s.variableName?.bind fun name => env.lookup name

def fromEnvironment (env : Environment) : Layer := fun s => (s.told? env).bind s.read?

/-- The variables that have to be read can be read, where they are present. -/
structure Readable (env : Environment) : Prop where
  enabled : ∀ value, env.lookup "MCP_BRIDGE_ENABLED" = some value → (readSwitch value).isSome
  port : ∀ value, env.lookup "MCP_BRIDGE_PORT" = some value → (Text.readNat 10 UInt16.size value).isSome
  bind : ∀ value, env.lookup "MCP_BRIDGE_BIND" = some value → (Net.Address.parse? value).isSome

/-- The variable reads the setting and nothing else. -/
structure Variable.Sets (v : Variable) (s : Setting) : Prop where
  name : s.variableName? = some v.name
  apply : ∀ value c, v.apply value c = (s.read? value).map fun x => (Layer.only s x).upon c

theorem variables_set : List.Forall₂ Variable.Sets Variable.all variableSettings := by
  refine .cons ⟨?_, fun value c => ?_⟩ (.cons ⟨?_, fun value c => ?_⟩ (.cons ⟨?_, fun value c => ?_⟩
    (.cons ⟨?_, fun value c => ?_⟩ (.cons ⟨?_, fun value c => ?_⟩ .nil))))
  all_goals dsimp only [Setting.read?]
  all_goals rfl

/-- The layer without the settings that are not listed. -/
def Layer.within (l : Layer) (settings : List Setting) : Layer := fun s => if s ∈ settings then l s else none

theorem Layer.within_some {l : Layer} {s : Setting} {x : s.Value} (supplied : l s = some x) (settings : List Setting)
    (c : Config) : (l.within settings).upon ((only s x).upon c) = (l.within (s :: settings)).upon c := by
  refine ext_get fun t => ?_
  rw [get_upon, get_upon, get_upon]
  by_cases same : s = t
  · subst same
    by_cases listed : s ∈ settings <;> simp [within, only, listed, supplied]
  · have other : t ≠ s := fun eq => same eq.symm
    simp [within, only, same, other]

theorem Layer.within_none {l : Layer} {s : Setting} (missing : l s = none) (settings : List Setting) :
    l.within settings = l.within (s :: settings) := by
  funext t
  by_cases same : t = s
  · subst same
    by_cases listed : t ∈ settings <;> simp [within, listed, missing]
  · simp [within, same]

/-- One variable is applied: its setting is that of the environment, or it cannot be read and is the last. -/
theorem Variable.Sets.applied {v : Variable} {s : Setting} (sets : v.Sets s) (env : Environment) (vs : List Variable)
    (c : Config) :
    (∃ next, applyVariables env (v :: vs) c = applyVariables env vs next ∧
        (∀ settings, ((fromEnvironment env).within settings).upon next =
          ((fromEnvironment env).within (s :: settings)).upon c) ∧
        ∀ value, s.told? env = some value → (s.read? value).isSome) ∨
      ∃ value, env.lookup v.name = some value ∧ s.read? value = none ∧
        applyVariables env (v :: vs) c = (c, some (.variable v.name value)) := by
  have told : s.told? env = env.lookup v.name := by rw [Setting.told?, sets.name, Option.bind_some]
  cases found : env.lookup v.name with
  | none =>
    have missing : fromEnvironment env s = none := by rw [fromEnvironment, told, found, Option.bind_none]
    refine .inl ⟨c, by rw [applyVariables, found], fun settings => by rw [Layer.within_none missing], ?_⟩
    intro value present
    rw [told, found] at present
    cases present
  | some value =>
    cases read : s.read? value with
    | none =>
      refine .inr ⟨value, rfl, read, ?_⟩
      rw [applyVariables, found]
      dsimp only
      rw [sets.apply, read]
      rfl
    | some x =>
      have supplied : fromEnvironment env s = some x := by rw [fromEnvironment, told, found, Option.bind_some, read]
      refine .inl ⟨(Layer.only s x).upon c, ?_, fun settings => Layer.within_some supplied settings c, ?_⟩
      · rw [applyVariables, found]
        dsimp only
        rw [sets.apply, read]
        rfl
      · rw [told, found]
        rintro _ ⟨⟩
        rw [read]
        rfl

/-- Variables are applied one after the other, up to the first that cannot be read. -/
theorem applyVariables_cases (env : Environment) {vs : List Variable} {settings : List Setting}
    (sets : List.Forall₂ Variable.Sets vs settings) (c : Config) :
    (applyVariables env vs c = (((fromEnvironment env).within settings).upon c, none) ∧
        ∀ s ∈ settings, ∀ value, s.told? env = some value → (s.read? value).isSome) ∨
      ∃ before s after name value, settings = before ++ s :: after ∧ s.variableName? = some name ∧
        env.lookup name = some value ∧ s.read? value = none ∧
        applyVariables env vs c = (((fromEnvironment env).within before).upon c, some (.variable name value)) := by
  induction sets generalizing c with
  | nil => exact .inl ⟨rfl, List.forall_mem_nil _⟩
  | @cons v s vs settings sets _ ih =>
    rcases sets.applied env vs c with ⟨next, step, layered, reads⟩ | ⟨value, present, unread, stopped⟩
    · rw [step]
      rcases ih next with ⟨applied, others⟩ | ⟨before, t, after, name, value, rfl, named, present, unread, stopped⟩
      · exact .inl ⟨by rw [applied, layered], List.forall_mem_cons.mpr ⟨reads, others⟩⟩
      · exact .inr ⟨s :: before, t, after, name, value, rfl, named, present, unread, by rw [stopped, layered]⟩
    · exact .inr ⟨[], s, settings, v.name, value, rfl, sets.name, present, unread, stopped⟩

theorem readable_iff (env : Environment) :
    Readable env ↔ ∀ s ∈ variableSettings, ∀ value, s.told? env = some value → (s.read? value).isSome := by
  simp only [variableSettings, List.forall_mem_cons, List.not_mem_nil, false_implies, implies_true, and_true]
  exact ⟨fun ⟨enabled, port, bind⟩ => ⟨enabled, port, bind, fun _ _ => rfl, fun _ _ => rfl⟩,
    fun ⟨enabled, port, bind, _⟩ => ⟨enabled, port, bind⟩⟩

theorem within_variableSettings (env : Environment) :
    (fromEnvironment env).within variableSettings = fromEnvironment env := by
  funext s
  cases s <;> rfl

theorem applyEnvironment_cases (env : Environment) (base : Config) :
    (base.applyEnvironment env = ((fromEnvironment env).upon base, none) ∧ Readable env) ∨
      ∃ before s after name value, variableSettings = before ++ s :: after ∧ s.variableName? = some name ∧
        env.lookup name = some value ∧ s.read? value = none ∧
        base.applyEnvironment env = (((fromEnvironment env).within before).upon base, some (.variable name value)) := by
  have cases := applyVariables_cases env variables_set base
  rwa [within_variableSettings, ← readable_iff] at cases

theorem not_readable {env : Environment} {before after : List Setting} {s : Setting} {name value : String}
    (listed : variableSettings = before ++ s :: after) (named : s.variableName? = some name)
    (present : env.lookup name = some value) (unread : s.read? value = none) : ¬ Readable env := by
  intro readable
  have member : s ∈ variableSettings := listed ▸ List.mem_append_right before List.mem_cons_self
  have told : s.told? env = some value := by rw [Setting.told?, named, Option.bind_some, present]
  have read := (readable_iff env).mp readable s member value told
  rw [unread] at read
  cases read

/-! ## The command line -/

/-- What the options supply; no origins are none. -/
def fromOptions (o : CommandLine.Options) : Layer
  | .port => o.port
  | .address => o.address
  | .path => o.path
  | .apiKey => o.apiKey.map some
  | .allowedOrigins => if o.allowedOrigins = [] then none else some o.allowedOrigins
  | _ => none

theorem overlay_eq (o : CommandLine.Options) (c : Config) : CommandLine.overlay o c = (fromOptions o).upon c := by
  have key : o.apiKey.or c.apiKey = (o.apiKey.map some).getD c.apiKey := by cases o.apiKey <;> rfl
  have origins : (if o.allowedOrigins.isEmpty then c.allowedOrigins else o.allowedOrigins) =
      (if o.allowedOrigins = [] then none else some o.allowedOrigins).getD c.allowedOrigins := by
    cases o.allowedOrigins <;> rfl
  rw [CommandLine.overlay, key, origins]
  rfl

/-! ## All layers -/

theorem config_steps (file : Option File) (env : Environment) (o : CommandLine.Options) :
    CommandLine.config file env o = (loadNamed file).bind fun base => match base.applyEnvironment env with
      | (_, some flaw) => .error (.config flaw)
      | (c, none) => ((fromOptions o).upon c).checked := by
  simp only [← overlay_eq]
  cases file <;> rfl

theorem config_eq_ok {file : Option File} {env : Environment} {o : CommandLine.Options} {c : Config} :
    CommandLine.config file env o = .ok c ↔ ∃ told, FileTells file told ∧ Readable env ∧ c.check = .ok () ∧
      c = ((fromOptions o).or ((fromEnvironment env).or told)).upon {} := by
  have layers (told : Layer) : (fromOptions o).upon ((fromEnvironment env).upon (told.upon {})) =
      ((fromOptions o).or ((fromEnvironment env).or told)).upon {} := by
    rw [Layer.upon_upon (fromEnvironment env), Layer.upon_upon]
  rw [config_steps]
  constructor
  · intro given
    cases loaded : loadNamed file with
    | error fault =>
      rw [loaded] at given
      cases given
    | ok base =>
      obtain ⟨told, tells, rfl⟩ := loadNamed_eq_ok.mp loaded
      rw [loaded, Except.bind] at given
      rcases applyEnvironment_cases env (told.upon {}) with ⟨applied, readable⟩ | ⟨before, s, after, name, value, _, _, _, _, fails⟩
      · rw [applied] at given
        obtain ⟨valid, rfl⟩ := checked_eq_ok.mp given
        exact ⟨told, tells, readable, valid, layers told⟩
      · rw [fails] at given
        cases given
  · rintro ⟨told, tells, readable, valid, rfl⟩
    rw [loadNamed_eq_ok.mpr ⟨told, tells, rfl⟩, Except.bind]
    rcases applyEnvironment_cases env (told.upon {}) with ⟨applied, _⟩ | ⟨before, s, after, name, value, listed, named, set, unread, _⟩
    · rw [applied]
      dsimp only
      rw [layers]
      exact checked_eq_ok.mpr ⟨valid, rfl⟩
    · exact absurd readable (not_readable listed named set unread)

/-- Every setting is taken from the highest layer that supplies it, if the file is valid on its own, the environment can
be read and the whole is valid; else there is no configuration. A variable that cannot be read leaves its own setting,
and those of the variables after it, as they were. -/
theorem settings_layered (file : Option File) (env : Environment) (o : CommandLine.Options) :
    (∀ c, CommandLine.config file env o = .ok c ↔ ∃ told, FileTells file told ∧ Readable env ∧ c.check = .ok () ∧
      ∀ s, c.get s = ((fromOptions o s).or ((fromEnvironment env s).or (told s))).getD (({} : Config).get s)) ∧
    (∀ (base c : Config) (flaw : ConfigFlaw), base.applyEnvironment env = (c, some flaw) →
      ∃ before s after name value, variableSettings = before ++ s :: after ∧ s.variableName? = some name ∧
        env.lookup name = some value ∧ s.read? value = none ∧ flaw = .variable name value ∧
        ∀ t, t ∉ before → c.get t = base.get t) := by
  refine ⟨fun c => ?_, fun base c flaw stopped => ?_⟩
  · simp only [config_eq_ok, Layer.eq_upon_iff]
    rfl
  · rcases applyEnvironment_cases env base with ⟨applied, _⟩ | ⟨before, s, after, name, value, listed, named, set, unread, fails⟩
    · cases applied.symm.trans stopped
    · obtain ⟨rfl, same⟩ := Prod.mk.inj (fails.symm.trans stopped)
      refine ⟨before, s, after, name, value, listed, named, set, unread, (Option.some.inj same).symm, fun t other => ?_⟩
      rw [Layer.get_upon, Layer.within, if_neg other, Option.getD_none]

/-- A file that tells a port, a path and a key. -/
def sampleFile : File := .content (Text.utf8 "\x7b\"port\": 9000, \"path\": \"/file\", \"apiKey\": \"file\"\x7d")

theorem settings_layered_sample :
    let env : Environment := [("MCP_BRIDGE_PORT", "+9100"), ("MCP_BRIDGE_ALLOWED_ORIGINS", " , ")]
    let options : CommandLine.Options := { path := some "/line" }
    let c : Config := { port := 9100, path := "/line", apiKey := some "file" }
    let unread : Environment := [("MCP_BRIDGE_BIND", "::1"), ("MCP_BRIDGE_ENABLED", "off"), ("MCP_BRIDGE_PORT", "65536")]
    (CommandLine.config (some sampleFile) env options = .ok c ∧ ∃ told, FileTells (some sampleFile) told ∧
      ∀ s, c.get s = ((fromOptions options s).or ((fromEnvironment env s).or (told s))).getD (({} : Config).get s)) ∧
    c.applyEnvironment unread = ({ c with enabled := false }, some (.variable "MCP_BRIDGE_PORT" "65536")) ∧
    ∃ (before : List Setting) (s : Setting), s ∉ before ∧ s.variableName? = some "MCP_BRIDGE_PORT" ∧
      ∀ t, t ∉ before → Config.get { c with enabled := false } t = c.get t := by
  intro env options c unread
  obtain ⟨layered, -⟩ := settings_layered (some sampleFile) env options
  obtain ⟨-, kept⟩ := settings_layered none unread {}
  have given : CommandLine.config (some sampleFile) env options = .ok c := by decide +kernel
  have stopped : c.applyEnvironment unread =
      ({ c with enabled := false }, some (.variable "MCP_BRIDGE_PORT" "65536")) := by decide +kernel
  obtain ⟨told, tells, -, -, same⟩ := (layered c).mp given
  obtain ⟨before, s, after, name, value, listed, named, -, -, flaw, others⟩ := kept _ _ _ stopped
  have named' : s.variableName? = some "MCP_BRIDGE_PORT" := by
    rw [named]
    cases flaw
    rfl
  have apart : s ∉ before := by
    intro earlier
    have once : variableSettings.Nodup := by decide
    rw [listed, List.nodup_append] at once
    exact once.2.2 s earlier s List.mem_cons_self rfl
  exact ⟨⟨given, told, tells, same⟩, stopped, before, s, apart, named', others⟩

end Config

end ToolBridge

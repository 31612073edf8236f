import ToolBridge.Proofs.CallContract

/-! When a tool is run, and with what. The tools of a host may do anything to the host while they run, so that what
is left behind tells whether one was run, and how often. -/

namespace ToolBridge

namespace Tool

/-- Tools with a state of their own, which running one may change. -/
structure Host (σ : Type) where
  list : σ → Except Crash (List Descriptor)
  run : String → Arguments → σ → Run × σ

/-- What the bridge sees of it in one state. -/
def Host.at {σ : Type} (host : Host σ) (s : σ) : Registry :=
  ⟨host.list s, fun tool arguments => (host.run tool arguments s).1⟩

/-- The descriptor is the first of that name. -/
def First (listed : List Descriptor) (name : String) (d : Descriptor) : Prop :=
  ∃ before after, listed = before ++ d :: after ∧ d.name = name ∧ ∀ e ∈ before, e.name ≠ name

theorem find?_eq_some {listed : List Descriptor} {name : String} {d : Descriptor} :
    listed.find? (·.name == name) = some d ↔ First listed name d := by
  simp only [List.find?_eq_some_iff_append, First, beq_iff_eq, Bool.not_eq_true', beq_eq_false_iff_ne]
  constructor
  · rintro ⟨named, before, after, rfl, others⟩
    exact ⟨before, after, rfl, named, others⟩
  · rintro ⟨before, after, rfl, named, others⟩
    exact ⟨named, before, after, rfl, others⟩

/-- Each parameter that the tool requires is among the members, and not as a null. -/
def Descriptor.SuppliedBy (d : Descriptor) (members : List (String × Json)) : Prop :=
  ∀ p ∈ d.parameters, p.required = true → ∃ value, (p.name, value) ∈ members ∧ value ≠ .null

theorem Descriptor.suppliedBy_iff {d : Descriptor} {members : List (String × Json)} :
    d.SuppliedBy members ↔ ∀ name ∈ d.required, ∃ value, (name, value) ∈ members ∧ value ≠ .null := by
  simp only [SuppliedBy, required, List.mem_map, List.mem_filter]
  constructor
  · rintro supplied _ ⟨p, ⟨member, needed⟩, rfl⟩
    exact supplied p member needed
  · exact fun supplied p member needed => supplied p.name ⟨p, ⟨member, needed⟩, rfl⟩

end Tool

/-- The text of a string is the string itself. -/
def Json.wording (value : Json) : String := value.asString?.getD value.text

def Rpc.Reply.detail? (r : Reply) (name : String) : Option Json :=
  match r.outcome with
  | .result _ => none
  | .error e => e.data.bind (·.member? name)

namespace Dispatch
open Tool (Host Descriptor First)

/-! ## Arguments -/

/-- What parameters give as arguments. -/
inductive Gives (params : Json) : List (String × Json) → Prop where
  | absent (none_ : params.member? "arguments" = none) : Gives params []
  | null (null : params.member? "arguments" = some .null) : Gives params []
  | object (members : List (String × Json)) (given : params.member? "arguments" = some (.obj members)) :
      Gives params members

theorem arguments?_eq_some {params : Json} {members : List (String × Json)} :
    arguments? params = some members ↔ Gives params members := by
  constructor
  · intro given
    unfold arguments? at given
    split at given
    next none_ => exact Option.some.inj given ▸ .absent none_
    next null => exact Option.some.inj given ▸ .null null
    next value _ found =>
      cases value <;> cases given
      exact .object _ found
  · rintro (none_ | null | ⟨_, given⟩)
    · simp only [arguments?, none_]
    · simp only [arguments?, null]
    · simp only [arguments?, given, Json.members?]

/-- The arguments that a tool is run with: the members that are no nulls, each as its text. -/
structure Handed (members : List (String × Json)) (arguments : Tool.Arguments) : Prop where
  mem : ∀ name text, (name, text) ∈ arguments ↔
    ∃ value, (name, value) ∈ members ∧ value ≠ .null ∧ text = value.wording
  distinct : (members.map Prod.fst).Nodup → (arguments.map Prod.fst).Nodup

theorem stringify_cons (name : String) (value : Json) (members : List (String × Json)) :
    value = .null ∧ stringify ((name, value) :: members) = stringify members ∨
      value ≠ .null ∧ stringify ((name, value) :: members) = (name, value.wording) :: stringify members := by
  cases value with
  | null => exact .inl ⟨rfl, rfl⟩
  | bool _ | num _ | str _ | arr _ | obj _ => exact .inr ⟨nofun, rfl⟩

theorem handed_stringify (members : List (String × Json)) : Handed members (stringify members) := by
  constructor
  · intro name text
    induction members with
    | nil => simp [stringify]
    | cons member members ih =>
      obtain ⟨other, value⟩ := member
      rcases stringify_cons other value members with ⟨rfl, same⟩ | ⟨solid, same⟩
      · rw [same, ih]
        refine exists_congr fun value => and_congr_left fun kept => ?_
        exact (List.mem_cons.trans (or_iff_right fun same => kept.1 (Prod.mk.inj same).2)).symm
      · rw [same, List.mem_cons, ih]
        simp [or_and_right, exists_or, solid, and_assoc]
  · refine List.Nodup.sublist ?_
    induction members with
    | nil => exact .slnil
    | cons member members ih =>
      obtain ⟨other, value⟩ := member
      rcases stringify_cons other value members with ⟨_, same⟩ | ⟨_, same⟩
      · exact same ▸ ih.cons other
      · exact same ▸ ih.cons_cons other

/-! ## Whether a tool is run -/

/-- The call may run the tool of that name with these members as its arguments. -/
def Permits (listed : List Descriptor) (params : Option Json) (name : String) (members : List (String × Json)) : Prop :=
  ∃ given d, params = some given ∧ given.member? "name" = some (.str name) ∧ First listed name d ∧
    Gives given members ∧ d.SuppliedBy members

/-- The call names a tool that is not listed. -/
def NamesUnlisted (listed : List Descriptor) (params : Option Json) : Prop :=
  ∃ given name, params = some given ∧ given.member? "name" = some (.str name) ∧ ∀ d ∈ listed, d.name ≠ name

theorem toolName?_eq_some {params : Json} {name : String} :
    toolName? params = some name ↔ params.member? "name" = some (.str name) := by
  simp [toolName?, Option.bind_eq_some_iff, Json.asString?_eq_some]

theorem lookup_stringify {members : List (String × Json)} {name : String} :
    (stringify members).lookup name = none ↔ ∀ value, (name, value) ∈ members → value = .null := by
  simp only [List.lookup_eq_none_iff, bne_iff_ne, Prod.forall, (handed_stringify members).mem]
  constructor
  · intro absent value member
    by_contra solid
    exact absent name _ ⟨value, member, solid, rfl⟩ rfl
  · rintro nulls other text ⟨value, member, solid, _⟩ rfl
    exact solid (nulls value member)

theorem missing_eq_nil {d : Descriptor} {members : List (String × Json)} :
    missing d (stringify members) = [] ↔ d.SuppliedBy members := by
  simp only [missing, List.filter_eq_nil_iff, Option.isNone_iff_eq_none, lookup_stringify, Descriptor.suppliedBy_iff,
    not_forall, exists_prop]

section
variable {listed : List Descriptor} {registry : Tool.Registry} {id : Json} {params : Option Json}

theorem plan_permitted (lists : registry.list = .ok listed) {name : String} {members : List (String × Json)}
    (permits : Permits listed params name members) :
    plan registry id params = .ok (.ok ⟨name, stringify members⟩) := by
  obtain ⟨given, d, rfl, named, first, gives, supplied⟩ := permits
  simp only [plan, toolName?_eq_some.mpr named, lists, Except.map, invocation, Tool.find?_eq_some.mpr first,
    arguments?_eq_some.mpr gives, missing_eq_nil.mpr supplied, List.isEmpty_nil, if_true]

/-- The reply of a call that may not run a tool. -/
structure Turned (listed : List Descriptor) (id : Json) (params : Option Json) (reply : Rpc.Reply) : Prop where
  id : reply.id = id
  unlisted : NamesUnlisted listed params → reply.code? = some (-32601)
  otherwise : ¬ NamesUnlisted listed params → reply.code? = some (-32602)

theorem Turned.invalid (known : ¬ NamesUnlisted listed params) (details : String) :
    Turned listed id params (.invalidParams id details) where
  id := rfl
  unlisted := fun unlisted => absurd unlisted known
  otherwise := fun _ => rfl

theorem namesUnlisted_iff {given : Json} {name : String} (named : given.member? "name" = some (.str name)) :
    NamesUnlisted listed (some given) ↔ ∀ d ∈ listed, d.name ≠ name := by
  constructor
  · rintro ⟨_, other, ⟨⟩, same, others⟩
    cases named.symm.trans same
    exact others
  · exact fun others => ⟨given, name, rfl, named, others⟩

theorem invocation_barred (id : Json) {given : Json} {name : String}
    (named : given.member? "name" = some (.str name)) (barred : ∀ members, ¬ Permits listed (some given) name members) :
    ∃ reply, Turned listed id (some given) reply ∧ invocation listed id name given = .error reply := by
  unfold invocation
  cases found : listed.find? (·.name == name) with
  | none =>
    have unlisted : NamesUnlisted listed (some given) := (namesUnlisted_iff named).mpr (by simpa using found)
    exact ⟨_, ⟨rfl, fun _ => rfl, fun known => absurd unlisted known⟩, rfl⟩
  | some d =>
    have first : First listed name d := Tool.find?_eq_some.mp found
    have known : ¬ NamesUnlisted listed (some given) := fun unlisted =>
      (namesUnlisted_iff named).mp unlisted d (List.mem_of_find?_eq_some found) (by simpa using List.find?_some found)
    cases gives : arguments? given with
    | none => exact ⟨_, .invalid known _, rfl⟩
    | some members =>
      have absent : missing d (stringify members) ≠ [] := fun supplied => barred members
        ⟨given, d, rfl, named, first, arguments?_eq_some.mp gives, missing_eq_nil.mp supplied⟩
      exact ⟨_, .invalid known _, if_neg (absent ∘ List.isEmpty_iff.mp)⟩

theorem plan_barred (id : Json) (barred : ∀ name members, ¬ Permits listed params name members) : ∃ reply,
    Turned listed id params reply ∧
      ∀ registry : Tool.Registry, registry.list = .ok listed → plan registry id params = .ok (.error reply) := by
  cases params with
  | none =>
    have unnamed : ¬ NamesUnlisted listed none := nofun
    exact ⟨_, .invalid unnamed _, fun _ _ => rfl⟩
  | some given =>
    cases named : toolName? given with
    | none =>
      have unnamed : ¬ NamesUnlisted listed (some given) := by
        rintro ⟨_, name, ⟨⟩, same, _⟩
        cases named.symm.trans (toolName?_eq_some.mpr same)
      exact ⟨_, .invalid unnamed _, fun _ _ => by simp only [plan, named]; rfl⟩
    | some name =>
      obtain ⟨reply, turned, refused⟩ := invocation_barred id (toolName?_eq_some.mp named) (barred name)
      exact ⟨reply, turned, fun registry lists => by simp only [plan, named, lists, Except.map, refused]⟩

end

/-! ## What a run leaves behind -/

/-- What a tool has given comes back as it came. -/
structure Conveys (id : Json) (tool : String) (run : Tool.Run) (reply : Rpc.Reply) : Prop where
  id : reply.id = id
  text : ∀ output, run = .text output → reply.outcome = .result (textContent output)
  notFound : ∀ name, run = .failure (.notFound name) → reply.code? = some (-32601)
  invalidParams : ∀ details, run = .failure (.invalidParams details) → reply.code? = some (-32602)
  failed : ∀ details, run = .failure (.failed details) →
    reply.code? = some (-32603) ∧ reply.detail? "details" = some (.str details)
  crash : ∀ crash, run = .crash crash →
    reply.code? = some (-32603) ∧ reply.detail? "details" = some (.str crash.message)

theorem runReply_conveys (id : Json) (tool : String) (run : Tool.Run) : Conveys id tool run (runReply id tool run) where
  id := id_runReply tool run
  text := by rintro output rfl; rfl
  notFound := by rintro name rfl; rfl
  invalidParams := by rintro details rfl; rfl
  failed := by rintro details rfl; exact ⟨rfl, rfl⟩
  crash := by rintro crash rfl; exact ⟨rfl, rfl⟩

/-- A call of a tool, and what it does to the host. -/
def callHost {σ : Type} (host : Host σ) (id : Json) (params : Option Json) (s : σ) : Except Tool.Crash Rpc.Reply × σ :=
  match plan (host.at s) id params with
  | .error crash => (.error crash, s)
  | .ok (.error reply) => (.ok reply, s)
  | .ok (.ok course) =>
    let (run, s) := host.run course.tool course.arguments s
    (.ok (runReply id course.tool run), s)

theorem callHost_reply {σ : Type} (host : Host σ) (id : Json) (params : Option Json) (s : σ) :
    (callHost host id params s).1 = callTool (host.at s) id params := by
  unfold callHost callTool
  cases plan (host.at s) id params with
  | error crash => rfl
  | ok course => cases course <;> rfl

/-- A call that may runs its tool once, with the arguments it gives, and conveys what comes of it. Any other leaves
every host alone, and its reply says why. -/
theorem run_iff_permitted (listed : List Descriptor) (id : Json) (params : Option Json) :
    (∀ name members, Permits listed params name members → Handed members (stringify members) ∧
      ∀ (σ : Type) (host : Host σ) (s : σ), host.list s = .ok listed → ∃ reply,
        callTool (host.at s) id params = .ok reply ∧
        callHost host id params s = (.ok reply, (host.run name (stringify members) s).2) ∧
        Conveys id name (host.run name (stringify members) s).1 reply) ∧
    ((∀ name members, ¬ Permits listed params name members) → ∃ reply, Turned listed id params reply ∧
      ∀ (σ : Type) (host : Host σ) (s : σ), host.list s = .ok listed →
        callTool (host.at s) id params = .ok reply ∧ callHost host id params s = (.ok reply, s)) := by
  constructor
  · intro name members permits
    refine ⟨handed_stringify members, fun σ host s lists => ?_⟩
    have called : callHost host id params s = (.ok (runReply id name (host.run name (stringify members) s).1),
        (host.run name (stringify members) s).2) := by
      have planned : plan (host.at s) id params = _ := plan_permitted lists permits
      simp only [callHost, planned]
    refine ⟨_, ?_, called, runReply_conveys ..⟩
    rw [← callHost_reply, called]
  · intro barred
    obtain ⟨reply, turned, planned⟩ := plan_barred id barred
    refine ⟨reply, turned, fun σ host s lists => ?_⟩
    have called : callHost host id params s = (.ok reply, s) := by simp only [callHost, planned (host.at s) lists]
    exact ⟨by rw [← callHost_reply, called], called⟩

private def echoes : List Descriptor :=
  [⟨"echo", "", "", [⟨"text", "string", "", true⟩]⟩, ⟨"echo", "", "", [⟨"other", "string", "", true⟩]⟩]

/-- A host that keeps a record of the runs, each of which crashes. -/
private def recorder : Host (List (String × Tool.Arguments)) where
  list := fun _ => .ok echoes
  run := fun tool arguments runs => (.crash ⟨some "boom"⟩, runs ++ [(tool, arguments)])

private def echoCall : Json :=
  .obj [("arguments", .obj [("none", .null), ("text", .num (.int 3))]), ("name", .str "echo")]

theorem run_iff_permitted_recorded : ∃ reply,
    callHost recorder .null (some echoCall) [] = (.ok reply, [("echo", [("text", "3")])]) ∧
      reply.code? = some (-32603) ∧ reply.detail? "details" = some (.str "boom") := by
  have permits : Permits echoes (some echoCall) "echo" [("none", .null), ("text", .num (.int 3))] := by
    refine ⟨_, _, rfl, rfl, ⟨[], _, rfl, rfl, List.forall_mem_nil _⟩, .object _ rfl, ?_⟩
    intro p member _
    obtain rfl := List.mem_singleton.mp member
    exact ⟨_, List.mem_cons_of_mem _ (List.mem_singleton_self _), nofun⟩
  obtain ⟨_, runs⟩ := (run_iff_permitted _ .null _).1 "echo" _ permits
  obtain ⟨reply, _, called, conveys⟩ := runs _ recorder [] rfl
  have handed : stringify [("none", .null), ("text", .num (.int 3))] = [("text", "3")] := by decide +kernel
  rw [handed] at called conveys
  exact ⟨reply, called, conveys.crash ⟨some "boom"⟩ rfl⟩

end Dispatch

end ToolBridge

import Mathlib.Data.List.TakeWhile
import ToolBridge.Proofs.QueueHistory
import ToolBridge.Proofs.TextOctets

/-! Whether a body gets a reply, and under which id, whoever gives the outcome: the dispatcher, the tick when the
dispatcher crashes, or the stop. -/

namespace ToolBridge

/-! ## What a body says -/

namespace Text

theorem blank_of_trim {s : String} (nothing : trim s = "") : ∀ c ∈ s.toList, isBlank c = true := by
  have none_ : trimChars s.toList = [] := by simpa [trim] using congrArg String.toList nothing
  have ended : ∀ c ∈ s.toList.dropWhile isBlank, isBlank c = true := by
    simpa [trimChars, List.dropWhile_eq_nil_iff] using none_
  refine List.dropWhile_eq_nil_iff.mp ?_
  by_contra remains
  have first := List.head_dropWhile_not isBlank remains
  rw [ended _ (List.head_mem remains)] at first
  cases first

end Text

namespace Json

theorem parse_blank {s : String} (nothing : Text.trim s = "") : ∃ fault, parse s = .error fault := by
  have blanks : ∀ b ∈ Text.utf8 s, b.toNat < 0x80 → 9 ≤ b.toNat ∧ b.toNat ≤ 13 ∨ b.toNat = 0x20 := by
    intro b member ascii
    obtain ⟨c, inside, same⟩ := Text.mem_utf8 member (UInt8.lt_iff_toNat_lt.mpr ascii)
    have blank := Text.blank_of_trim nothing c inside
    simp only [Text.isBlank, same, Bool.or_eq_true, Bool.and_eq_true, decide_eq_true_eq, beq_iff_eq] at blank
    omega
  have unread : ∃ fault, readValue maxDepth (Text.utf8 s) = .error fault := by
    unfold readValue
    split
    next => exact ⟨_, rfl⟩
    next b rest front =>
      have member : b ∈ Text.utf8 s := (List.dropWhile_suffix _).subset (front ▸ List.mem_cons_self)
      have blank := blanks b member
      have digitless : isDigit b = false := by
        simp only [isDigit, Bool.and_eq_false_iff, decide_eq_false_iff_not, UInt8.le_iff_toNat_le, UInt8.reduceToNat]
        omega
      have other : ∀ x : UInt8, x.toNat < 0x80 → 0x20 < x.toNat → b ≠ x := by
        rintro x ascii solid rfl
        have := blank ascii
        omega
      refine ⟨.past (b :: rest) .expectedValue, ?_⟩
      simp only [beq_iff_eq, other 0x6E (by decide) (by decide), other 0x74 (by decide) (by decide),
        other 0x66 (by decide) (by decide), other 0x2D (by decide) (by decide), digitless,
        other 0x22 (by decide) (by decide), other 0x5B (by decide) (by decide), other 0x7B (by decide) (by decide),
        Bool.false_eq_true, if_false]
  obtain ⟨fault, unread⟩ := unread
  exact ⟨fault, by simp [parse, ofBytes, readAll, unread, bind, Except.bind, Except.map]⟩

end Json

namespace Rpc.Request

/-- The method of a body that is a well-formed call. -/
def method? (body : String) : Option String := do
  let value ← (Json.parse body).toOption
  let version ← (value.member? "jsonrpc").bind Json.asString?
  if version = "2.0" then (value.member? "method").bind Json.asString? else none

/-- The id that a body states. -/
def statedId (body : String) : Json := ((Json.parse body).toOption.bind (·.member? "id")).getD .null

/-- The tool that a body names in its parameters. -/
def namedTool? (body : String) : Option String :=
  ((Json.parse body).toOption.bind (·.member? "params")).bind Dispatch.toolName?

/-- The body is a well-formed call that wants no reply. -/
def WantsNone (body : String) : Prop :=
  ∃ method, method? body = some method ∧ (statedId body = .null ∨ "notifications/".toList <+: method.toList)

/-- The body is a well-formed call for which the tools have to be listed. -/
def AsksTools (body : String) : Prop :=
  method? body = some "tools/list" ∨ method? body = some "tools/call" ∧ (namedTool? body).isSome

theorem AsksTools.wellFormed {body : String} (asks : AsksTools body) : ∃ method, method? body = some method := by
  rcases asks with list | ⟨call, _⟩
  · exact ⟨_, list⟩
  · exact ⟨_, call⟩

/-- What a call holds of the body it was read from. -/
structure Holds (body : String) (call : Request) : Prop where
  method : method? body = some call.method
  id : call.idOrNull = statedId body
  silent : call.isNotification = true ↔ statedId body = .null
  tool : call.params.bind Dispatch.toolName? = namedTool? body

theorem Holds.wantsNone_iff {body : String} {call : Request} (holds : Holds body call) :
    WantsNone body ↔ call.isNotification = true ∨ "notifications/".toList <+: call.method.toList := by
  rw [holds.silent]
  constructor
  · rintro ⟨method, called, wants⟩
    cases holds.method.symm.trans called
    exact wants
  · exact fun wants => ⟨call.method, holds.method, wants⟩

/-- A refused body is no well-formed call, and is refused under its id. -/
structure Refuses (body : String) (refusal : Reply) : Prop where
  malformed : method? body = none
  id : refusal.id = statedId body

section Present
variable (j : Json) (name : String)

theorem present_cases : present? j name = none ∧ (j.member? name = none ∨ j.member? name = some .null) ∨
    ∃ value, present? j name = some value ∧ j.member? name = some value ∧ value ≠ .null := by
  unfold present?
  cases j.member? name with
  | none => exact Or.inl ⟨rfl, Or.inl rfl⟩
  | some value =>
    cases value with
    | null => exact Or.inl ⟨rfl, Or.inr rfl⟩
    | bool _ | num _ | str _ | arr _ | obj _ => exact Or.inr ⟨_, rfl, rfl, nofun⟩

theorem present_getD : (present? j name).getD .null = (j.member? name).getD .null := by
  rcases present_cases j name with ⟨absent, none_ | null⟩ | ⟨value, present, found, _⟩
  · rw [absent, none_]
  · rw [absent, null]; rfl
  · rw [present, found]

theorem present_isNone : (present? j name).isNone = true ↔ (j.member? name).getD .null = .null := by
  rw [← present_getD]
  rcases present_cases j name with ⟨absent, _⟩ | ⟨value, present, _, solid⟩
  · simp [absent]
  · simp [present, solid]

theorem present_bind {α : Type} {f : Json → Option α} (useless : f .null = none) :
    (present? j name).bind f = (j.member? name).bind f := by
  rcases present_cases j name with ⟨absent, none_ | null⟩ | ⟨value, present, found, _⟩
  · rw [absent, none_]
  · rw [absent, null, Option.bind_some, useless]; rfl
  · rw [present, found]

end Present

theorem refuses_unread {body : String} {fault : Json.Fault} (unread : Json.parse body = .error fault) {refusal : Reply}
    (unnamed : refusal.id = .null) : Refuses body refusal := by
  constructor
  · simp [method?, unread, Except.toOption]
  · simp [statedId, unread, Except.toOption, unnamed]

theorem ofJson_cases {body : String} {value : Json} (read : Json.parse body = .ok value) :
    (∃ call, ofJson value = .ok call ∧ Holds body call) ∨
      ∃ refusal, ofJson value = .error refusal ∧ Refuses body refusal := by
  have stated : statedId body = idOf value := by simp [statedId, idOf, read, Except.toOption]
  have named : namedTool? body = (value.member? "params").bind Dispatch.toolName? := by
    simp [namedTool?, read, Except.toOption]
  have called : method? body = ((value.member? "jsonrpc").bind Json.asString?).bind fun version =>
      if version = "2.0" then (value.member? "method").bind Json.asString? else none := by
    simp [method?, read, Except.toOption]
  unfold ofJson
  split
  next shapeless =>
    have memberless : ∀ name, value.member? name = none := by
      cases value <;> first | exact fun _ => rfl | cases shapeless
    refine Or.inr ⟨_, rfl, by simp [called, memberless], ?_⟩
    simp [stated, idOf, memberless, Reply.invalidRequest, Reply.failure]
  split
  next old =>
    refine Or.inr ⟨_, rfl, ?_, stated.symm⟩
    rw [called, Option.bind_eq_none_iff]
    rintro version found
    exact if_neg fun (same : version = "2.0") => old (same ▸ found)
  next current =>
    rw [not_not.mp current, Option.bind_some, if_pos rfl] at called
    split
    next unnamed => exact Or.inr ⟨_, rfl, called.trans unnamed, stated.symm⟩
    next method found =>
      refine Or.inl ⟨_, rfl, called.trans found, ?_, ?_, ?_⟩
      · exact (present_getD value "id").trans stated.symm
      · exact stated ▸ present_isNone value "id"
      · exact (present_bind value "params" rfl).trans named.symm

theorem parse_cases (body : String) :
    (∃ call, parse body = .ok call ∧ Holds body call) ∨
      ∃ refusal, parse body = .error refusal ∧ Refuses body refusal := by
  unfold parse
  by_cases nothing : Text.trim body = ""
  · obtain ⟨fault, unread⟩ := Json.parse_blank nothing
    exact Or.inr ⟨_, if_pos nothing, refuses_unread unread rfl⟩
  · rw [if_neg nothing]
    cases read : Json.parse body with
    | error fault => exact Or.inr ⟨_, rfl, refuses_unread read rfl⟩
    | ok value => exact ofJson_cases read

end Rpc.Request

/-! ## What is answered -/

namespace Dispatch

/-- The outcome has no reply just if none is wanted, and else one under the id. -/
structure Answer.Under (id : Json) (silent : Prop) (a : Answer) : Prop where
  silent : a.reply = none ↔ silent
  id : ∀ reply, a.reply = some reply → reply.id = id

namespace Answer.Under
variable {id : Json} {silent : Prop} {a : Answer}

theorem replied {reply : Rpc.Reply} (given : a.reply = some reply) (own : reply.id = id) (loud : ¬ silent) :
    a.Under id silent := by
  refine ⟨iff_of_false (given ▸ nofun) loud, fun other same => ?_⟩
  rw [given] at same
  exact Option.some.inj same ▸ own

theorem unreplied (given : a.reply = none) (quiet : silent) : a.Under id silent := by
  refine ⟨iff_of_true given quiet, fun reply same => ?_⟩
  rw [given] at same
  cases same

end Answer.Under

/-- The outcome is the one for the body. -/
def Answer.Suits (body : String) (a : Answer) : Prop :=
  a.Under (Rpc.Request.statedId body) (Rpc.Request.WantsNone body)

theorem ofName_named {name : String} {kind : Method} (loud : kind ≠ .notification) (known : kind ≠ .unknown) :
    Method.ofName name = kind ↔ (name, kind) ∈
      [("initialize", .handshake), ("tools/list", .toolsList), ("tools/call", .toolsCall), ("ping", Method.ping)] := by
  unfold Method.ofName
  split
  next => simp [eq_comm]
  next => simp [eq_comm]
  next => simp [eq_comm]
  next => simp [eq_comm]
  next handshake list call ping =>
    have other : (name, kind) ∉
        [("initialize", .handshake), ("tools/list", .toolsList), ("tools/call", .toolsCall), ("ping", Method.ping)] := by
      simp only [List.mem_cons, Prod.mk.injEq, List.not_mem_nil, or_false]
      rintro (⟨same, _⟩ | ⟨same, _⟩ | ⟨same, _⟩ | ⟨same, _⟩)
      exacts [handshake same, list same, call same, ping same]
    split
    · exact iff_of_false loud.symm other
    · exact iff_of_false known.symm other

theorem ofName_notification (name : String) :
    Method.ofName name = .notification ↔ "notifications/".toList <+: name.toList := by
  unfold Method.ofName
  split
  next => exact iff_of_false nofun (by decide +kernel)
  next => exact iff_of_false nofun (by decide +kernel)
  next => exact iff_of_false nofun (by decide +kernel)
  next => exact iff_of_false nofun (by decide +kernel)
  next =>
    split
    next start => exact iff_of_true rfl (List.isPrefixOf_iff_prefix.mp start)
    next other => exact iff_of_false nofun fun start => other (List.isPrefixOf_iff_prefix.mpr start)

theorem ofName_tools (name : String) : (Method.ofName name = .toolsList ↔ name = "tools/list") ∧
    (Method.ofName name = .toolsCall ↔ name = "tools/call") := by
  constructor <;> simp [ofName_named]

theorem map_ok_iff {α β ε : Type} {f : α → β} {result : Except ε α} {b : β} :
    result.map f = .ok b ↔ ∃ a, result = .ok a ∧ f a = b := by
  cases result <;> simp [Except.map]

theorem map_error_iff {α β ε : Type} {f : α → β} {result : Except ε α} {e : ε} :
    result.map f = .error e ↔ result = .error e := by
  cases result <;> simp [Except.map]

section Replies
variable {registry : Tool.Registry} {id : Json} {reply : Rpc.Reply} {crash : Tool.Crash}

theorem id_invocation {listed : List Tool.Descriptor} {tool : String} {params : Json}
    (refused : invocation listed id tool params = .error reply) : reply.id = id := by
  unfold invocation at refused
  split at refused
  · cases refused
    rfl
  split at refused
  · cases refused
    rfl
  · simp only at refused
    split at refused <;> cases refused
    rfl

theorem id_runReply (tool : String) (run : Tool.Run) : (runReply id tool run).id = id := by
  rcases run with _ | (_ | _ | _) | _ <;> rfl

theorem id_plan {params : Option Json} (refused : plan registry id params = .ok (.error reply)) : reply.id = id := by
  unfold plan at refused
  split at refused
  · cases refused
    rfl
  split at refused
  · cases refused
    rfl
  · obtain ⟨listed, _, refused⟩ := map_ok_iff.mp refused
    exact id_invocation refused

theorem id_callTool {params : Option Json} (replied : callTool registry id params = .ok reply) : reply.id = id := by
  obtain ⟨course, planned, rfl⟩ := map_ok_iff.mp replied
  cases course with
  | error refusal => exact id_plan planned
  | ok run => exact id_runReply ..

theorem id_listTools (replied : listTools registry id = .ok reply) : reply.id = id := by
  obtain ⟨listed, _, rfl⟩ := map_ok_iff.mp replied
  rfl

theorem callTool_crashes (params : Option Json) :
    callTool registry id params = .error crash ↔ (params.bind toolName?).isSome ∧ registry.list = .error crash := by
  unfold callTool plan
  rw [map_error_iff]
  cases params with
  | none => simp
  | some params => cases named : toolName? params <;> simp [named, map_error_iff]

end Replies

section Answer
variable (registry : Tool.Registry) (info : ServerInfo) (now : Int) (call : Rpc.Request) (session : Option String)
  (sessions : SessionTable)

theorem answer_under {a : Answer} (answered : (answer registry info now call session sessions).1 = .ok a) :
    a.Under call.idOrNull ("notifications/".toList <+: call.method.toList) := by
  rw [← ofName_notification]
  unfold answer at answered
  cases kind : Method.ofName call.method <;> simp only [kind] at answered
  case handshake | ping | unknown =>
    cases answered
    exact .replied rfl rfl nofun
  case notification =>
    cases answered
    exact .unreplied rfl rfl
  case toolsList =>
    obtain ⟨reply, listed, rfl⟩ := map_ok_iff.mp answered
    exact .replied rfl (id_listTools listed) nofun
  case toolsCall =>
    obtain ⟨reply, called, rfl⟩ := map_ok_iff.mp answered
    exact .replied rfl (id_callTool called) nofun

theorem answer_crashes (crash : Tool.Crash) :
    (answer registry info now call session sessions).1 = .error crash ↔
      (call.method = "tools/list" ∨ call.method = "tools/call" ∧ (call.params.bind toolName?).isSome) ∧
        registry.list = .error crash := by
  rw [← (ofName_tools call.method).1, ← (ofName_tools call.method).2]
  unfold answer
  cases Method.ofName call.method
  case toolsList => simp [listTools, map_error_iff]
  case toolsCall => simp [callTool_crashes, map_error_iff]
  all_goals simp

section Body
variable (body : String)

theorem dispatch_suits {a : Answer} (answered : (dispatch registry info now body session sessions).1 = .ok a) :
    a.Suits body := by
  unfold dispatch at answered
  rcases Rpc.Request.parse_cases body with ⟨call, read, holds⟩ | ⟨refusal, read, refuses⟩
  · simp only [read] at answered
    obtain ⟨first, given, rfl⟩ := map_ok_iff.mp answered
    have under := answer_under registry info now call session sessions given
    rw [Answer.Suits, holds.wantsNone_iff, ← holds.id]
    split
    next silent => exact .unreplied rfl (Or.inl silent)
    next loud => exact ⟨under.silent.trans (or_iff_right loud).symm, under.id⟩
  · simp only [read] at answered
    cases answered
    refine .replied rfl refuses.id ?_
    rintro ⟨method, called, _⟩
    cases refuses.malformed.symm.trans called

theorem dispatch_crashes (crash : Tool.Crash) :
    (dispatch registry info now body session sessions).1 = .error crash ↔
      Rpc.Request.AsksTools body ∧ registry.list = .error crash := by
  unfold dispatch
  rcases Rpc.Request.parse_cases body with ⟨call, read, holds⟩ | ⟨refusal, read, refuses⟩
  · simp only [read, map_error_iff, answer_crashes, Rpc.Request.AsksTools, holds.method, ← holds.tool,
      Option.some.injEq]
  · simp [read, Rpc.Request.AsksTools, refuses.malformed]

end Body

end Answer

end Dispatch

namespace Server
open Dispatch Rpc.Request

section
variable (registry : Tool.Registry) (now : Int) (p : Queue.Pending) (h : Hub)

/-- A crash is told under no id, and whether or not a reply is wanted. -/
theorem perform_suits : (Tick.perform registry now p h).1.Suits p.body ↔
    ¬ (AsksTools p.body ∧ ∃ crash, registry.list = .error crash) := by
  have crashes := dispatch_crashes registry h.info now p.session h.sessions p.body
  have suits := fun a => dispatch_suits (a := a) registry h.info now p.session h.sessions p.body
  unfold Tick.perform
  generalize dispatch registry h.info now p.body p.session h.sessions = dispatched at crashes suits ⊢
  obtain ⟨result, sessions⟩ := dispatched
  cases result with
  | ok a =>
    refine iff_of_true (suits a rfl) ?_
    rintro ⟨asks, crash, listed⟩
    cases (crashes crash).mpr ⟨asks, listed⟩
  | error crash =>
    obtain ⟨asks, listed⟩ := (crashes crash).mp rfl
    refine iff_of_false ?_ (not_not.mpr ⟨asks, crash, listed⟩)
    intro suits
    have unstated : .null = statedId p.body := suits.id _ rfl
    obtain ⟨method, called⟩ := asks.wellFormed
    cases suits.silent.mpr ⟨method, called, Or.inl unstated.symm⟩

/-- A stop answers under the right id, but whether or not a reply is wanted. -/
theorem refusal_reply : (Hub.refusal p).reply = some (.shuttingDown (statedId p.body)) := by
  have same : ((Json.parse p.body).toOption.map idOf).getD .null = statedId p.body := by
    unfold statedId
    cases (Json.parse p.body).toOption <;> rfl
  rw [← same]
  rfl

theorem refusal_suits : (Hub.refusal p).Suits p.body ↔ ¬ WantsNone p.body := by
  constructor
  · intro suits silent
    cases (refusal_reply p).symm.trans (suits.silent.mpr silent)
  · exact .replied (refusal_reply p) rfl

/-- The dispatcher gives every body the outcome that suits it, or crashes, which it does just if the tools have to
be listed for the body and cannot be. What a tick hands over suits just if the dispatcher did not crash; what a
stop hands over suits just if a reply is wanted. -/
theorem outcomes_suit_iff :
    ((∀ a, (dispatch registry h.info now p.body p.session h.sessions).1 = .ok a → a.Suits p.body) ∧
      ∀ crash, (dispatch registry h.info now p.body p.session h.sessions).1 = .error crash ↔
        AsksTools p.body ∧ registry.list = .error crash) ∧
    ((Tick.process registry now p h).slots = h.slots.settle p (Tick.perform registry now p h).1 ∧
      ((Tick.perform registry now p h).1.Suits p.body ↔
        ¬ (AsksTools p.body ∧ ∃ crash, registry.list = .error crash))) ∧
    (h.refuseQueued p).slots = h.slots.settle p (Hub.refusal p) ∧
      ((Hub.refusal p).Suits p.body ↔ ¬ WantsNone p.body) := by
  have ran := ((Job.run registry now).desk_work p h).2.2
  have refused := (Job.refuse.desk_work p h).2.2
  simp only [Job.work] at ran refused
  refine ⟨⟨fun a => ?_, ?_⟩, ⟨ran, perform_suits registry now p h⟩, refused, refusal_suits p⟩
  · exact dispatch_suits registry h.info now p.session h.sessions p.body
  · exact dispatch_crashes registry h.info now p.session h.sessions p.body

end

/-- A call for the tools, of a host whose tools cannot be listed, and a notification. -/
private def listing : Queue.Pending :=
  { connection := 1, path := "/", headers := [], session := none, route := .direct 1
    body := "\x7b\"jsonrpc\":\"2.0\",\"id\":7,\"method\":\"tools/list\"\x7d" }

private def unlisted : Tool.Registry := ⟨.error ⟨some "boom"⟩, fun _ _ => .text ""⟩

private def note : Queue.Pending :=
  { connection := 1, path := "/", headers := [], session := none, route := .direct 1
    body := "\x7b\"jsonrpc\":\"2.0\",\"method\":\"notifications/initialized\"\x7d" }

theorem outcomes_suit_iff_unlisted :
    ¬ (Tick.perform unlisted 0 listing {}).1.Suits listing.body ∧ ¬ (Hub.refusal note).Suits note.body := by
  have asks : AsksTools listing.body := Or.inl (by decide +kernel)
  have silent : WantsNone note.body :=
    ⟨"notifications/initialized", by decide +kernel, Or.inr (by decide +kernel)⟩
  obtain ⟨_, ⟨_, ticked⟩, _⟩ := outcomes_suit_iff unlisted 0 listing {}
  obtain ⟨_, _, _, stopped⟩ := outcomes_suit_iff unlisted 0 note {}
  rw [ticked, stopped, not_not, not_not]
  exact ⟨⟨asks, ⟨some "boom"⟩, rfl⟩, silent⟩

end Server

end ToolBridge

import ToolBridge.Server.Route

/-! Requests that are refused. Nothing has changed by then, and for one that shows no key nothing but the
configuration has been looked at. -/

namespace ToolBridge

theorem SessionTable.close_unknown {id : String} {t : SessionTable} (unknown : t.contains id = false) :
    t.close id = (false, t) := by
  have others : ∀ s ∈ t.sessions, s.id ≠ id := by simpa [contains, get?] using unknown
  have kept : t.sessions.filter (·.id != id) = t.sessions :=
    List.filter_eq_self.mpr fun s member => bne_iff_ne.mpr (others s member)
  rw [close, unknown, kept]

namespace Server.Hub
variable {now : Int} {session : String} {h : Hub}

theorem touch_known (known : h.sessions.contains session = true) :
    h.touch now session = (true, { h with sessions := h.sessions.refresh now session }) := by
  simp [touch, SessionTable.touch, known]

theorem touch_unknown (unknown : h.sessions.contains session = false) : h.touch now session = (false, h) := by
  simp [touch, SessionTable.touch, unknown]

end Server.Hub

namespace Rejection

@[simp] theorem status_response (rejection : Rejection) : rejection.response.status = rejection.status := by
  cases rejection <;> rfl

theorem status_mem (rejection : Rejection) : rejection.status ∈ [400, 401, 403, 404, 405] := by
  cases rejection <;> simp [status]

theorem headers_named (rejection : Rejection) : ∀ field ∈ rejection.response.headers,
    field.1 ∈ ["Content-Type", "WWW-Authenticate", "Connection", "Allow"] := by
  cases rejection <;> simp [response, Http.Response.json, Http.Response.ofStatus, Http.Response.withBody,
    Http.Response.withHeader]

theorem unshared (rejection : Rejection) : rejection.response.header? "Access-Control-Allow-Origin" = none := by
  rw [Http.Response.header?, Option.map_eq_none_iff, List.find?_eq_none]
  intro field member
  have others : ∀ name ∈ ["Content-Type", "WWW-Authenticate", "Connection", "Allow"],
      ¬ Text.sameLetters name "Access-Control-Allow-Origin" := by decide +kernel
  exact others field.1 (rejection.headers_named field member)

end Rejection

namespace Access
variable {c : Config} {r : Http.Request} {rejection : Rejection}

theorem status_checkVersion (failed : checkVersion r = .error rejection) : rejection.status = 400 := by
  unfold checkVersion at failed
  split at failed
  · split at failed <;> cases failed
    rfl
  · cases failed

theorem status_checkOrigin (failed : checkOrigin c r = .error rejection) : rejection.status = 403 := by
  unfold checkOrigin at failed
  split at failed
  · split at failed <;> cases failed
    rfl
  · cases failed

theorem check_unmatched {key : String} (keyed : c.effectiveKey = some key) (unmatched : keyMatches r key = false) :
    ∃ rejection, check c r = .error rejection ∧ rejection.status ∈ [400, 401, 403] := by
  have keyless : checkKey c r = .error .unauthorized := by simp [checkKey, keyed, unmatched]
  cases version : checkVersion r with
  | error rejection =>
    refine ⟨rejection, by rw [check, version]; rfl, ?_⟩
    simp [status_checkVersion version]
  | ok =>
    cases origin : checkOrigin c r with
    | error rejection =>
      refine ⟨rejection, by rw [check, version, origin]; rfl, ?_⟩
      simp [status_checkOrigin origin]
    | ok => exact ⟨.unauthorized, by rw [check, version, origin, keyless]; rfl, by decide⟩

end Access

namespace Server

/-- The request is let in: it is handed on, or is answered as no refused one is. -/
def Routed.Admits : Routed → Prop
  | .respond response _ => response.status ∈ [200, 202, 204, 503]
  | .park .. | .stream .. => True

namespace Route

theorem not_admits_reject (rejection : Rejection) : ¬ (reject rejection).Admits := by
  have refused := rejection.status_mem
  simp only [reject, Routed.Admits, Rejection.status_response]
  intro admitted
  simp only [List.mem_cons, List.not_mem_nil, or_false] at refused admitted
  omega

/-- The request is let in, or is refused for one of the reasons and leaves no trace in the hub. -/
def Judged (reasons : List Rejection) (h : Hub) (result : Routed × Hub) : Prop :=
  result.1.Admits ∨ ∃ rejection ∈ reasons, result = (reject rejection, h)

theorem Judged.mono {few more : List Rejection} {h : Hub} {result : Routed × Hub} (judged : Judged few h result)
    (inside : few ⊆ more) : Judged more h result :=
  judged.imp_right fun ⟨rejection, reason, refused⟩ => ⟨rejection, inside reason, refused⟩

section Judged
variable (now : Int) (c : Config) (r : Http.Request) (connection : Nat) (headers : List (String × String)) (h : Hub)

theorem postOnStream_judged (session : String) :
    (∃ response, (postOnStream now r connection session h).1 = .ok response ∧ response.status ∈ [202, 503]) ∨
      postOnStream now r connection session h = (.error .sessionNotFound, h) := by
  -- Once the session has been refreshed, only the queue can turn the request away, and that is no rejection.
  cases known : h.sessions.contains session with
  | false => exact Or.inr (by simp [postOnStream, Hub.touch_unknown known])
  | true =>
    simp only [postOnStream, Hub.touch_known known, Bool.not_true, Bool.false_eq_true, if_false]
    cases h.queue.push? (pending r connection (some session) .stream) with
    | some queue => exact Or.inl ⟨_, rfl, by decide⟩
    | none => exact Or.inl ⟨_, rfl, by decide +kernel⟩

theorem recognise_judged (session : Option String) :
    (recognise now r session h).1 = none ∨ recognise now r session h = (some .sessionNotFound, h) := by
  cases session with
  | none => exact Or.inl rfl
  | some id =>
    cases known : h.sessions.contains id with
    | true => exact Or.inl (by simp [recognise, Hub.touch_known known])
    | false =>
      simp only [recognise, Hub.touch_unknown known, Bool.false_or]
      split
      · exact Or.inl rfl
      · exact Or.inr rfl

theorem postDirect_judged : Judged [.sessionNotFound] h (postDirect now r connection headers h) := by
  simp only [postDirect]
  rcases recognise_judged now r h (r.header? Access.sessionHeader) with known | refused
  · refine Or.inl ?_
    generalize recognise now r (r.header? Access.sessionHeader) h = recognised at known ⊢
    obtain ⟨_, after⟩ := recognised
    cases known
    dsimp only
    split
    · trivial
    · exact (by decide +kernel : 503 ∈ [200, 202, 204, 503])
  · exact Or.inr ⟨_, List.mem_singleton.mpr rfl, by simp only [refused]⟩

theorem post_judged : Judged [.sessionNotFound] h (post now r connection headers h) := by
  unfold post
  split
  next session _ =>
    rcases postOnStream_judged now r connection h session with ⟨response, answered, status⟩ | refused
    · refine Or.inl ?_
      generalize postOnStream now r connection session h = posted at answered ⊢
      obtain ⟨_, after⟩ := posted
      cases answered
      exact (by decide : [202, 503] ⊆ [200, 202, 204, 503]) status
    · exact Or.inr ⟨_, List.mem_singleton.mpr rfl, by simp only [refused]⟩
  next => exact postDirect_judged ..

theorem openStream_judged : Judged [.sessionNotFound] h (openStream now c r connection headers h) := by
  unfold openStream streamSession
  cases r.header? Access.sessionHeader with
  | none => exact Or.inl trivial
  | some session =>
    cases known : h.sessions.contains session with
    | true =>
      simp only [Hub.touch_known known, if_true]
      exact Or.inl trivial
    | false =>
      refine Or.inr ⟨_, List.mem_singleton.mpr rfl, ?_⟩
      simp [Hub.touch_unknown known]

theorem closeSession_judged :
    (∃ response, (closeSession r h).1 = .ok response ∧ response.status = 204) ∨
      ∃ rejection ∈ [.missingSession, .sessionNotFound], closeSession r h = (.error rejection, h) := by
  unfold closeSession
  cases r.header? Access.sessionHeader with
  | none => exact Or.inr ⟨.missingSession, by decide, rfl⟩
  | some session =>
    cases known : h.sessions.contains session with
    | true =>
      have closed : (h.sessions.close session).1 = true := known
      simp only [closed, if_true]
      exact Or.inl ⟨_, rfl, rfl⟩
    | false => exact Or.inr ⟨.sessionNotFound, by decide, by simp [SessionTable.close_unknown known]⟩

theorem checked_judged (other : r.method ≠ "OPTIONS") (passed : Access.check c r = .ok ()) :
    Judged [.missingSession, .sessionNotFound, .notFound, .methodNotAllowed] h (route now c r connection h) := by
  simp only [route, if_neg other, passed]
  split
  · exact Or.inl (by decide +kernel : 200 ∈ [200, 202, 204, 503])
  split
  · exact Or.inr ⟨_, by decide, rfl⟩
  split
  · exact (post_judged ..).mono (by decide)
  split
  · exact (openStream_judged ..).mono (by decide)
  split
  · rcases closeSession_judged r h with ⟨response, answered, status⟩ | ⟨rejection, reason, refused⟩
    · refine Or.inl ?_
      generalize closeSession r h = closed at answered ⊢
      obtain ⟨_, after⟩ := closed
      cases answered
      change response.status ∈ [200, 202, 204, 503]
      rw [status]
      decide
    · rw [refused]
      exact Or.inr ⟨rejection, (by decide : [.missingSession, .sessionNotFound] ⊆ _) reason, rfl⟩
  · exact Or.inr ⟨_, by decide, rfl⟩

/-- What a page of another origin asks first is judged by its origin alone. -/
theorem route_preflight (asks : r.method = "OPTIONS") : route now c r connection h = (preflight c r, h) := if_pos asks

theorem route_unchecked {rejection : Rejection} (other : r.method ≠ "OPTIONS")
    (failed : Access.check c r = .error rejection) : route now c r connection h = (reject rejection, h) := by
  simp only [route, if_neg other, failed]

theorem preflight_judged : (preflight c r).Admits ∨ ∃ rejection, preflight c r = reject rejection := by
  unfold preflight
  split
  · exact Or.inr ⟨_, rfl⟩
  · exact Or.inl (by decide +kernel : 204 ∈ [200, 202, 204, 503])

theorem route_judged :
    (route now c r connection h).1.Admits ∨ ∃ rejection, route now c r connection h = (reject rejection, h) := by
  by_cases asks : r.method = "OPTIONS"
  · rw [route_preflight now c r connection h asks]
    exact (preflight_judged c r).imp_right fun ⟨rejection, refused⟩ => ⟨rejection, by rw [refused]⟩
  · cases checked : Access.check c r with
    | error rejection => exact Or.inr ⟨rejection, route_unchecked now c r connection h asks checked⟩
    | ok =>
      obtain admitted | ⟨rejection, _, refused⟩ := checked_judged now c r connection h asks checked
      · exact Or.inl admitted
      · exact Or.inr ⟨rejection, refused⟩

end Judged

/-- A request that is refused has changed nothing, and no page of another origin may read the answer. -/
theorem refused_without_trace {now : Int} {c : Config} {r : Http.Request} {connection : Nat} {h : Hub}
    {rejection : Rejection} (refused : (route now c r connection h).1 = reject rejection) :
    (route now c r connection h).2 = h ∧ rejection.response.header? "Access-Control-Allow-Origin" = none := by
  refine ⟨?_, rejection.unshared⟩
  rcases route_judged now c r connection h with admitted | ⟨reason, same⟩
  · rw [refused] at admitted
    exact absurd admitted (not_admits_reject rejection)
  · rw [same]

private def busy : Hub :=
  { sessions := (({} : SessionTable).create 0).2
    queue := { items := [⟨1, "POST", "/", [], "", none, .stream⟩] }
    events := [.sessionOpened "s"] }

private def stray : Http.Request :=
  { method := "POST", path := "/", version := "HTTP/1.1", query := [("sessionId", "gone")] }

theorem refused_without_trace_stray :
    (route 5 {} stray 2 busy).1 = reject .sessionNotFound ∧ (route 5 {} stray 2 busy).2 = busy := by
  have refused : (route 5 {} stray 2 busy).1 = reject .sessionNotFound := rfl
  exact ⟨refused, (refused_without_trace refused).1⟩

theorem keyless_fixed {c : Config} {r : Http.Request} {key : String} (keyed : c.effectiveKey = some key)
    (unmatched : Access.keyMatches r key = false) :
    ∃ answer, (∀ now connection h, route now c r connection h = (answer, h)) ∧
      (r.method ≠ "OPTIONS" → ∃ rejection, answer = reject rejection ∧ rejection.status ∈ [400, 401, 403]) := by
  by_cases asks : r.method = "OPTIONS"
  · exact ⟨preflight c r, fun now connection h => route_preflight now c r connection h asks, absurd asks⟩
  · obtain ⟨rejection, failed, status⟩ := Access.check_unmatched keyed unmatched
    exact ⟨reject rejection, fun now connection h => route_unchecked now c r connection h asks failed,
      fun _ => ⟨rejection, rfl, status⟩⟩

/-- A request without the key that is asked for is answered alike by any two hubs and changes neither; unless it
only asks what may be asked, it is refused. -/
theorem keyless_apart {c : Config} {r : Http.Request} {key : String} (keyed : c.effectiveKey = some key)
    (unmatched : Access.keyMatches r key = false) (now later : Int) (connection other : Nat) (h g : Hub) :
    (route now c r connection h).1 = (route later c r other g).1 ∧
    (route now c r connection h).2 = h ∧ (route later c r other g).2 = g ∧
    (r.method ≠ "OPTIONS" → ∃ response close, (route now c r connection h).1 = .respond response close ∧
      response.status ∈ [400, 401, 403]) := by
  obtain ⟨answer, fixed, refused⟩ := keyless_fixed keyed unmatched
  simp only [fixed, true_and]
  intro asks
  obtain ⟨rejection, rfl, status⟩ := refused asks
  refine ⟨rejection.response, rejection.closes, rfl, ?_⟩
  rw [Rejection.status_response]
  exact status

private def secured : Config := { apiKey := some "secret" }

private def guess : Http.Request :=
  { method := "POST", path := "/", version := "HTTP/1.1", headers := [("authorization", "Bearer guess")] }

theorem keyless_apart_guess : secured.effectiveKey = some "secret" ∧ Access.keyMatches guess "secret" = false ∧
    (route 0 secured guess 1 {}).1 = (route 5 secured guess 2 busy).1 ∧ (route 5 secured guess 2 busy).2 = busy := by
  have keyed : secured.effectiveKey = some "secret" := by decide +kernel
  have unmatched : Access.keyMatches guess "secret" = false := by decide +kernel
  obtain ⟨same, _, kept, _⟩ := keyless_apart keyed unmatched 0 5 1 2 {} busy
  exact ⟨keyed, unmatched, same, kept⟩

end Route

end Server

end ToolBridge

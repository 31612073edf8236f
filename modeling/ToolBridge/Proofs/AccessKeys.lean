import ToolBridge.Access
import ToolBridge.Proofs.ReadFields

/-! Showing a key. A request may show it bare, in a header of its own or as its authorization, or as an authorization
behind the word bearer. An authorization that begins with that word is never taken for a bare key, so a key which
itself begins so is overlooked where it comes bare and nowhere else. -/

namespace ToolBridge.Access

/-- The word bearer in any letter case, a blank, and a rest that is the key once the blanks around it are gone. -/
def BearerOf (key text : String) : Prop :=
  ∃ scheme rest, text = scheme ++ " " ++ rest ∧ Text.sameLetters scheme "bearer" ∧ Text.trim rest = key

/-- The header is there, and holds the text once the blanks around it are gone. -/
def Tells (r : Http.Request) (name text : String) : Prop := (r.header? name).map Text.trim = some text

instance (r : Http.Request) (name text : String) : Decidable (Tells r name text) := inferInstanceAs (Decidable (_ = _))

/-- The forms in which a request may show a key. -/
inductive Shows (r : Http.Request) (key : String) : Prop
  | own (told : Tells r "x-api-key" key)
  | bare (told : Tells r "authorization" key)
  | bearer {text : String} (told : Tells r "authorization" text) (behind : BearerOf key text)

/-- The key comes bare as the authorization alone, and reads as the word bearer and a rest. -/
structure Overlooked (r : Http.Request) (key : String) : Prop where
  bare : Tells r "authorization" key
  reads : ∃ rest, BearerOf rest key
  alone : ¬ Tells r "x-api-key" key

/-! ## What an authorization offers -/

theorem length_trim_le (s : String) : (Text.trim s).toList.length ≤ s.toList.length := by
  have front := (List.dropWhile_sublist Text.isBlank (l := s.toList)).length_le
  have back := (List.dropWhile_sublist Text.isBlank (l := (s.toList.dropWhile Text.isBlank).reverse)).length_le
  rw [List.length_reverse] at back
  rw [Text.trim, String.toList_ofList, Text.trimChars, List.length_reverse]
  exact back.trans front

theorem not_bearerOf_self (key : String) : ¬ BearerOf key key := by
  rintro ⟨scheme, rest, whole, _, trimmed⟩
  have shorter := length_trim_le rest
  rw [trimmed, whole, String.toList_append, String.toList_append, List.length_append, List.length_append] at shorter
  have blank : " ".toList.length = 1 := rfl
  omega

theorem blank_notMem_of_bearer {scheme : String} (same : Text.sameLetters scheme "bearer" = true) :
    ' ' ∉ scheme.toList := by
  intro member
  have lowered : ' ' ∈ (Text.lower scheme).toList := by
    rw [Text.lower, String.toList_ofList]
    exact List.mem_map.mpr ⟨' ', member, by decide⟩
  rw [beq_iff_eq.mp same] at lowered
  exact absurd lowered (by decide +kernel)

section
variable {authorization key : String}

theorem offeredKey_of_bearer (behind : BearerOf key (Text.trim authorization)) : offeredKey authorization = key := by
  obtain ⟨scheme, rest, whole, same, trimmed⟩ := behind
  have cut : Text.cutAt ' ' (scheme ++ " " ++ rest) = some (scheme, rest) := Text.cutAt_first (blank_notMem_of_bearer same)
  simp only [offeredKey, whole, cut, same, if_true, trimmed]

theorem offeredKey_of_bare (bare : ∀ rest, ¬ BearerOf rest (Text.trim authorization)) :
    offeredKey authorization = Text.trim authorization := by
  simp only [offeredKey]
  cases cut : Text.cutAt ' ' (Text.trim authorization) with
  | none => rfl
  | some parts =>
    obtain ⟨scheme, rest⟩ := parts
    have whole : Text.trim authorization = scheme ++ " " ++ rest := by
      rw [← String.toList_inj, Text.cutAt_parts cut]
      simp [String.toList_append]
    have other : ¬ Text.sameLetters scheme "bearer" = true := fun same => bare _ ⟨scheme, rest, whole, same, rfl⟩
    exact if_neg other

theorem offeredKey_eq_iff : offeredKey authorization = key ↔ BearerOf key (Text.trim authorization) ∨
    Text.trim authorization = key ∧ ∀ rest, ¬ BearerOf rest key := by
  by_cases reads : ∃ rest, BearerOf rest (Text.trim authorization)
  · obtain ⟨rest, behind⟩ := reads
    rw [offeredKey_of_bearer behind]
    constructor
    · rintro rfl
      exact Or.inl behind
    · rintro (again | ⟨rfl, bare⟩)
      · exact (offeredKey_of_bearer behind).symm.trans (offeredKey_of_bearer again)
      · exact absurd behind (bare rest)
  · rw [not_exists] at reads
    rw [offeredKey_of_bare reads]
    constructor
    · rintro rfl
      exact Or.inr ⟨rfl, reads⟩
    · rintro (behind | ⟨same, _⟩)
      · exact absurd behind (reads key)
      · exact same

end

/-! ## The check -/

variable {c : Config} {r : Http.Request} {key : String}

theorem keyMatches_iff : keyMatches r key = true ↔ Shows r key ∧ ¬ Overlooked r key := by
  have offers : (r.header? "authorization").map offeredKey = some key ↔
      (∃ text, Tells r "authorization" text ∧ BearerOf key text) ∨
        Tells r "authorization" key ∧ ∀ rest, ¬ BearerOf rest key := by
    unfold Tells
    cases r.header? "authorization" with
    | none => simp
    | some value => simp [offeredKey_eq_iff]
  have own : (r.header? "x-api-key").map Text.trim = some key ↔ Tells r "x-api-key" key := Iff.rfl
  rw [keyMatches, Bool.or_eq_true, beq_iff_eq, beq_iff_eq, offers, own]
  constructor
  · rintro ((⟨text, told, behind⟩ | ⟨told, plain⟩) | told)
    · refine ⟨.bearer told behind, fun overlooked => not_bearerOf_self key ?_⟩
      -- an authorization that is the key cannot hold the key behind a word
      cases told.symm.trans overlooked.bare
      exact behind
    · exact ⟨.bare told, fun overlooked => overlooked.reads.elim plain⟩
    · exact ⟨.own told, fun overlooked => overlooked.alone told⟩
  · rintro ⟨shows | told | ⟨told, behind⟩, seen⟩
    · exact Or.inr shows
    · by_cases alone : Tells r "x-api-key" key
      · exact Or.inr alone
      · exact Or.inl (Or.inr ⟨told, fun rest reads => seen ⟨told, ⟨rest, reads⟩, alone⟩⟩)
    · exact Or.inl (Or.inl ⟨_, told, behind⟩)

/-- Where a key is asked for and all else about a request passes, it is let in just if it shows the key and the key is
not overlooked; else it is refused for want of the key. -/
theorem admitted_iff_shown {given : String} (configured : c.apiKey = some given) (asked : Text.trim given ≠ "")
    (version : checkVersion r = .ok ()) (origin : checkOrigin c r = .ok ()) :
    (check c r = .ok () ↔ Shows r (Text.trim given) ∧ ¬ Overlooked r (Text.trim given)) ∧
    (check c r = .error .unauthorized ↔ ¬ Shows r (Text.trim given) ∨ Overlooked r (Text.trim given)) := by
  have keyed : c.effectiveKey = some (Text.trim given) := by simp [Config.effectiveKey, configured, asked]
  have result : check c r = if keyMatches r (Text.trim given) then .ok () else .error .unauthorized := by
    rw [check, version, origin]
    simp only [checkKey, keyed]
    rfl
  rw [result, ← not_iff_not (b := _ ∨ _), not_or, not_not, ← keyMatches_iff]
  cases keyMatches r (Text.trim given) <;> simp

private def secured : Config := { apiKey := some " Bearer x\n" }

private def asking (headers : Http.Fields) : Http.Request := { method := "GET", version := "HTTP/1.1", headers }

theorem admitted_iff_shown_overlooked : Text.trim " Bearer x\n" = "Bearer x" ∧
    check secured (asking [("authorization", "Bearer x")]) = .error .unauthorized ∧
    check secured (asking [("authorization", "bEARER  Bearer x")]) = .ok () := by
  have trimmed : Text.trim " Bearer x\n" = "Bearer x" := by decide +kernel
  have asked : Text.trim " Bearer x\n" ≠ "" := by rw [trimmed]; decide
  refine ⟨trimmed, ?_, ?_⟩
  · refine (admitted_iff_shown (c := secured) rfl asked rfl rfl).2.mpr (Or.inr ?_)
    rw [trimmed]
    exact ⟨by decide +kernel, ⟨"x", "Bearer", "x", by decide, by decide +kernel, by decide +kernel⟩, by decide +kernel⟩
  · refine (admitted_iff_shown (c := secured) rfl asked rfl rfl).1.mpr ?_
    rw [trimmed]
    have behind : BearerOf "Bearer x" "bEARER  Bearer x" :=
      ⟨"bEARER", " Bearer x", by decide, by decide +kernel, by decide +kernel⟩
    exact ⟨.bearer (by decide +kernel) behind, fun overlooked => absurd overlooked.bare (by decide +kernel)⟩

end ToolBridge.Access

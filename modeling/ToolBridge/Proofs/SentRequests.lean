import ToolBridge.Proofs.SentBodies
import ToolBridge.Proofs.SentHeads

/-! Requests as they are sent: a head and the body that it announces, by its length or in chunks. -/

namespace ToolBridge.Http

inductive SentBody where
  | sized (content : Bytes)
  | chunked (body : ChunkedBody)

namespace SentBody

def content : SentBody → Bytes
  | sized content => content
  | chunked body => body.content

def bytes : SentBody → Bytes
  | sized content => content
  | chunked body => body.bytes

def framing : SentBody → Bytes
  | sized _ => []
  | chunked body => body.framing

end SentBody

def Head.valuesOf (h : Head) (name : String) : List String :=
  Fields.valuesOf name (h.headers.map (·.field))

/-- A length is left out only of an empty body, and never given twice. -/
def Head.Announces (h : Head) : SentBody → Prop
  | .sized content =>
    h.valuesOf "transfer-encoding" = [] ∧
      (h.valuesOf "content-length" = [] ∧ content = [] ∨
        ∃ value, h.valuesOf "content-length" = [value] ∧ Text.Spells 10 value content.length)
  | .chunked _ => ∃ value ∈ h.valuesOf "transfer-encoding", Text.contains "chunked" (Text.lower value) = true

/-- A short head with one header line. -/
def postHead (header : HeaderLine) : Head where
  blanks := []
  method := "POST"
  target := "/mcp?id=a%20b"
  version := "HTTP/1.1"
  ending := .crlf
  headers := [header]
  close := .crlf
  method_ne := by decide
  method_capital := by simp
  target_ne := by decide
  target_solid := by simp [Text.Solid, Text.isBlank]
  version_one := by decide
  version_solid := by simp [Text.Solid, Text.isBlank]

def inChunks : HeaderLine where
  name := "Transfer-Encoding"
  gap := " "
  value := "chunked"
  ending := .crlf
  named := by decide
  name_trimmed := by decide
  name_undivided := by decide
  name_single := by decide
  gap_plain := by simp
  value_trimmed := by decide
  value_single := by decide

theorem announces_inChunks (body : ChunkedBody) : (postHead inChunks).Announces (.chunked body) :=
  ⟨"chunked", by decide, by decide⟩

theorem get?_fields (h : Head) (name : String) :
    h.fields.get? name =
      if h.valuesOf name = [] then none else some (", ".intercalate (h.valuesOf name)) := by
  rw [Head.fields, Fields.get?_merged, Head.valuesOf]
  by_cases given : name ∈ (h.headers.map (·.field)).map (·.1)
  · rw [if_pos given, if_neg (mt Fields.valuesOf_eq_nil.mp (not_not_intro given))]
  · rw [if_neg given, if_pos (Fields.valuesOf_eq_nil.mpr given)]

theorem isChunked_sized {h : Head} {content : Bytes} (announced : h.Announces (.sized content)) :
    isChunked h.fields = false := by
  have none := get?_fields h "transfer-encoding"
  rw [if_pos announced.1] at none
  simp [isChunked, none]

theorem isChunked_chunked {h : Head} {body : ChunkedBody} (announced : h.Announces (.chunked body)) :
    isChunked h.fields = true := by
  obtain ⟨value, given, chunked⟩ := announced
  have some := get?_fields h "transfer-encoding"
  rw [if_neg (List.ne_nil_of_mem given)] at some
  have found := (Text.contains_iff _ _).mp chunked
  simp only [Text.lower, String.toList_ofList] at found
  simp only [isChunked, some, Text.contains_iff, Text.lower, String.toList_ofList]
  exact found.trans ((Fields.infix_join given).map _)

theorem readBody_sized {h : Head} {content : Bytes} {limit : Nat} (announced : h.Announces (.sized content))
    (word : limit < UInt64.size) (within : content.length ≤ limit) (rest : Bytes) :
    readBody limit h.fields (content ++ rest) = .done content rest := by
  have field := get?_fields h "content-length"
  have fits : ¬ content.length > limit := by omega
  rw [readBody, if_neg (by simp [isChunked_sized announced])]
  obtain ⟨_, ⟨unsaid, rfl⟩ | ⟨value, said, spelled⟩⟩ := announced
  · rw [if_pos unsaid] at field
    simp [readSizedBody, field, Reading.check]
  · rw [said, if_neg (List.cons_ne_nil _ _), String.intercalate_singleton] at field
    have length := Text.readNat_spelled (by decide) (by decide) (Nat.lt_of_le_of_lt within word) spelled
    simp [readSizedBody, field, length, Reading.check, fits]

/-- Of a body in chunks, the framing too has to stay within a budget. -/
theorem readBody_sent {h : Head} {body : SentBody} {limit : Nat} (announced : h.Announces body)
    (word : limit < UInt64.size) (within : body.content.length ≤ limit) (rest : Bytes) :
    readBody limit h.fields (body.bytes ++ rest) =
      if body.framing.length ≤ headLimit then .done body.content rest else .refused .headersTooLarge := by
  cases body with
  | sized content => exact readBody_sized announced word within rest
  | chunked body =>
    rw [readBody, if_pos (isChunked_chunked announced)]
    exact readChunkedBody_sent body rest word within

structure SentRequest where
  head : Head
  body : SentBody
  announced : head.Announces body

namespace SentRequest

variable (s : SentRequest)

def bytes : Bytes := s.head.bytes ++ s.body.bytes

/-- What the request says, however it is sent. -/
def request : Request := s.head.request s.body.content

theorem request_target : (s.request.path, s.request.query) = splitTarget s.head.target := by
  unfold request Head.request
  generalize splitTarget s.head.target = parts
  rfl

end SentRequest

theorem readRequest_sent (s : SentRequest) {limit : Nat} (word : limit < UInt64.size)
    (head : s.head.bytes.length ≤ headLimit) (content : s.body.content.length ≤ limit) (rest : Bytes) :
    readRequest limit (s.bytes ++ rest) =
      if s.body.framing.length ≤ headLimit then .done (some s.request) rest else .refused .headersTooLarge := by
  rw [SentRequest.bytes, List.append_assoc, readRequest_head head, readBody_sent s.announced word content]
  split <;> rfl

end ToolBridge.Http

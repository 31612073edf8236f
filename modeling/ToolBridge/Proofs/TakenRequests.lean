import ToolBridge.Proofs.TakenBodies

/-! Requests as they are taken off an input. A request is read just if one lies at the front of the input within the
limits, and a refusal for length tells what lies there instead: every answer but a flaw says all about the octets that it
rests on. -/

namespace ToolBridge.Http

/-- The length that the fields give to a body that is not in chunks. -/
def declaredLength (fields : Fields) : Except RequestFlaw Nat :=
  match fields.get? "content-length" with
  | none => .ok 0
  | some value => match Text.readNat 10 UInt64.size value with
    | some n => .ok n
    | none => .error (.badContentLength value)

theorem readSizedBody_eq (limit : Nat) (fields : Fields) (input : Bytes) :
    readSizedBody limit fields input =
      .check (declaredLength fields) fun length =>
        if length > limit then .refused (.bodyTooLarge limit)
        else if (input.take length).length < length then .unlessMore .shortBody
        else .done (input.take length) (input.drop length) := rfl

/-- A body as it lies in an input after a head of such fields. A length counts for nothing beside chunks. -/
inductive BodyLayout (fields : Fields) where
  | sized (content : Bytes) (plain : isChunked fields = false) (declared : declaredLength fields = .ok content.length)
  | chunked (body : ChunkedLayout) (announced : isChunked fields = true)

namespace BodyLayout
variable {fields : Fields}

def content : BodyLayout fields → Bytes
  | sized content _ _ => content
  | chunked body _ => body.content

def bytes : BodyLayout fields → Bytes
  | sized content _ _ => content
  | chunked body _ => body.bytes

def framing : BodyLayout fields → Bytes
  | sized _ _ _ => []
  | chunked body _ => body.framing

def Unclosed : BodyLayout fields → Prop
  | sized _ _ _ => False
  | chunked body _ => body.close = none

end BodyLayout

structure BodyRead {fields : Fields} (limit : Nat) (input : Bytes) (b : BodyLayout fields) (rest : Bytes) : Prop where
  octets : input = b.bytes ++ rest
  content : b.content.length ≤ limit
  framing : b.framing.length ≤ headLimit

/-- A body beyond the limit: the length that is declared, or the sizes up to one of a chunk. -/
inductive Overfull (limit : Nat) (fields : Fields) (input : Bytes) : Prop where
  | declared {length : Nat} (plain : isChunked fields = false) (declared : declaredLength fields = .ok length)
      (beyond : limit < length)
  | chunks (announced : isChunked fields = true) (beyond : ChunksOverfull limit 0 headLimit input)

def bodyOutcomes (limit : Nat) (fields : Fields) (input : Bytes) : Outcomes Bytes where
  done body rest := ∃ b : BodyLayout fields, body = b.content ∧ ¬ b.Unclosed ∧ BodyRead limit input b rest
  ended body := ∃ b : BodyLayout fields, body = b.content ∧ b.Unclosed ∧ BodyRead limit input b []
  long := isChunked fields = true ∧ ChunksOverlong limit 0 headLimit input
  large most := most = limit ∧ Overfull limit fields input

section
variable {limit : Nat} {fields : Fields} {input rest : Bytes}

theorem ChunksRead.body {t : ChunkedLayout} (read : ChunksRead limit 0 headLimit input t rest)
    (announced : isChunked fields = true) : BodyRead limit input (.chunked t announced : BodyLayout fields) rest where
  octets := read.octets
  content := by
    have within := read.within
    rw [Nat.zero_add] at within
    exact within
  framing := read.paid

theorem BodyRead.chunks {t : ChunkedLayout} {announced : isChunked fields = true}
    (read : BodyRead limit input (.chunked t announced : BodyLayout fields) rest) :
    ChunksRead limit 0 headLimit input t rest where
  octets := read.octets
  within := by
    rw [Nat.zero_add]
    exact read.content
  paid := read.framing

theorem readBody_comes (limit : Nat) (fields : Fields) (input : Bytes) :
    (readBody limit fields input).Comes (bodyOutcomes limit fields input) := by
  unfold readBody
  split
  next announced =>
    refine (readChunks_comes limit 0 [] headLimit input (Nat.zero_le _)).mono ?_ ?_ ?_ ?_
    · rintro _ rest ⟨t, rfl, closed, read⟩
      exact ⟨.chunked t announced, rfl, closed, read.body announced⟩
    · rintro _ ⟨t, rfl, unclosed, read⟩
      exact ⟨.chunked t announced, rfl, unclosed, read.body announced⟩
    · exact fun overlong => ⟨announced, overlong⟩
    · exact fun most overfull => ⟨overfull.1, .chunks announced overfull.2⟩
  next unannounced =>
    have plain : isChunked fields = false := by simpa using unannounced
    rw [readSizedBody_eq]
    refine .check fun length declared => ?_
    split
    next beyond => exact .large ⟨rfl, .declared plain declared beyond⟩
    next within =>
      split
      · exact .cut _
      next enough =>
        have whole : (input.take length).length = length := by
          rw [List.length_take] at enough ⊢
          omega
        refine .done ⟨.sized (input.take length) plain (whole.symm ▸ declared), rfl, id, ?_, ?_, Nat.zero_le _⟩
        · exact (List.take_append_drop length input).symm
        · rw [BodyLayout.content, whole]
          exact Nat.not_lt.mp within

theorem readBody_layout {b : BodyLayout fields} (read : BodyRead limit input b rest) :
    (¬ b.Unclosed → readBody limit fields input = .done b.content rest) ∧
    (b.Unclosed → rest = [] → readBody limit fields input = .more (.ok b.content)) := by
  cases b with
  | sized content plain declared =>
    obtain ⟨octets, within, _⟩ := read
    change input = content ++ rest at octets
    change content.length ≤ limit at within
    refine ⟨fun _ => ?_, False.elim⟩
    rw [readBody, if_neg (by simp [plain]), readSizedBody_eq, declared, Reading.check, if_neg (by omega), octets,
      List.take_left, if_neg (Nat.lt_irrefl _), List.drop_left]
    rfl
  | chunked t announced =>
    rw [readBody, if_pos announced]
    exact readChunks_layout read.chunks

theorem readBody_overlong (announced : isChunked fields = true) (overlong : ChunksOverlong limit 0 headLimit input) :
    readBody limit fields input = .refused .headersTooLarge := by
  rw [readBody, if_pos announced]
  exact readChunks_overlong overlong

theorem readBody_overfull (overfull : Overfull limit fields input) :
    readBody limit fields input = .refused (.bodyTooLarge limit) := by
  cases overfull with
  | declared plain declared beyond =>
    rw [readBody, if_neg (by simp [plain]), readSizedBody_eq, declared, Reading.check, if_pos beyond]
  | chunks announced beyond =>
    rw [readBody, if_pos announced]
    exact readChunks_overfull beyond

end

/-! ## Requests -/

structure RequestLayout where
  head : HeadLayout
  body : BodyLayout head.fields

namespace RequestLayout
variable (l : RequestLayout)

def bytes : Bytes := l.head.bytes ++ l.body.bytes

def request : Request := l.head.request l.body.content

end RequestLayout

structure RequestRead (limit : Nat) (input : Bytes) (l : RequestLayout) (rest : Bytes) : Prop where
  octets : input = l.bytes ++ rest
  head : l.head.bytes.length ≤ headLimit
  content : l.body.content.length ≤ limit
  framing : l.body.framing.length ≤ headLimit

/-- Lines within the budget and one that is not, of the head or of a body in chunks. -/
inductive Overlong (limit : Nat) (input : Bytes) : Prop where
  | head (overlong : HeadOverlong input)
  | body {h : HeadLayout} {rest : Bytes} (octets : input = h.bytes ++ rest) (head : h.bytes.length ≤ headLimit)
      (announced : isChunked h.fields = true) (overlong : ChunksOverlong limit 0 headLimit rest)

/-- A head within its budget, and a body after it beyond the limit. -/
def RequestOverfull (limit : Nat) (input : Bytes) : Prop :=
  ∃ (h : HeadLayout) (rest : Bytes), input = h.bytes ++ rest ∧ h.bytes.length ≤ headLimit ∧ Overfull limit h.fields rest

def requestOutcomes (limit : Nat) (input : Bytes) : Outcomes (Option Request) where
  done found rest := ∃ l : RequestLayout, found = some l.request ∧ ¬ l.body.Unclosed ∧ RequestRead limit input l rest
  ended found := found = none ∨
    ∃ l : RequestLayout, found = some l.request ∧ l.body.Unclosed ∧ RequestRead limit input l []
  long := Overlong limit input
  large most := most = limit ∧ RequestOverfull limit input

theorem readRequest_comes (limit : Nat) (input : Bytes) :
    (readRequest limit input).Comes (requestOutcomes limit input) := by
  rcases head_cases limit input with ⟨h, rest, rfl, head⟩ | comes
  · have whole {b : BodyLayout h.fields} {left : Bytes} (read : BodyRead limit rest b left) :
        RequestRead limit (h.bytes ++ rest) ⟨h, b⟩ left :=
      ⟨by rw [read.octets, RequestLayout.bytes, List.append_assoc], head, read.content, read.framing⟩
    rw [readRequest_layout, if_pos head]
    refine (readBody_comes limit h.fields rest).bind ?_ ?_ ?_ ?_
    · rintro _ left ⟨b, rfl, closed, read⟩
      exact .done ⟨⟨h, b⟩, rfl, closed, whole read⟩
    · rintro _ ⟨b, rfl, unclosed, read⟩
      exact .ended (.inr ⟨⟨h, b⟩, rfl, unclosed, whole read⟩)
    · rintro ⟨announced, overlong⟩
      exact .body rfl head announced overlong
    · rintro most ⟨rfl, overfull⟩
      exact ⟨rfl, h, rest, rfl, head, overfull⟩
  · exact comes.mono (fun _ _ => False.elim) (fun _ => .inl) .head (fun _ => False.elim)

section
variable {limit : Nat} {input rest : Bytes} {l : RequestLayout}

theorem readRequest_read (read : RequestRead limit input l rest) :
    (¬ l.body.Unclosed → readRequest limit input = .done (some l.request) rest) ∧
    (l.body.Unclosed → rest = [] → readRequest limit input = .more (.ok (some l.request))) := by
  have lies : BodyRead limit (l.body.bytes ++ rest) l.body rest := ⟨rfl, read.content, read.framing⟩
  have body := readBody_layout lies
  rw [read.octets, RequestLayout.bytes, List.append_assoc, readRequest_layout, if_pos read.head]
  refine ⟨fun closed => ?_, fun unclosed none_ => ?_⟩
  · rw [body.1 closed]
    rfl
  · rw [body.2 unclosed none_]
    rfl

theorem readRequest_overlong (overlong : Overlong limit input) : readRequest limit input = .refused .headersTooLarge := by
  cases overlong with
  | head overlong => exact readRequest_headOverlong overlong limit
  | body octets head announced overlong =>
    rw [octets, readRequest_layout, if_pos head, readBody_overlong announced overlong]
    rfl

theorem readRequest_overfull (overfull : RequestOverfull limit input) :
    readRequest limit input = .refused (.bodyTooLarge limit) := by
  obtain ⟨h, rest, rfl, head, overfull⟩ := overfull
  rw [readRequest_layout, if_pos head, readBody_overfull overfull]
  rfl

/-! ## What a request is read off, and what it is refused for -/

/-- What comes of a reading if nothing follows, and what it leaves. -/
def Reading.Returns {α : Type} (r : Reading α) (value : α) (rest : Bytes) : Prop :=
  r = .done value rest ∨ r = .more (.ok value) ∧ rest = []

@[simp] theorem Reading.returns_done {α : Type} {value given : α} {left rest : Bytes} :
    (Reading.done value left).Returns given rest ↔ value = given ∧ left = rest := by
  simp [Reading.Returns]

@[simp] theorem Reading.returns_refused {α : Type} {fault : Fault} {given : α} {rest : Bytes} :
    ¬ (Reading.refused fault).Returns given rest := by
  simp [Reading.Returns]

theorem Reading.atEnd_eq_ok {α : Type} {r : Reading α} {value : α} :
    r.atEnd = .ok value ↔ ∃ rest, r.Returns value rest := by
  cases r <;> simp [Reading.atEnd, Reading.Returns]

theorem readRequest_returns {r : Request} :
    (readRequest limit input).Returns (some r) rest ↔
      ∃ l, r = RequestLayout.request l ∧ RequestRead limit input l rest ∧ (l.body.Unclosed → rest = []) := by
  constructor
  · have comes := readRequest_comes limit input
    rintro (read | ⟨read, rfl⟩)
    · rw [read] at comes
      cases comes with
      | done holds =>
        obtain ⟨l, found, closed, lies⟩ := holds
        exact ⟨l, Option.some.inj found, lies, fun unclosed => absurd unclosed closed⟩
    · rw [read] at comes
      cases comes with
      | ended holds =>
        obtain none_ | ⟨l, found, unclosed, lies⟩ := holds
        · cases none_
        · exact ⟨l, Option.some.inj found, lies, fun _ => rfl⟩
  · rintro ⟨l, rfl, lies, ended⟩
    by_cases unclosed : l.body.Unclosed
    · exact .inr ⟨(readRequest_read lies).2 unclosed (ended unclosed), ended unclosed⟩
    · exact .inl ((readRequest_read lies).1 unclosed)

theorem readRequest_headersTooLarge :
    (readRequest limit input).atEnd = .error .headersTooLarge ↔ Overlong limit input := by
  constructor
  · intro read
    have comes := readRequest_comes limit input
    generalize readRequest limit input = reading at read comes
    cases comes with
    | long beyond => exact beyond
    | _ => cases read
  · intro overlong
    rw [readRequest_overlong overlong]
    rfl

theorem readRequest_bodyTooLarge {most : Nat} :
    (readRequest limit input).atEnd = .error (.bodyTooLarge most) ↔ most = limit ∧ RequestOverfull limit input := by
  constructor
  · intro read
    have comes := readRequest_comes limit input
    generalize readRequest limit input = reading at read comes
    cases comes with
    | large beyond =>
      cases read
      exact beyond
    | _ => cases read
  · rintro ⟨rfl, overfull⟩
    rw [readRequest_overfull overfull]
    rfl

end

end ToolBridge.Http

import ToolBridge.Proofs.SentRequests

/-! How a body is divided into chunks. The division shows only in the framing, which has a budget of its
own: within it the request that is read depends on the joined octets alone, beyond it none is read. -/

namespace ToolBridge.Http

/-- Plain size lines and no trailers. -/
def ChunkedBody.plain (pieces : List { data : Bytes // data ≠ [] }) : ChunkedBody where
  chunks := pieces.map fun piece => ⟨piece.1, piece.2, .plain _⟩
  last := .plain 0
  trailers := []
  ending := .crlf
  spoken := by simp

theorem SizeLine.length_plain (n : Nat) : (SizeLine.plain n).bytes.length = (Nat.toDigits 16 n).length + 2 := by
  have ascii : ∀ c ∈ (SizeLine.plain n).text.toList, c.toNat < 0x80 := by
    intro c member
    have := Text.digit_range ((SizeLine.plain n).spelled.digits (by decide) (by decide) c member)
    omega
  rw [SentLine.bytes, List.length_append, Text.length_utf8 ascii]
  simp [plain, Ending.bytes]

theorem ChunkedBody.content_plain (pieces : List { data : Bytes // data ≠ [] }) :
    (plain pieces).content = pieces.flatMap (·.1) := by
  simp [plain, content, List.flatMap_map]

theorem ChunkedBody.framing_plain_cons (piece : { data : Bytes // data ≠ [] })
    (rest : List { data : Bytes // data ≠ [] }) :
    (plain (piece :: rest)).framing = (SizeLine.plain piece.1.length).bytes ++ (plain rest).framing := by
  simp [framing, lines, plain, linesBytes]

/-- A chunk costs the digits of its size and their line break, the end of the body five octets. -/
theorem ChunkedBody.length_framing_plain (pieces : List { data : Bytes // data ≠ [] }) :
    (plain pieces).framing.length =
      (pieces.flatMap fun piece => Nat.toDigits 16 piece.1.length).length + 2 * pieces.length + 5 := by
  induction pieces with
  | nil => decide +kernel
  | cons piece rest ih =>
    rw [framing_plain_cons, List.length_append, ih, SizeLine.length_plain, List.flatMap_cons, List.length_append,
      List.length_cons]
    omega

/-- Every octet in a chunk of its own. -/
def ChunkedBody.octetwise (n : Nat) : ChunkedBody := plain (List.replicate n ⟨[0x61], List.cons_ne_nil _ _⟩)

def ChunkedBody.whole (n : Nat) (positive : 0 < n) : ChunkedBody :=
  plain [⟨List.replicate n 0x61, by simpa using Nat.ne_of_gt positive⟩]

theorem ChunkedBody.content_octetwise (n : Nat) : (octetwise n).content = List.replicate n 0x61 := by
  rw [octetwise, content_plain]
  induction n with
  | zero => rfl
  | succ n ih => rw [List.replicate_succ, List.flatMap_cons, ih, List.replicate_succ, List.singleton_append]

theorem ChunkedBody.content_whole (n : Nat) (positive : 0 < n) :
    (whole n positive).content = List.replicate n 0x61 := by
  rw [whole, content_plain, List.flatMap_singleton]

theorem ChunkedBody.length_framing_octetwise (n : Nat) : (octetwise n).framing.length = 3 * n + 5 := by
  have size : (SizeLine.plain 1).bytes.length = 3 := SizeLine.length_plain 1
  induction n with
  | zero => decide +kernel
  | succ n ih =>
    rw [octetwise, List.replicate_succ, framing_plain_cons, ← octetwise, List.length_append, ih, List.length_singleton,
      size]
    omega

theorem ChunkedBody.length_framing_whole (n : Nat) (positive : 0 < n) :
    (whole n positive).framing.length = (Nat.toDigits 16 n).length + 7 := by
  rw [whole, length_framing_plain, List.flatMap_singleton, List.length_replicate]
  rfl

theorem readRequest_chunked {h : Head} {limit : Nat} {b : ChunkedBody} (announced : h.Announces (.chunked b))
    (word : limit < UInt64.size) (head : h.bytes.length ≤ headLimit) (within : b.content.length ≤ limit)
    (rest : Bytes) :
    readRequest limit (h.bytes ++ b.bytes ++ rest) =
      if b.framing.length ≤ headLimit then .done (some (h.request b.content)) rest
      else .refused .headersTooLarge :=
  readRequest_sent ⟨h, .chunked b, announced⟩ word head within rest

theorem divisions_agree_iff {h : Head} {limit : Nat} {b c : ChunkedBody} (announced : h.Announces (.chunked b))
    (word : limit < UInt64.size) (head : h.bytes.length ≤ headLimit) (within : b.content.length ≤ limit)
    (same : b.content = c.content) (rest : Bytes) :
    (readRequest limit (h.bytes ++ b.bytes ++ rest) =
      if b.framing.length ≤ headLimit then .done (some (h.request b.content)) rest
      else .refused .headersTooLarge) ∧
    (readRequest limit (h.bytes ++ b.bytes ++ rest) = readRequest limit (h.bytes ++ c.bytes ++ rest) ↔
      (b.framing.length ≤ headLimit ↔ c.framing.length ≤ headLimit)) := by
  have first := readRequest_chunked announced word head within rest
  have second := readRequest_chunked (b := c) announced word head (same ▸ within) rest
  refine ⟨first, ?_⟩
  rw [first, second, same]
  -- an answer is never a refusal, and the two requests are one
  by_cases left : b.framing.length ≤ headLimit <;> by_cases right : c.framing.length ≤ headLimit <;>
    simp [left, right]

theorem divisions_agree_iff_three :
    readRequest 3 ((postHead inChunks).bytes ++ Text.utf8 "1\r\na\r\n1\r\na\r\n1\r\na\r\n0\r\n\r\n") =
      .done (some ((postHead inChunks).request [0x61, 0x61, 0x61])) [] ∧
    readRequest 3 ((postHead inChunks).bytes ++ Text.utf8 "1\r\na\r\n1\r\na\r\n1\r\na\r\n0\r\n\r\n") =
      readRequest 3 ((postHead inChunks).bytes ++ Text.utf8 "3\r\naaa\r\n0\r\n\r\n") := by
  have head : (postHead inChunks).bytes.length ≤ headLimit := by decide +kernel
  have apart : (ChunkedBody.octetwise 3).bytes = Text.utf8 "1\r\na\r\n1\r\na\r\n1\r\na\r\n0\r\n\r\n" := by
    decide +kernel
  have together : (ChunkedBody.whole 3 (by decide)).bytes = Text.utf8 "3\r\naaa\r\n0\r\n\r\n" := by decide +kernel
  have same : (ChunkedBody.octetwise 3).content = (ChunkedBody.whole 3 (by decide)).content := by decide
  have word : 3 < UInt64.size := by decide
  obtain ⟨read, agree⟩ := divisions_agree_iff (announces_inChunks _) word head (by decide) same []
  have cheap : (ChunkedBody.octetwise 3).framing.length ≤ headLimit := by
    rw [ChunkedBody.length_framing_octetwise]
    decide
  rw [List.append_nil, apart, if_pos cheap, ChunkedBody.content_octetwise] at read
  rw [List.append_nil, List.append_nil, apart, together] at agree
  exact ⟨read, agree.mpr ⟨fun _ => by decide +kernel, fun _ => cheap⟩⟩

theorem octetwise_refused :
    (postHead inChunks).bytes.length ≤ headLimit ∧
      (ChunkedBody.octetwise 21844).content = (ChunkedBody.whole 21844 (by decide)).content ∧
      (ChunkedBody.octetwise 21844).content.length ≤ 21844 ∧
      readRequest 21844 ((postHead inChunks).bytes ++ (ChunkedBody.octetwise 21844).bytes) ≠
        readRequest 21844 ((postHead inChunks).bytes ++ (ChunkedBody.whole 21844 (by decide)).bytes) := by
  have head : (postHead inChunks).bytes.length ≤ headLimit := by decide +kernel
  have same : (ChunkedBody.octetwise 21844).content = (ChunkedBody.whole 21844 (by decide)).content :=
    (ChunkedBody.content_octetwise _).trans (ChunkedBody.content_whole _ _).symm
  have fits : (ChunkedBody.octetwise 21844).content.length ≤ 21844 := by
    rw [ChunkedBody.content_octetwise, List.length_replicate]
  have apart := readRequest_chunked (announces_inChunks _) (by decide) head fits []
  have together := readRequest_chunked (announces_inChunks _) (by decide) head (same ▸ fits) []
  rw [List.append_nil, ChunkedBody.length_framing_octetwise, if_neg (by decide)] at apart
  rw [List.append_nil, ChunkedBody.length_framing_whole, if_pos (by decide +kernel)] at together
  refine ⟨head, same, fits, ?_⟩
  rw [apart, together]
  simp

end ToolBridge.Http

import ToolBridge.Proofs.SentRequests

/-! Requests sent one after the other. Each is read off with its own octets and no others, whatever
follows it, so that any number of them in a row come back in their order. -/

namespace ToolBridge.Http

/-- The limits of a reader whose bodies may have `limit` octets. -/
structure SentRequest.Within (limit : Nat) (s : SentRequest) : Prop where
  head : s.head.bytes.length ≤ headLimit
  content : s.body.content.length ≤ limit
  framing : s.body.framing.length ≤ headLimit

theorem readRequest_within {limit : Nat} {s : SentRequest} (word : limit < UInt64.size)
    (within : s.Within limit) (rest : Bytes) :
    readRequest limit (s.bytes ++ rest) = .done (some s.request) rest := by
  rw [readRequest_sent s word within.head within.content, if_pos within.framing]

theorem readRequest_nil (limit : Nat) : readRequest limit [] = .more (.ok none) := by
  have ended : readFirstLine headLimit [] = .more (.ok none) := by
    rw [readFirstLine]
    rfl
  rw [readRequest, ended]
  rfl

theorem readAllRequests_sent {limit bound : Nat} {sent : List SentRequest} (word : limit < UInt64.size)
    (within : ∀ s ∈ sent, s.Within limit) (enough : sent.length < bound) :
    readAllRequests limit bound (sent.flatMap SentRequest.bytes) = (sent.map SentRequest.request, none) := by
  induction sent generalizing bound with
  | nil =>
    obtain ⟨bound, rfl⟩ := Nat.exists_eq_succ_of_ne_zero (Nat.ne_of_gt enough)
    rw [List.flatMap_nil, readAllRequests, readRequest_nil]
    rfl
  | cons s later ih =>
    obtain ⟨bound, rfl⟩ := Nat.exists_eq_succ_of_ne_zero (Nat.ne_of_gt (Nat.zero_lt_of_lt enough))
    have first := readRequest_within word (within s List.mem_cons_self) (later.flatMap SentRequest.bytes)
    have rest := ih (fun t member => within t (List.mem_cons_of_mem _ member)) (Nat.lt_of_succ_lt_succ enough)
    rw [List.flatMap_cons, readAllRequests, first]
    simp only [rest]
    rfl

theorem SentRequest.length_bytes_pos (s : SentRequest) : 0 < s.bytes.length := by
  have line := s.head.requestLine.length_bytes_pos
  simp only [bytes, Head.bytes, Head.lines, linesBytes, List.flatMap_append, List.flatMap_cons, List.length_append]
  omega

theorem length_le_octets (sent : List SentRequest) : sent.length ≤ (sent.flatMap SentRequest.bytes).length := by
  induction sent with
  | nil => exact Nat.le_refl 0
  | cons s later ih =>
    have := s.length_bytes_pos
    rw [List.flatMap_cons, List.length_cons, List.length_append]
    omega

theorem pipelined_read_back {limit : Nat} {sent : List SentRequest} (word : limit < UInt64.size)
    (within : ∀ s ∈ sent, s.Within limit) :
    (∀ s ∈ sent, ∀ rest, readRequest limit (s.bytes ++ rest) = .done (some s.request) rest) ∧
      requestsOf limit (sent.flatMap SentRequest.bytes) = (sent.map SentRequest.request, none) := by
  constructor
  · intro s member rest
    exact readRequest_within word (within s member) rest
  · have bounded := length_le_octets sent
    exact readAllRequests_sent word within (by omega)

def lengthTwo : HeaderLine :=
  { inChunks with
    name := "content-LENGTH"
    value := "2"
    named := by decide
    name_trimmed := by decide
    name_undivided := by decide
    name_single := by decide
    value_trimmed := by decide
    value_single := by decide }

def sizedExample : SentRequest where
  head := postHead lengthTwo
  body := .sized [0x0D, 0x0A]
  announced := ⟨by decide, .inr ⟨"2", by decide, 0, by decide⟩⟩

def chunkedExample : SentRequest where
  head := { postHead inChunks with blanks := [.crlf, .lf], close := .lf }
  body := .chunked {
    chunks := [{
      data := [0x57, 0x69, 0x6B, 0x69]
      nonempty := by decide
      line := {
        text := "04;x=1"
        ending := .lf
        single := by decide
        whole := by decide
        size := "04"
        extension := ";x=1"
        parts := by decide
        spelled := ⟨1, by decide⟩
        extended := by simp } }]
    last := .plain 0
    trailers := [{ text := "T: y", ending := .crlf, single := by decide, whole := by decide }]
    ending := .crlf
    spoken := by decide }
  announced := ⟨"chunked", by decide, by decide⟩

theorem pipelined_read_back_two :
    requestsOf 4 (Text.utf8 ("POST /mcp?id=a%20b HTTP/1.1\r\ncontent-LENGTH: 2\r\n\r\n\r\n" ++
      "\r\n\nPOST /mcp?id=a%20b HTTP/1.1\r\nTransfer-Encoding: chunked\r\n\n04;x=1\nWiki\r\n0\r\nT: y\r\n\r\n")) =
    ([⟨"POST", "/mcp", [("id", "a b")], "HTTP/1.1", [("content-length", "2")], [0x0D, 0x0A]⟩,
      ⟨"POST", "/mcp", [("id", "a b")], "HTTP/1.1", [("transfer-encoding", "chunked")], [0x57, 0x69, 0x6B, 0x69]⟩],
      none) := by
  have sized : sizedExample.Within 4 := by constructor <;> decide +kernel
  have chunked : chunkedExample.Within 4 := by constructor <;> decide +kernel
  have within : ∀ s ∈ [sizedExample, chunkedExample], s.Within 4 := by
    intro s member
    rcases List.mem_cons.mp member with rfl | last
    · exact sized
    · exact List.mem_singleton.mp last ▸ chunked
  have read := (pipelined_read_back (by decide) within).2
  refine Eq.trans (congrArg _ ?octets) (read.trans ?requests)
  case octets => decide +kernel
  case requests => decide +kernel

def filler (n : Nat) : SentLine where
  text := .ofList ('X' :: List.replicate n 'a')
  ending := .crlf
  single := by simp
  whole := nofun

theorem length_filler (n : Nat) : (filler n).bytes.length = n + 3 := by
  have ascii : ∀ c ∈ (filler n).text.toList, c.toNat < 0x80 := by
    intro c member
    rcases List.mem_cons.mp (by simpa only [filler, String.toList_ofList] using member) with rfl | repeated
    · decide
    · obtain rfl := List.eq_of_mem_replicate repeated
      decide
  rw [SentLine.bytes, List.length_append, Text.length_utf8 ascii]
  simp [filler, Ending.bytes]

def fillerBody (n : Nat) : ChunkedBody where
  chunks := []
  last := .plain 0
  trailers := [filler n]
  ending := .crlf
  spoken := by simp [filler]

theorem length_lines_fillerBody (n : Nat) : (linesBytes (fillerBody n).lines).length = n + 6 := by
  have last : (SizeLine.plain 0).bytes.length = 3 := by decide +kernel
  simp only [fillerBody, ChunkedBody.lines, linesBytes, List.map_nil, List.nil_append, List.flatMap_cons,
    List.flatMap_nil, List.append_nil, List.length_append, length_filler, last]
  omega

def filled (n : Nat) : SentRequest where
  head := postHead inChunks
  body := .chunked (fillerBody n)
  announced := announces_inChunks _

theorem length_head_filled (n : Nat) : (filled n).head.bytes.length ≤ headLimit := by
  change (postHead inChunks).bytes.length ≤ headLimit
  decide +kernel

theorem requestsOf_filled {n : Nat} (unpaid : headLimit < n + 8) :
    requestsOf 1024 (filled n).bytes = ([], some .headersTooLarge) := by
  have framing : (filled n).body.framing.length = n + 8 := by
    change (linesBytes (fillerBody n).lines ++ Ending.crlf.bytes).length = n + 8
    rw [List.length_append, length_lines_fillerBody]
    rfl
  have word : 1024 < UInt64.size := by decide
  have read := readRequest_sent (filled n) word (length_head_filled n) (Nat.zero_le _) []
  rw [List.append_nil, framing, if_neg (by omega)] at read
  rw [requestsOf, readAllRequests, read]

/-- Size and trailer lines that spend the whole budget leave nothing for the empty line after them. -/
theorem filled_refused :
    (filled 65530).head.bytes.length ≤ headLimit ∧ (filled 65530).body.content.length ≤ 1024 ∧
      (linesBytes (fillerBody 65530).lines).length ≤ headLimit ∧
      requestsOf 1024 (filled 65530).bytes ≠ ([(filled 65530).request], none) := by
  have lines := Nat.le_of_eq (length_lines_fillerBody 65530)
  refine ⟨length_head_filled _, Nat.zero_le _, lines, ?_⟩
  rw [requestsOf_filled (by decide)]
  simp

end ToolBridge.Http

import ToolBridge.Proofs.TakenRequests

/-! Input that is cut off. The end of the input is noticed wherever it falls in a request, but for one place: after the
last size line of a body in chunks, where trailer lines stand, it passes for the empty line that closes the body. -/

namespace ToolBridge.Http

theorem Reading.value_of_map {α β : Type} {r : Reading α} {value given : β} {rest : Bytes}
    (returns : (r.map fun _ => value).Returns given rest) : given = value := by
  rcases r with first | fault | (fault | first) <;> rcases returns with read | ⟨read, _⟩ <;> cases read <;> rfl

section
variable {limit : Nat} {l : RequestLayout}

/-- A request that is not closed leaves only trailer lines to read. -/
theorem readRequest_unclosed {input : Bytes} (unclosed : l.body.Unclosed) (read : RequestRead limit input l [])
    (more : Bytes) :
    ∃ left, readRequest limit (input ++ more) = (readTrailers left more).map fun _ => some l.request := by
  obtain ⟨head, body⟩ := l
  cases body with
  | sized content plain declared => exact unclosed.elim
  | chunked t announced =>
    refine ⟨headLimit - t.framing.length, ?_⟩
    obtain ⟨octets, fits, content, framing⟩ := read
    have within : 0 + t.content.length ≤ limit := by rwa [Nat.zero_add]
    change t.framing.length ≤ headLimit at framing
    rw [octets, List.append_nil, RequestLayout.bytes, List.append_assoc, readRequest_layout, if_pos fits, readBody,
      if_pos announced]
    change (readChunks limit 0 [] headLimit (t.bytes ++ more)).map _ = _
    rw [readChunks_unclosed unclosed within, if_pos framing]
    cases readTrailers (headLimit - t.framing.length) more with
    | done value rest => rfl
    | refused fault => rfl
    | more atEnd => cases atEnd <;> rfl

/-- What is not closed is read at the end of the input, or refused for its size. -/
theorem readRequest_open (limit : Nat) (unclosed : l.body.Unclosed) :
    readRequest limit l.bytes = .more (.ok (some l.request)) ∨ ∃ fault, readRequest limit l.bytes = .refused fault := by
  obtain ⟨head, body⟩ := l
  cases body with
  | sized content plain declared => exact unclosed.elim
  | chunked t announced =>
    rw [RequestLayout.bytes, readRequest_layout, readBody, if_pos announced]
    split
    · change (readChunks limit 0 [] headLimit t.bytes).map _ = _ ∨
        ∃ fault, (readChunks limit 0 [] headLimit t.bytes).map _ = _
      rcases readChunks_open unclosed (Nat.zero_le limit) with read | ⟨fault, read⟩
      · exact .inl (by rw [read]; rfl)
      · exact .inr ⟨fault, by rw [read]; rfl⟩
    · exact .inr ⟨_, rfl⟩

end

/-- What is left of a request after a cut is read as a request just if it is whole but for trailer lines and the empty
line after them, and then it is read as the request it was. -/
theorem truncated_accepted_iff {limit : Nat} {before after : Bytes} {r : Request} (cut : after ≠ [])
    (whole : (readRequest limit (before ++ after)).Returns (some r) []) (other : Request) :
    (readRequest limit before).atEnd = .ok (some other) ↔
      other = r ∧ ∃ l : RequestLayout, l.body.Unclosed ∧ before = l.bytes := by
  have accepted (other : Request) (read : (readRequest limit before).atEnd = .ok (some other)) :
      other = r ∧ ∃ l : RequestLayout, l.body.Unclosed ∧ before = l.bytes := by
    obtain ⟨rest, returned⟩ := Reading.atEnd_eq_ok.mp read
    obtain ⟨l, rfl, lies, ended⟩ := readRequest_returns.mp returned
    by_cases unclosed : l.body.Unclosed
    · obtain rfl := ended unclosed
      obtain ⟨left, longer⟩ := readRequest_unclosed unclosed lies after
      rw [longer] at whole
      exact ⟨Option.some.inj (Reading.value_of_map whole).symm, l, unclosed, by rw [lies.octets, List.append_nil]⟩
    · -- A request that is closed is read again, and what was cut off is left over.
      have decided := (readRequest_read lies).1 unclosed
      have longer := (readRequest_extends after limit before).of_done decided
      rw [longer, Reading.returns_done] at whole
      exact absurd (List.append_eq_nil_iff.mp whole.2).2 cut
  refine ⟨accepted other, ?_⟩
  rintro ⟨rfl, l, unclosed, rfl⟩
  rcases readRequest_open limit unclosed with read | ⟨fault, refused⟩
  · obtain ⟨same, _⟩ := accepted l.request (by rw [read]; rfl)
    rw [read, same]
    rfl
  · rw [(readRequest_extends after limit l.bytes).of_refused refused] at whole
    exact absurd whole Reading.returns_refused

def oneChunk (close : Option Ending) : RequestLayout where
  head :=
    { blanks := []
      first := ⟨"POST / HTTP/1.1", .crlf, by decide, nofun⟩
      headers := [⟨"Transfer-Encoding: chunked", .crlf, by decide, nofun⟩]
      close := .crlf
      line := ⟨"POST", "/", "HTTP/1.1"⟩
      fields := [("transfer-encoding", "chunked")]
      asked := by decide
      told := by decide }
  body := .chunked
    { chunks := [⟨⟨"1", .crlf, by decide, nofun⟩, [0x61], by decide, by decide⟩]
      last := ⟨"0", .crlf, by decide, nofun⟩
      ended := by decide
      trailers := []
      spoken := List.forall_mem_nil _
      close }
    (by decide)

/-- Without the empty line at its end, the request is accepted all the same. -/
theorem truncated_accepted_iff_unclosed :
    (oneChunk none).bytes = Text.utf8 "POST / HTTP/1.1\r\nTransfer-Encoding: chunked\r\n\r\n1\r\na\r\n0\r\n" ∧
      (readRequest 1024 ((oneChunk none).bytes ++ [0x0D, 0x0A])).Returns (some (oneChunk (some .crlf)).request) [] ∧
      (readRequest 1024 (oneChunk none).bytes).atEnd = .ok (some (oneChunk (some .crlf)).request) := by
  have lies : RequestRead 1024 ((oneChunk none).bytes ++ [0x0D, 0x0A]) (oneChunk (some .crlf)) [] :=
    ⟨by decide +kernel, by decide +kernel, by decide, by decide +kernel⟩
  have whole := readRequest_returns.mpr ⟨_, rfl, lies, fun _ => rfl⟩
  refine ⟨by decide +kernel, whole, ?_⟩
  exact (truncated_accepted_iff (List.cons_ne_nil _ _) whole _).mpr ⟨rfl, oneChunk none, rfl, rfl⟩

end ToolBridge.Http

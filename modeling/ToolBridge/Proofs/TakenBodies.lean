import ToolBridge.Proofs.TakenHeads

/-! Bodies of requests as they are taken off an input. A body in chunks is so many chunks, a last size line and trailer
lines, and it is closed by an empty line or by the end of the input. Nothing else is read as one: either all of it lies
in the input, within the limit and the budget, or reading stops where the first of them is passed. -/

namespace ToolBridge.Http

structure ChunkLayout where
  line : SentLine
  data : Bytes
  nonempty : data ≠ []
  told : readChunkSize line.text = .ok data.length

namespace ChunkLayout

def bytes (c : ChunkLayout) : Bytes := c.line.bytes ++ (c.data ++ [0x0D, 0x0A])

def allBytes (chunks : List ChunkLayout) : Bytes := chunks.flatMap bytes

def allData (chunks : List ChunkLayout) : Bytes := chunks.flatMap data

def sizeLines (chunks : List ChunkLayout) : List SentLine := chunks.map line

section
variable (c : ChunkLayout) (later : List ChunkLayout)

theorem allBytes_cons : allBytes (c :: later) = c.bytes ++ allBytes later := List.flatMap_cons

theorem allData_cons : allData (c :: later) = c.data ++ allData later := List.flatMap_cons

theorem linesBytes_cons : linesBytes (sizeLines (c :: later)) = c.line.bytes ++ linesBytes (sizeLines later) :=
  Http.linesBytes_cons _ _

theorem linesBytes_nil : linesBytes (sizeLines []) = [] := rfl

end

end ChunkLayout

def closing (close : Option Ending) : List SentLine := (close.map SentLine.empty).toList

structure ChunkedLayout where
  chunks : List ChunkLayout
  last : SentLine
  ended : readChunkSize last.text = .ok 0
  trailers : List SentLine
  spoken : ∀ t ∈ trailers, t.text ≠ ""
  close : Option Ending

namespace ChunkedLayout
variable (t : ChunkedLayout)

def content : Bytes := ChunkLayout.allData t.chunks

def lines : List SentLine := t.last :: (t.trailers ++ closing t.close)

def bytes : Bytes := ChunkLayout.allBytes t.chunks ++ linesBytes t.lines

def framing : Bytes := linesBytes (ChunkLayout.sizeLines t.chunks ++ t.lines)

def cons (c : ChunkLayout) : ChunkedLayout := { t with chunks := c :: t.chunks }

variable (c : ChunkLayout)

theorem content_cons : (t.cons c).content = c.data ++ t.content := c.allData_cons t.chunks

theorem bytes_cons : (t.cons c).bytes = c.bytes ++ t.bytes := by
  simp only [bytes, cons, lines, ChunkLayout.allBytes_cons, List.append_assoc]

theorem framing_cons : (t.cons c).framing = c.line.bytes ++ t.framing := linesBytes_cons _ _

end ChunkedLayout

/-- The content, the lines and the octets that a body in chunks may begin with, up to any line but the one that
closes it. -/
inductive FramingBegun : Bytes → List SentLine → Bytes → Prop where
  | chunks (chunks : List ChunkLayout) :
      FramingBegun (ChunkLayout.allData chunks) (ChunkLayout.sizeLines chunks) (ChunkLayout.allBytes chunks)
  | trailers (t : ChunkedLayout) (unclosed : t.close = none) :
      FramingBegun t.content (ChunkLayout.sizeLines t.chunks ++ t.lines) t.bytes

theorem FramingBegun.cons {content octets : Bytes} {lines : List SentLine} (begun : FramingBegun content lines octets)
    (c : ChunkLayout) : FramingBegun (c.data ++ content) (c.line :: lines) (c.bytes ++ octets) := by
  cases begun with
  | chunks chunks =>
    have more := FramingBegun.chunks (c :: chunks)
    rwa [c.allData_cons, c.allBytes_cons] at more
  | trailers t unclosed =>
    have more := FramingBegun.trailers (t.cons c) unclosed
    rwa [t.content_cons, t.bytes_cons] at more

/-! ## What a body in chunks comes to -/

/-- Trailer lines and their close, at the front of an input and within a budget. -/
def TrailersRead (budget : Nat) (input : Bytes) (close : Option Ending) (rest : Bytes) : Prop :=
  ∃ trailers : List SentLine, (∀ t ∈ trailers, t.text ≠ "") ∧ input = linesBytes (trailers ++ closing close) ++ rest ∧
    (linesBytes (trailers ++ closing close)).length ≤ budget

theorem TrailersRead.cons {budget left : Nat} {input rest : Bytes} {close : Option Ending} {l : SentLine}
    (read : TrailersRead left input close rest) (spoken : l.text ≠ "") (paid : l.bytes.length + left = budget) :
    TrailersRead budget (l.bytes ++ input) close rest := by
  obtain ⟨trailers, others, rfl, fits⟩ := read
  refine ⟨l :: trailers, List.forall_mem_cons.mpr ⟨spoken, others⟩, ?_, ?_⟩
  · rw [List.cons_append, linesBytes_cons, List.append_assoc]
  · rw [List.cons_append, linesBytes_cons, List.length_append]
    omega

def trailersOutcomes (budget : Nat) (input : Bytes) : Outcomes Unit where
  done _ rest := ∃ ending, TrailersRead budget input (some ending) rest
  ended _ := TrailersRead budget input none []
  long := ∃ (trailers : List SentLine) (rest : Bytes), (∀ t ∈ trailers, t.text ≠ "") ∧
    input = linesBytes trailers ++ rest ∧ Overruns budget (linesBytes trailers).length rest
  large _ := False

theorem readTrailers_comes (budget : Nat) (input : Bytes) :
    (readTrailers budget input).Comes (trailersOutcomes budget input) := by
  fun_induction readTrailers budget input with
  | case1 budget input read =>
    obtain rfl := readLine_absent read
    exact .ended ⟨[], by simp, rfl, Nat.zero_le _⟩
  | case2 => exact .cut _
  | case3 budget input fault read =>
    exact .of_fault read fun beyond => ⟨[], input, by simp, rfl, overruns_now beyond⟩
  | case4 budget input left rest read =>
    obtain ⟨l, silent, rfl, paid⟩ := readLine_taken read
    rw [SentLine.eq_empty silent] at paid ⊢
    refine .done ⟨l.ending, [], by simp, ?_, ?_⟩
    · simp [closing, linesBytes]
    · simp only [closing, linesBytes, Option.map_some, Option.toList_some, List.nil_append, List.flatMap_singleton]
      omega
  | case5 budget input text left rest read spoken ih =>
    obtain ⟨l, rfl, rfl, paid⟩ := readLine_taken read
    refine ih.mono ?_ ?_ ?_ (fun _ => id)
    · rintro _ after ⟨ending, more⟩
      exact ⟨ending, more.cons spoken paid⟩
    · exact fun _ more => more.cons spoken paid
    · rintro ⟨trailers, after, others, rfl, overruns⟩
      refine ⟨l :: trailers, after, List.forall_mem_cons.mpr ⟨spoken, others⟩, ?_, ?_⟩
      · rw [linesBytes_cons, List.append_assoc]
      · rw [linesBytes_cons, List.length_append]
        exact overruns.after paid

/-- A body in chunks at the front of an input, after `length` octets of it, within a limit and a budget. -/
structure ChunksRead (limit length budget : Nat) (input : Bytes) (t : ChunkedLayout) (rest : Bytes) : Prop where
  octets : input = t.bytes ++ rest
  within : length + t.content.length ≤ limit
  paid : t.framing.length ≤ budget

/-- Lines of a body in chunks within the budget, and one that is not. -/
def ChunksOverlong (limit length budget : Nat) (input : Bytes) : Prop :=
  ∃ content lines octets rest, FramingBegun content lines octets ∧ input = octets ++ rest ∧
    length + content.length ≤ limit ∧ Overruns budget (linesBytes lines).length rest

/-- Chunks within the limit, and the size line of one that is not. -/
def ChunksOverfull (limit length budget : Nat) (input : Bytes) : Prop :=
  ∃ (chunks : List ChunkLayout) (line : SentLine) (size : Nat) (rest : Bytes), readChunkSize line.text = .ok size ∧
    input = ChunkLayout.allBytes chunks ++ (line.bytes ++ rest) ∧
    length + (ChunkLayout.allData chunks).length ≤ limit ∧ limit < length + (ChunkLayout.allData chunks).length + size ∧
    (linesBytes (ChunkLayout.sizeLines chunks)).length + line.bytes.length ≤ budget

section
variable {limit length size budget left : Nat} {input rest : Bytes} {c : ChunkLayout} {t : ChunkedLayout}

/-- No chunks, and trailer lines as they were read. -/
theorem TrailersRead.layout {close : Option Ending} {l : SentLine} (read : TrailersRead left input close rest)
    (told : readChunkSize l.text = .ok 0) (within : length ≤ limit) (paid : l.bytes.length + left = budget) :
    ∃ t : ChunkedLayout, t.content = [] ∧ t.close = close ∧ ChunksRead limit length budget (l.bytes ++ input) t rest := by
  obtain ⟨trailers, spoken, rfl, fits⟩ := read
  let t : ChunkedLayout := ⟨[], l, told, trailers, spoken, close⟩
  have octets : t.bytes = l.bytes ++ linesBytes (trailers ++ closing close) := linesBytes_cons _ _
  have framing : t.framing = l.bytes ++ linesBytes (trailers ++ closing close) := linesBytes_cons _ _
  refine ⟨t, rfl, rfl, ?_, within, ?_⟩
  · rw [octets, List.append_assoc]
  · rw [framing, List.length_append]
    omega

theorem ChunksRead.cons (read : ChunksRead limit (length + c.data.length) left input t rest)
    (paid : c.line.bytes.length + left = budget) :
    ChunksRead limit length budget (c.bytes ++ input) (t.cons c) rest where
  octets := by rw [read.octets, t.bytes_cons, List.append_assoc]
  within := by
    have := read.within
    rw [t.content_cons, List.length_append]
    omega
  paid := by
    have := read.paid
    rw [t.framing_cons, List.length_append]
    omega

theorem ChunksOverlong.cons (overlong : ChunksOverlong limit (length + c.data.length) left input)
    (paid : c.line.bytes.length + left = budget) : ChunksOverlong limit length budget (c.bytes ++ input) := by
  obtain ⟨content, lines, octets, rest, begun, rfl, within, overruns⟩ := overlong
  refine ⟨_, _, _, rest, begun.cons c, (List.append_assoc ..).symm, ?_, ?_⟩
  · rw [List.length_append]
    omega
  · rw [linesBytes_cons, List.length_append]
    exact overruns.after paid

theorem ChunksOverfull.cons (overfull : ChunksOverfull limit (length + c.data.length) left input)
    (paid : c.line.bytes.length + left = budget) : ChunksOverfull limit length budget (c.bytes ++ input) := by
  obtain ⟨chunks, line, size, rest, told, rfl, within, beyond, fits⟩ := overfull
  have data : (ChunkLayout.allData (c :: chunks)).length = c.data.length + (ChunkLayout.allData chunks).length := by
    rw [c.allData_cons, List.length_append]
  refine ⟨c :: chunks, line, size, rest, told, ?_, by omega, by omega, ?_⟩
  · rw [c.allBytes_cons, List.append_assoc]
  · rw [c.linesBytes_cons, List.length_append]
    omega

end

def chunksOutcomes (limit length : Nat) (taken : Bytes) (budget : Nat) (input : Bytes) : Outcomes Bytes where
  done body rest := ∃ t, body = taken.reverse ++ t.content ∧ t.close ≠ none ∧ ChunksRead limit length budget input t rest
  ended body := ∃ t, body = taken.reverse ++ t.content ∧ t.close = none ∧ ChunksRead limit length budget input t []
  long := ChunksOverlong limit length budget input
  large most := most = limit ∧ ChunksOverfull limit length budget input

/-- A chunk lies where as many octets as its size line tells are followed by the end of a line. -/
theorem chunk_taken {l : SentLine} {size : Nat} {rest after : Bytes} (told : readChunkSize l.text = .ok size)
    (some_ : size ≠ 0) (dropped : rest.drop size = 0x0D :: 0x0A :: after) :
    ∃ c : ChunkLayout, c.line = l ∧ c.data = rest.take size ∧ c.data.length = size ∧
      l.bytes ++ rest = c.bytes ++ after := by
  have inside := congrArg List.length dropped
  rw [List.length_drop, List.length_cons] at inside
  have whole : (rest.take size).length = size := by
    rw [List.length_take]
    omega
  have parts : rest = rest.take size ++ ([0x0D, 0x0A] ++ after) := by
    rw [List.cons_append, List.singleton_append, ← dropped, List.take_append_drop]
  refine ⟨⟨l, rest.take size, ?_, whole.symm ▸ told⟩, rfl, rfl, whole, ?_⟩
  · intro none_
    rw [none_] at whole
    exact some_ whole.symm
  · rw [ChunkLayout.bytes, List.append_assoc, List.append_assoc, ← parts]

section
variable {limit length budget left : Nat} {taken rest : Bytes}

theorem trailers_come {l : SentLine} (told : readChunkSize l.text = .ok 0) (fits : length ≤ limit)
    (paid : l.bytes.length + left = budget) :
    ((readTrailers left rest).map fun _ => taken.reverse).Comes
      (chunksOutcomes limit length taken budget (l.bytes ++ rest)) := by
  refine (readTrailers_comes left rest).bind ?_ ?_ ?_ (fun _ => False.elim)
  · rintro _ after ⟨ending, closed⟩
    obtain ⟨t, content, close, read⟩ := closed.layout told fits paid
    exact .done ⟨t, by rw [content, List.append_nil], by simp [close], read⟩
  · intro _ closed
    obtain ⟨t, content, close, read⟩ := closed.layout told fits paid
    exact .ended ⟨t, by rw [content, List.append_nil], close, read⟩
  · rintro ⟨trailers, after, spoken, rfl, overruns⟩
    let t : ChunkedLayout := ⟨[], l, told, trailers, spoken, none⟩
    have lines : linesBytes t.lines = l.bytes ++ linesBytes trailers := by
      rw [ChunkedLayout.lines, linesBytes_cons, closing, Option.map_none, Option.toList_none, List.append_nil]
    refine ⟨_, _, _, after, .trailers t rfl, ?_, fits, ?_⟩
    · rw [ChunkedLayout.bytes, lines, ChunkLayout.allBytes, List.flatMap_nil, List.nil_append, List.append_assoc]
    · rw [ChunkLayout.sizeLines, List.map_nil, List.nil_append, lines, List.length_append]
      exact overruns.after paid

theorem chunk_comes {c : ChunkLayout} {r : Reading Bytes} (paid : c.line.bytes.length + left = budget)
    (comes : r.Comes (chunksOutcomes limit (length + c.data.length) (c.data.reverse ++ taken) left rest)) :
    r.Comes (chunksOutcomes limit length taken budget (c.bytes ++ rest)) := by
  have collected (t : ChunkedLayout) :
      (c.data.reverse ++ taken).reverse ++ t.content = taken.reverse ++ (t.cons c).content := by
    rw [t.content_cons, List.reverse_append, List.reverse_reverse, List.append_assoc]
  refine comes.mono ?_ ?_ (fun overlong => overlong.cons paid) ?_
  · rintro _ after ⟨t, rfl, closed, read⟩
    exact ⟨t.cons c, collected t, closed, read.cons paid⟩
  · rintro _ ⟨t, rfl, unclosed, read⟩
    exact ⟨t.cons c, collected t, unclosed, read.cons paid⟩
  · rintro _ ⟨rfl, overfull⟩
    exact ⟨rfl, overfull.cons paid⟩

end

theorem readChunks_comes (limit length : Nat) (taken : Bytes) (budget : Nat) (input : Bytes) (fits : length ≤ limit) :
    (readChunks limit length taken budget input).Comes (chunksOutcomes limit length taken budget input) := by
  fun_induction readChunks limit length taken budget input with
  | case1 => exact .cut _
  | case2 => exact .cut _
  | case3 length taken budget input fault read =>
    exact .of_fault read fun beyond => ⟨_, _, _, input, .chunks [], rfl, fits, overruns_now beyond⟩
  | case4 length taken budget input text left rest read ih =>
    obtain ⟨l, rfl, rfl, paid⟩ := readLine_taken read
    refine .check fun size told => ?_
    split
    next final =>
      subst final
      exact trailers_come told fits paid
    next some_ =>
      split
      next beyond =>
        refine .large ⟨rfl, [], l, size, rest, told, rfl, fits, beyond, ?_⟩
        rw [ChunkLayout.linesBytes_nil, List.length_nil]
        omega
      next within =>
        split
        next a b after dropped =>
          split
          next ends =>
            obtain ⟨rfl, rfl⟩ : a = 0x0D ∧ b = 0x0A := by simpa using ends
            obtain ⟨c, rfl, data, rfl, octets⟩ := chunk_taken told some_ dropped
            have comes := ih c.data.length 0x0D 0x0A after dropped (by omega)
            rw [← data, List.reverseAux_eq] at comes ⊢
            rw [octets]
            exact chunk_comes paid comes
          next => exact .flawed _
        next => exact .cut _

/-! ## What a body in chunks that lies in an input comes to -/

theorem Reading.map_refused {α β : Type} (f : α → β) (fault : Fault) :
    (Reading.refused fault).map f = .refused fault := rfl

section
variable {limit length budget : Nat} {taken input rest : Bytes} {t : ChunkedLayout} {chunks : List ChunkLayout}

theorem readChunks_one {c : ChunkLayout} (within : length + c.data.length ≤ limit) :
    readChunks limit length taken budget (c.bytes ++ rest) =
      if c.line.bytes.length ≤ budget
      then readChunks limit (length + c.data.length) (c.data.reverse ++ taken) (budget - c.line.bytes.length) rest
      else .refused .headersTooLarge :=
  readChunks_data c.told c.nonempty within

theorem readChunks_skip (within : length + (ChunkLayout.allData chunks).length ≤ limit) :
    readChunks limit length taken budget (ChunkLayout.allBytes chunks ++ rest) =
      if (linesBytes (ChunkLayout.sizeLines chunks)).length ≤ budget
      then readChunks limit (length + (ChunkLayout.allData chunks).length) ((ChunkLayout.allData chunks).reverse ++ taken)
        (budget - (linesBytes (ChunkLayout.sizeLines chunks)).length) rest
      else .refused .headersTooLarge := by
  induction chunks generalizing length taken budget with
  | nil => simp [ChunkLayout.allBytes, ChunkLayout.allData, ChunkLayout.sizeLines, linesBytes]
  | cons c later ih =>
    rw [c.allData_cons, List.length_append] at within
    rw [c.allBytes_cons, List.append_assoc, readChunks_one (by omega), ih (by omega), charged_twice, c.allData_cons,
      c.linesBytes_cons]
    simp only [List.length_append, List.reverse_append, List.append_assoc, Nat.sub_sub, Nat.add_assoc]

/-- Up to where it is closed, a body in chunks leaves only trailer lines to read. -/
theorem readChunks_unclosed (unclosed : t.close = none) (within : length + t.content.length ≤ limit) :
    readChunks limit length taken budget (t.bytes ++ rest) =
      if t.framing.length ≤ budget
      then (readTrailers (budget - t.framing.length) rest).map fun _ => taken.reverse ++ t.content
      else .refused .headersTooLarge := by
  have lines : linesBytes t.lines = t.last.bytes ++ linesBytes t.trailers := by
    rw [ChunkedLayout.lines, unclosed, linesBytes_cons, closing, Option.map_none, Option.toList_none, List.append_nil]
  have framing : t.framing.length =
      (linesBytes (ChunkLayout.sizeLines t.chunks)).length + t.last.bytes.length + (linesBytes t.trailers).length := by
    rw [ChunkedLayout.framing, linesBytes_append, lines, List.length_append, List.length_append, Nat.add_assoc]
  have collected : ((ChunkLayout.allData t.chunks).reverse ++ taken).reverse = taken.reverse ++ t.content := by
    rw [List.reverse_append, List.reverse_reverse, ChunkedLayout.content]
  rw [ChunkedLayout.bytes, List.append_assoc, readChunks_skip within, lines, List.append_assoc, readChunks_ended t.ended,
    readTrailers_skip t.spoken, apply_ite (Reading.map _), Reading.map_refused, Nat.sub_sub, Nat.sub_sub, charged_twice,
    charged_twice, framing, collected]

/-- What a body in chunks that lies in an input comes to, closed or not. -/
theorem readChunks_layout (read : ChunksRead limit length budget input t rest) :
    (t.close ≠ none → readChunks limit length taken budget input = .done (taken.reverse ++ t.content) rest) ∧
    (t.close = none → rest = [] →
      readChunks limit length taken budget input = .more (.ok (taken.reverse ++ t.content))) := by
  obtain ⟨rfl, within, paid⟩ := read
  let opened : ChunkedLayout := { t with close := none }
  have before (rest : Bytes) : readChunks limit length taken budget (opened.bytes ++ rest) = _ :=
    readChunks_unclosed rfl within
  refine ⟨fun closed => ?_, ?_⟩
  · obtain ⟨ending, close⟩ := Option.ne_none_iff_exists'.mp closed
    have octets : t.bytes = opened.bytes ++ ending.bytes := by
      simp [ChunkedLayout.bytes, ChunkedLayout.lines, opened, close, closing, linesBytes]
    have framing : t.framing.length = opened.framing.length + ending.bytes.length := by
      simp [ChunkedLayout.framing, ChunkedLayout.lines, opened, close, closing, linesBytes]
      omega
    rw [octets, List.append_assoc, before, if_pos (by omega), readTrailers_ending, if_pos (by omega)]
    rfl
  · rintro unclosed rfl
    have same : t = opened := by cases t; cases unclosed; rfl
    rw [same, before, if_pos (same ▸ paid), readTrailers]
    rfl

theorem readChunks_overlong (overlong : ChunksOverlong limit length budget input) :
    readChunks limit length taken budget input = .refused .headersTooLarge := by
  obtain ⟨content, lines, octets, rest, begun, rfl, within, overruns⟩ := overlong
  have fits := overruns.within
  have refused := readLine_long overruns.left
  cases begun with
  | chunks chunks => rw [readChunks_skip within, if_pos fits, readChunks_refused refused]
  | trailers t unclosed =>
    rw [readChunks_unclosed unclosed within, ChunkedLayout.framing, if_pos fits, readTrailers_refused refused]
    rfl

theorem readChunks_overfull (overfull : ChunksOverfull limit length budget input) :
    readChunks limit length taken budget input = .refused (.bodyTooLarge limit) := by
  obtain ⟨chunks, line, size, rest, told, rfl, within, beyond, fits⟩ := overfull
  have read := readLine_sent (budget - (linesBytes (ChunkLayout.sizeLines chunks)).length) line rest
  rw [if_pos (by omega)] at read
  rw [readChunks_skip within, if_pos (by omega), readChunks_line read, told, Reading.check, if_neg (by omega),
    if_pos (by omega)]

/-- A body in chunks that the end of the input closes is read, or refused for its size. -/
theorem readChunks_open (unclosed : t.close = none) (fits : length ≤ limit) :
    readChunks limit length taken budget t.bytes = .more (.ok (taken.reverse ++ t.content)) ∨
      ∃ fault, readChunks limit length taken budget t.bytes = .refused fault := by
  obtain ⟨chunks, last, ended, trailers, spoken, close⟩ := t
  cases unclosed
  induction chunks generalizing length taken budget with
  | nil =>
    rw [← List.append_nil (ChunkedLayout.bytes _), readChunks_unclosed rfl fits]
    split
    · rw [readTrailers]
      exact .inl rfl
    · exact .inr ⟨_, rfl⟩
  | cons c later ih =>
    let others : ChunkedLayout := ⟨later, last, ended, trailers, spoken, none⟩
    change readChunks _ _ _ _ (others.cons c).bytes = .more (.ok (taken.reverse ++ (others.cons c).content)) ∨
      ∃ fault, readChunks _ _ _ _ (others.cons c).bytes = .refused fault
    rw [others.bytes_cons, others.content_cons]
    by_cases within : length + c.data.length ≤ limit
    · rw [readChunks_one within]
      split
      · have goes : (c.data.reverse ++ taken).reverse ++ others.content = taken.reverse ++ (c.data ++ others.content) := by
          rw [List.reverse_append, List.reverse_reverse, List.append_assoc]
        rw [← goes]
        exact ih within
      · exact .inr ⟨_, rfl⟩
    · rw [ChunkLayout.bytes, List.append_assoc]
      by_cases paid : c.line.bytes.length ≤ budget
      · refine .inr ⟨_, readChunks_overfull ⟨[], c.line, _, _, c.told, rfl, fits, Nat.not_le.mp within, ?_⟩⟩
        rw [ChunkLayout.linesBytes_nil, List.length_nil]
        omega
      · have read := readLine_sent budget c.line (c.data ++ [0x0D, 0x0A] ++ others.bytes)
        rw [if_neg paid] at read
        exact .inr ⟨_, readChunks_refused read⟩

end

end ToolBridge.Http

import ToolBridge.Proofs.SentLines
import ToolBridge.Proofs.TextPieces

/-! Chunked bodies as they are sent. Reading one gives the chunks' octets joined, provided its framing
(the size lines, the trailer lines and the empty line that ends them) stays within the budget. -/

namespace ToolBridge.Http

/-- Nothing but blanks may stand between the size and an extension. -/
structure SizeLine (n : Nat) extends SentLine where
  size : String
  extension : String
  parts : text = size ++ extension
  spelled : Text.Spells 16 size n
  extended : ∀ c ∈ extension.toList.takeWhile (· != ';'), Text.isBlank c = true

/-- The shortest line of the size. -/
def SizeLine.plain (n : Nat) : SizeLine n :=
  have spelled := Text.spells_toDigits (by decide : 2 ≤ 16) (by decide) n
  { text := .ofList (Nat.toDigits 16 n)
    ending := .crlf
    single := Text.Solid.single fun c member => (Text.visible_of_digit (spelled.digits (by decide) (by decide) c member)).1
    whole := nofun
    size := .ofList (Nat.toDigits 16 n)
    extension := ""
    parts := by simp
    spelled
    extended := by simp }

theorem readChunkSize_sent {n : Nat} (l : SizeLine n) (word : n < UInt64.size) :
    readChunkSize l.text = .ok n := by
  have visible := fun c member => Text.visible_of_digit (l.spelled.digits (by decide) (by decide) c member)
  -- no digit is a semicolon or a blank, so the size ends where the extension begins
  have before : l.text.toList.takeWhile (· != ';') = l.size.toList ++ l.extension.toList.takeWhile (· != ';') := by
    rw [l.parts, String.toList_append, List.takeWhile_append_of_pos]
    intro c member
    exact bne_iff_ne.mpr (visible c member).2
  have trimmed : Text.Trimmed l.size := Text.Solid.trimmed fun c member => (visible c member).1
  have size : Text.trim ((Text.split ';' l.text).headD "") = l.size := by
    rw [Text.split_headD, before, Text.trim, String.toList_ofList, ← List.nil_append l.size.toList,
      Text.trimChars_padded (by simp) l.extended trimmed.start trimmed.finish, String.ofList_toList]
  have number := Text.readNat_spelled (by decide) (by decide) word l.spelled
  unfold readChunkSize
  simp only [size, number]

structure Chunk where
  data : Bytes
  nonempty : data ≠ []
  line : SizeLine data.length

def Chunk.bytes (c : Chunk) : Bytes := c.line.bytes ++ (c.data ++ [0x0D, 0x0A])

structure ChunkedBody where
  chunks : List Chunk
  last : SizeLine 0
  trailers : List SentLine
  ending : Ending
  spoken : ∀ t ∈ trailers, t.text ≠ ""

namespace ChunkedBody

variable (b : ChunkedBody)

def content : Bytes := b.chunks.flatMap (·.data)

def closing : Bytes := b.last.bytes ++ (linesBytes b.trailers ++ b.ending.bytes)

def bytes : Bytes := b.chunks.flatMap Chunk.bytes ++ b.closing

def lines : List SentLine := b.chunks.map (·.line.toSentLine) ++ b.last.toSentLine :: b.trailers

def framing : Bytes := linesBytes b.lines ++ b.ending.bytes

theorem framing_eq : b.framing = linesBytes (b.chunks.map (·.line.toSentLine)) ++ b.closing := by
  simp [framing, lines, closing, linesBytes]

end ChunkedBody

section Reading

variable {limit length budget left : Nat} {taken input data rest : Bytes} {text : String} {fault : Fault}

theorem readChunks_refused (read : readLine budget input = .refused fault) :
    readChunks limit length taken budget input = .refused fault := by
  rw [readChunks]
  split <;> simp_all

theorem readChunks_last (read : readLine budget input = .line text left rest)
    (size : readChunkSize text = .ok 0) :
    readChunks limit length taken budget input = (readTrailers left rest).map fun _ => taken.reverse := by
  rw [readChunks]
  split <;> simp_all [Reading.check]

theorem readChunks_chunk (read : readLine budget input = .line text left (data ++ 0x0D :: 0x0A :: rest))
    (size : readChunkSize text = .ok data.length) (nonempty : data ≠ []) (fits : length + data.length ≤ limit) :
    readChunks limit length taken budget input =
      readChunks limit (length + data.length) (data.reverse ++ taken) left rest := by
  have positive : data.length ≠ 0 := by simpa using nonempty
  have within : ¬ length + data.length > limit := by omega
  rw [readChunks]
  split
  · simp_all
  · simp_all
  · simp_all
  · next text' left' rest' read' =>
    obtain ⟨rfl, rfl, rfl⟩ : text = text' ∧ left = left' ∧ data ++ 0x0D :: 0x0A :: rest = rest' := by
      simpa [read] using read'
    simp only [Reading.check, size, if_neg positive, if_neg within]
    split
    · next a b after dropped =>
      rw [List.drop_left] at dropped
      obtain ⟨rfl, rfl, rfl⟩ : 0x0D = a ∧ 0x0A = b ∧ rest = after := by simpa using dropped
      simp
    · next short =>
      exact (short 0x0D 0x0A rest List.drop_left).elim

/-- A chunk is charged its size line; its octets count towards the limit instead. -/
theorem readChunks_data {l : SentLine} (told : readChunkSize l.text = .ok data.length) (nonempty : data ≠ [])
    (within : length + data.length ≤ limit) :
    readChunks limit length taken budget (l.bytes ++ (data ++ [0x0D, 0x0A]) ++ rest) =
      if l.bytes.length ≤ budget
      then readChunks limit (length + data.length) (data.reverse ++ taken) (budget - l.bytes.length) rest
      else .refused .headersTooLarge := by
  have octets : l.bytes ++ (data ++ [0x0D, 0x0A]) ++ rest = l.bytes ++ (data ++ 0x0D :: 0x0A :: rest) := by simp
  have read := readLine_sent budget l (data ++ 0x0D :: 0x0A :: rest)
  rw [octets]
  split
  next paid =>
    rw [if_pos paid] at read
    exact readChunks_chunk read told nonempty within
  next unpaid =>
    rw [if_neg unpaid] at read
    exact readChunks_refused read

theorem readChunks_ended {l : SentLine} (told : readChunkSize l.text = .ok 0) :
    readChunks limit length taken budget (l.bytes ++ rest) =
      if l.bytes.length ≤ budget then (readTrailers (budget - l.bytes.length) rest).map fun _ => taken.reverse
      else .refused .headersTooLarge := by
  have read := readLine_sent budget l rest
  split
  next paid =>
    rw [if_pos paid] at read
    exact readChunks_last read told
  next unpaid =>
    rw [if_neg unpaid] at read
    exact readChunks_refused read

end Reading

variable {limit length budget : Nat} {taken : Bytes} (b : ChunkedBody) (rest : Bytes)

theorem readChunks_closing :
    readChunks limit length taken budget (b.closing ++ rest) =
      if b.closing.length ≤ budget then .done taken.reverse rest else .refused .headersTooLarge := by
  rw [ChunkedBody.closing, List.append_assoc, List.length_append, ← charged_twice,
    readChunks_ended (readChunkSize_sent b.last (by decide)), readTrailers_sent b.spoken, apply_ite (Reading.map _)]
  rfl

theorem readChunks_step {c : Chunk} (word : limit < UInt64.size) (within : length + c.data.length ≤ limit) :
    readChunks limit length taken budget (c.bytes ++ rest) =
      if c.line.bytes.length ≤ budget
      then readChunks limit (length + c.data.length) (c.data.reverse ++ taken) (budget - c.line.bytes.length) rest
      else .refused .headersTooLarge :=
  readChunks_data (readChunkSize_sent c.line (by omega)) c.nonempty within

theorem readChunks_sent {chunks : List Chunk} (word : limit < UInt64.size)
    (within : length + (chunks.flatMap (·.data)).length ≤ limit) :
    readChunks limit length taken budget (chunks.flatMap Chunk.bytes ++ b.closing ++ rest) =
      if (linesBytes (chunks.map (·.line.toSentLine)) ++ b.closing).length ≤ budget
      then .done (taken.reverse ++ chunks.flatMap (·.data)) rest
      else .refused .headersTooLarge := by
  induction chunks generalizing length taken budget with
  | nil => simpa [linesBytes] using readChunks_closing b rest
  | cons c later ih =>
    rw [List.flatMap_cons, List.length_append] at within
    have collected : (c.data.reverse ++ taken).reverse ++ later.flatMap (·.data) =
        taken.reverse ++ (c :: later).flatMap (·.data) := by simp
    rw [List.flatMap_cons, List.append_assoc, List.append_assoc, readChunks_step _ word (by omega),
      ← List.append_assoc, ih (by omega), charged_twice, ← List.length_append, collected, ← List.append_assoc]
    rfl

theorem readChunkedBody_sent (word : limit < UInt64.size) (within : b.content.length ≤ limit) :
    readChunkedBody limit (b.bytes ++ rest) =
      if b.framing.length ≤ headLimit then .done b.content rest else .refused .headersTooLarge := by
  have counted : 0 + (b.chunks.flatMap (·.data)).length ≤ limit := by rwa [Nat.zero_add]
  rw [b.framing_eq]
  exact readChunks_sent b rest word counted

end ToolBridge.Http

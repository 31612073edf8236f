import ToolBridge.Http.Incoming
import ToolBridge.Proofs.SentLines

/-! Heads of requests as they lie in an input: empty lines, a line that asks, header lines and the empty line after them.
Reading one charges all of its lines to the budget and leaves the body. -/

namespace ToolBridge.Http

section
variable {budget left : Nat} {input rest : Bytes} {text : String} {fields : Fields} {fault : Fault}

theorem readHeaders_line (read : readLine budget input = .line text left rest) :
    readHeaders fields budget input =
      if text = "" then .done fields rest
      else .check (readHeader text fields) fun fields => readHeaders fields left rest := by
  rw [readHeaders]
  split <;> simp_all

theorem readFirstLine_line (read : readLine budget input = .line text left rest) :
    readFirstLine budget input =
      if text = "" then readFirstLine left rest
      else .check (readRequestLine text) fun line => .done (some (line, left)) rest := by
  rw [readFirstLine]
  split <;> simp_all

theorem readHeaders_refused (read : readLine budget input = .refused fault) :
    readHeaders fields budget input = .refused fault := by
  rw [readHeaders]
  split <;> simp_all

theorem readFirstLine_refused (read : readLine budget input = .refused fault) :
    readFirstLine budget input = .refused fault := by
  rw [readFirstLine]
  split <;> simp_all

end

theorem linesBytes_append (lines later : List SentLine) :
    linesBytes (lines ++ later) = linesBytes lines ++ linesBytes later :=
  List.flatMap_append

/-- The fields that header lines come to. -/
def readFieldLines (lines : List SentLine) (fields : Fields) : Except RequestFlaw Fields :=
  lines.foldlM (fun fields l => readHeader l.text fields) fields

theorem readFieldLines_cons {l : SentLine} {fields next : Fields} (told : readHeader l.text fields = .ok next)
    (lines : List SentLine) : readFieldLines (l :: lines) fields = readFieldLines lines next := by
  simp only [readFieldLines, List.foldlM_cons, told]
  rfl

theorem readFieldLines_cons_eq_ok {l : SentLine} {lines : List SentLine} {fields given : Fields}
    (told : readFieldLines (l :: lines) fields = .ok given) :
    ∃ next, readHeader l.text fields = .ok next ∧ readFieldLines lines next = .ok given := by
  cases first : readHeader l.text fields with
  | error flaw =>
    simp only [readFieldLines, List.foldlM_cons, first] at told
    cases told
  | ok next => exact ⟨next, rfl, readFieldLines_cons first lines ▸ told⟩

theorem spoken_of_readHeader {l : SentLine} {fields next : Fields} (told : readHeader l.text fields = .ok next) :
    l.text ≠ "" := by
  intro silent
  rw [silent] at told
  cases told

theorem spoken_of_readRequestLine {l : SentLine} {line : RequestLine} (asked : readRequestLine l.text = .ok line) :
    l.text ≠ "" := by
  intro silent
  rw [silent] at asked
  cases asked

/-- A head as it lies in an input: empty lines, the request line, header lines, and the empty line at its end. -/
structure HeadLayout where
  blanks : List Ending
  first : SentLine
  headers : List SentLine
  close : Ending
  line : RequestLine
  fields : Fields
  asked : readRequestLine first.text = .ok line
  told : readFieldLines headers [] = .ok fields

namespace HeadLayout
variable (h : HeadLayout)

def lines : List SentLine := h.blanks.map .empty ++ (h.first :: (h.headers ++ [.empty h.close]))

def bytes : Bytes := linesBytes h.lines

def request (body : Bytes) : Request where
  method := h.line.method
  path := (splitTarget h.line.target).1
  query := (splitTarget h.line.target).2
  version := h.line.version
  headers := h.fields
  body

end HeadLayout

/-! ## What a head comes to -/

section
variable {budget : Nat} {rest : Bytes}

theorem readFirstLine_skip (blanks : List Ending) :
    readFirstLine budget (linesBytes (blanks.map .empty) ++ rest) =
      if (linesBytes (blanks.map .empty)).length ≤ budget
      then readFirstLine (budget - (linesBytes (blanks.map .empty)).length) rest
      else .refused .headersTooLarge := by
  induction blanks generalizing budget with
  | nil => simp [linesBytes]
  | cons ending blanks ih =>
    have read := readLine_sent budget (.empty ending) (linesBytes (blanks.map .empty) ++ rest)
    rw [List.map_cons, linesBytes_cons, List.append_assoc, List.length_append, ← charged_twice, ← Nat.sub_sub, ← ih]
    split
    next paid =>
      rw [if_pos paid] at read
      rw [readFirstLine_line read, if_pos (SentLine.text_empty ending)]
    next unpaid =>
      rw [if_neg unpaid] at read
      exact readFirstLine_refused read

theorem readFirstLine_asked {first : SentLine} {line : RequestLine} (asked : readRequestLine first.text = .ok line) :
    readFirstLine budget (first.bytes ++ rest) =
      if first.bytes.length ≤ budget then .done (some (line, budget - first.bytes.length)) rest
      else .refused .headersTooLarge := by
  have read := readLine_sent budget first rest
  split
  next paid =>
    rw [if_pos paid] at read
    rw [readFirstLine_line read, if_neg (spoken_of_readRequestLine asked), asked]
    rfl
  next unpaid =>
    rw [if_neg unpaid] at read
    exact readFirstLine_refused read

theorem readHeaders_told {headers : List SentLine} {fields given : Fields}
    (told : readFieldLines headers fields = .ok given) :
    readHeaders fields budget (linesBytes headers ++ rest) =
      if (linesBytes headers).length ≤ budget then readHeaders given (budget - (linesBytes headers).length) rest
      else .refused .headersTooLarge := by
  induction headers generalizing fields budget with
  | nil =>
    cases told
    simp [linesBytes]
  | cons l headers ih =>
    obtain ⟨next, first, later⟩ := readFieldLines_cons_eq_ok told
    have read := readLine_sent budget l (linesBytes headers ++ rest)
    rw [linesBytes_cons, List.append_assoc, List.length_append, ← charged_twice, ← Nat.sub_sub, ← ih later]
    split
    next paid =>
      rw [if_pos paid] at read
      rw [readHeaders_line read, if_neg (spoken_of_readHeader first), first]
      rfl
    next unpaid =>
      rw [if_neg unpaid] at read
      exact readHeaders_refused read

theorem readHeaders_closed (fields : Fields) (close : Ending) :
    readHeaders fields budget (close.bytes ++ rest) =
      if close.bytes.length ≤ budget then .done fields rest else .refused .headersTooLarge := by
  have read := readLine_sent budget (.empty close) rest
  rw [SentLine.bytes_empty] at read
  split
  next paid =>
    rw [if_pos paid] at read
    rw [readHeaders_line read, if_pos (SentLine.text_empty close)]
  next unpaid =>
    rw [if_neg unpaid] at read
    exact readHeaders_refused read

end

namespace HeadLayout
variable (h : HeadLayout)

/-- The octets of the empty lines and the request line. -/
def opening : Bytes := linesBytes (h.blanks.map .empty) ++ h.first.bytes

/-- The octets of the header lines and the empty line after them. -/
def remainder : Bytes := linesBytes h.headers ++ h.close.bytes

theorem bytes_eq : h.bytes = h.opening ++ h.remainder := by
  simp [bytes, lines, opening, remainder, linesBytes]

theorem readFirstLine_eq (budget : Nat) (rest : Bytes) :
    readFirstLine budget (h.opening ++ rest) =
      if h.opening.length ≤ budget then .done (some (h.line, budget - h.opening.length)) rest
      else .refused .headersTooLarge := by
  rw [opening, List.append_assoc, readFirstLine_skip, readFirstLine_asked h.asked, charged_twice, Nat.sub_sub,
    List.length_append]

theorem readHeaders_eq (budget : Nat) (rest : Bytes) :
    readHeaders [] budget (h.remainder ++ rest) =
      if h.remainder.length ≤ budget then .done h.fields rest else .refused .headersTooLarge := by
  rw [remainder, List.append_assoc, readHeaders_told h.told, readHeaders_closed, charged_twice, List.length_append]

end HeadLayout

/-- What is left to read after a head is its body; a head beyond the budget is refused for its length. -/
theorem readRequest_layout (h : HeadLayout) (limit : Nat) (rest : Bytes) :
    readRequest limit (h.bytes ++ rest) =
      if h.bytes.length ≤ headLimit then (readBody limit h.fields rest).map fun body => some (h.request body)
      else .refused .headersTooLarge := by
  rw [h.bytes_eq, List.append_assoc, List.length_append, ← charged_twice, readRequest, h.readFirstLine_eq]
  split
  next =>
    change (readHeaders [] _ _).bind _ = _
    rw [h.readHeaders_eq]
    split
    next =>
      unfold HeadLayout.request
      generalize splitTarget h.line.target = target
      rfl
    next => rfl
  next => rfl

end ToolBridge.Http

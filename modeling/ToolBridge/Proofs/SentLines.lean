import ToolBridge.Http.Chunked
import ToolBridge.Proofs.TextOctets

/-! Lines as they are sent, and what reading makes of them. Reading a line takes its octets and no
more, whatever comes after them, or refuses it because the budget is spent. -/

namespace ToolBridge.Http

inductive Ending where
  | lf
  | crlf
deriving DecidableEq, Repr

def Ending.bytes : Ending → Bytes
  | .lf => [0x0A]
  | .crlf => [0x0D, 0x0A]

/-- Before a bare line feed, a carriage return would be read as a part of the ending. -/
structure SentLine where
  text : String
  ending : Ending
  single : '\n' ∉ text.toList
  whole : ending = .lf → text.toList.getLast? ≠ some '\r'

namespace SentLine

def bytes (l : SentLine) : Bytes := Text.utf8 l.text ++ l.ending.bytes

def empty (ending : Ending) : SentLine where
  text := ""
  ending
  single := by simp
  whole := by simp

@[simp] theorem text_empty (ending : Ending) : (empty ending).text = "" := rfl

@[simp] theorem bytes_empty (ending : Ending) : (empty ending).bytes = ending.bytes := by
  simp [bytes, empty]

theorem length_bytes_pos (l : SentLine) : 0 < l.bytes.length := by
  cases l with
  | mk text ending => cases ending <;> simp [bytes, Ending.bytes]

def octets (l : SentLine) : Bytes :=
  match l.ending with
  | .lf => Text.utf8 l.text
  | .crlf => Text.utf8 l.text ++ [0x0D]

theorem bytes_eq (l : SentLine) : l.bytes = l.octets ++ [0x0A] := by
  unfold bytes octets
  cases l.ending <;> simp [Ending.bytes]

theorem octets_plain (l : SentLine) : ∀ b ∈ l.octets, (b != 0x0A) = true := by
  have plain : ∀ b ∈ Text.utf8 l.text, (b != 0x0A) = true := by
    intro b member
    refine bne_iff_ne.mpr ?_
    rintro rfl
    obtain ⟨c, inside, feed⟩ := Text.mem_utf8 member (by decide)
    have : c = '\n' := Char.toNat_inj.mp feed
    exact l.single (this ▸ inside)
  unfold octets
  cases l.ending with
  | lf => exact plain
  | crlf =>
    intro b member
    rcases List.mem_append.mp member with inside | last
    · exact plain b inside
    · obtain rfl := List.mem_singleton.mp last
      decide

theorem withoutEndCr_octets (l : SentLine) : withoutEndCr l.octets = Text.utf8 l.text := by
  unfold octets
  cases bare : l.ending with
  | crlf => simp [withoutEndCr]
  | lf =>
    unfold withoutEndCr
    split
    · next before reversed =>
      exfalso
      have last : (Text.utf8 l.text).getLast? = some 0x0D := by
        rw [← List.head?_reverse, reversed]
        rfl
      obtain ⟨c, final, return_⟩ := Text.getLast?_utf8 last (by decide)
      have : c = '\r' := Char.toNat_inj.mp return_
      exact l.whole bare (this ▸ final)
    · rfl

end SentLine

theorem readLine_sent (budget : Nat) (l : SentLine) (rest : Bytes) :
    readLine budget (l.bytes ++ rest) =
      if l.bytes.length ≤ budget then .line l.text (budget - l.bytes.length) rest
      else .refused .headersTooLarge := by
  have before : (l.bytes ++ rest).takeWhile (· != 0x0A) = l.octets := by
    rw [l.bytes_eq, List.append_assoc, List.takeWhile_append_of_pos l.octets_plain]
    simp
  have after : (l.bytes ++ rest).dropWhile (· != 0x0A) = 0x0A :: rest := by
    rw [l.bytes_eq, List.append_assoc, List.dropWhile_append_of_pos l.octets_plain]
    simp
  have length : l.bytes.length = l.octets.length + 1 := by simp [l.bytes_eq]
  simp only [readLine, before, after, length, l.withoutEndCr_octets, Text.ofUtf8?_utf8]
  by_cases paid : l.octets.length + 1 ≤ budget
  · rw [if_neg (by omega), if_pos paid]
  · rw [if_pos (by omega), if_neg paid]

/-- What is charged in two parts is refused just if the whole is. -/
theorem charged_twice {α : Type} (first second budget : Nat) (paid unpaid : α) :
    (if first ≤ budget then if second ≤ budget - first then paid else unpaid else unpaid) =
      if first + second ≤ budget then paid else unpaid := by
  by_cases within : first ≤ budget
  · have same : second ≤ budget - first ↔ first + second ≤ budget := by omega
    simp only [if_pos within, same]
  · rw [if_neg within, if_neg (by omega)]

def linesBytes (lines : List SentLine) : Bytes := lines.flatMap SentLine.bytes

theorem linesBytes_cons (l : SentLine) (lines : List SentLine) :
    linesBytes (l :: lines) = l.bytes ++ linesBytes lines := List.flatMap_cons

section Trailers

variable {budget left : Nat} {input rest : Bytes} {text : String} {fault : Fault}

theorem readTrailers_line (read : readLine budget input = .line text left rest) :
    readTrailers budget input = if text = "" then .done () rest else readTrailers left rest := by
  rw [readTrailers]
  split <;> simp_all

theorem readTrailers_refused (read : readLine budget input = .refused fault) :
    readTrailers budget input = .refused fault := by
  rw [readTrailers]
  split <;> simp_all

theorem readTrailers_step {t : SentLine} (spoken : t.text ≠ "") (budget : Nat) (rest : Bytes) :
    readTrailers budget (t.bytes ++ rest) =
      if t.bytes.length ≤ budget then readTrailers (budget - t.bytes.length) rest
      else .refused .headersTooLarge := by
  have read := readLine_sent budget t rest
  split
  next paid =>
    rw [if_pos paid] at read
    rw [readTrailers_line read, if_neg spoken]
  next unpaid =>
    rw [if_neg unpaid] at read
    exact readTrailers_refused read

theorem readTrailers_ending (ending : Ending) (budget : Nat) (rest : Bytes) :
    readTrailers budget (ending.bytes ++ rest) =
      if ending.bytes.length ≤ budget then .done () rest else .refused .headersTooLarge := by
  have read := readLine_sent budget (.empty ending) rest
  rw [SentLine.bytes_empty] at read
  split
  next paid =>
    rw [if_pos paid] at read
    rw [readTrailers_line read, if_pos (SentLine.text_empty ending)]
  next unpaid =>
    rw [if_neg unpaid] at read
    exact readTrailers_refused read

theorem readTrailers_skip {trailers : List SentLine} (spoken : ∀ t ∈ trailers, t.text ≠ "") (budget : Nat) (rest : Bytes) :
    readTrailers budget (linesBytes trailers ++ rest) =
      if (linesBytes trailers).length ≤ budget then readTrailers (budget - (linesBytes trailers).length) rest
      else .refused .headersTooLarge := by
  induction trailers generalizing budget with
  | nil => simp [linesBytes]
  | cons t later ih =>
    obtain ⟨first, others⟩ := List.forall_mem_cons.mp spoken
    rw [linesBytes_cons, List.append_assoc, List.length_append, readTrailers_step first, ih others, charged_twice,
      Nat.sub_sub]

theorem readTrailers_sent {trailers : List SentLine} (spoken : ∀ t ∈ trailers, t.text ≠ "") (ending : Ending)
    (budget : Nat) (rest : Bytes) :
    readTrailers budget (linesBytes trailers ++ ending.bytes ++ rest) =
      if (linesBytes trailers ++ ending.bytes).length ≤ budget then .done () rest
      else .refused .headersTooLarge := by
  rw [List.append_assoc, readTrailers_skip spoken, readTrailers_ending, charged_twice, List.length_append]

end Trailers

end ToolBridge.Http

import ToolBridge.Proofs.FieldMerging
import ToolBridge.Proofs.HeadLayouts
import ToolBridge.Proofs.TextPieces

/-! Heads of requests as they are sent, and that reading one gives its parts back: the three words of
the request line, after any empty lines, and the header lines merged into fields. -/

namespace ToolBridge.Http

open Text (Blank Solid Trimmed)

structure HeaderLine where
  name : String
  gap : String
  value : String
  ending : Ending
  named : name ≠ ""
  name_trimmed : Trimmed name
  name_undivided : ':' ∉ name.toList
  name_single : '\n' ∉ name.toList
  gap_plain : ∀ c ∈ gap.toList, c = ' ' ∨ c = '\t'
  value_trimmed : Trimmed value
  value_single : '\n' ∉ value.toList

namespace HeaderLine

def text (h : HeaderLine) : String := h.name ++ ":" ++ (h.gap ++ h.value)

def field (h : HeaderLine) : String × String := (Text.lower h.name, h.value)

theorem gap_blank (h : HeaderLine) : Blank h.gap := by
  intro c member
  rcases h.gap_plain c member with rfl | rfl <;> decide

theorem gap_single (h : HeaderLine) : '\n' ∉ h.gap.toList := by
  intro member
  rcases h.gap_plain _ member with same | same <;> exact absurd same (by decide)

theorem unreturned (h : HeaderLine) : h.text.toList.getLast? ≠ some '\r' := by
  have value : h.value.toList.getLast? ≠ some '\r' := by
    intro last
    have := h.value_trimmed.finish
    simp [last, Text.isBlank] at this
  have gap : h.gap.toList.getLast? ≠ some '\r' := by
    intro last
    rcases h.gap_plain _ (List.mem_of_getLast? last) with same | same <;> exact absurd same (by decide)
  -- the last character is of the value, else of the gap, else the colon
  simp only [text, String.toList_append, List.getLast?_append]
  cases last : h.value.toList.getLast? with
  | some c => simpa [last] using value
  | none => cases before : h.gap.toList.getLast? with
    | some c => simpa [before] using gap
    | none => simp

def line (h : HeaderLine) : SentLine where
  text := h.text
  ending := h.ending
  single := by simp [text, String.toList_append, h.name_single, h.gap_single, h.value_single]
  whole := fun _ => h.unreturned

end HeaderLine

theorem readHeader_sent (h : HeaderLine) (fields : Fields) :
    readHeader h.line.text fields = .ok (fields.add h.field.1 h.field.2) := by
  have cut : Text.cutAt ':' h.text = some (h.name, h.gap ++ h.value) := Text.cutAt_first h.name_undivided
  have value : Text.trim (h.gap ++ h.value) = h.value := by
    have nothing : Blank "" := by simp [Blank]
    simpa using Text.trim_padded h.gap_blank nothing h.value_trimmed
  have nonempty : Text.lower h.name ≠ "" := by
    simpa [Text.lower] using h.named
  simp [readHeader, HeaderLine.line, cut, value, Text.trim_eq_self h.name_trimmed, nonempty, HeaderLine.field]

/-- Everything before the body; empty lines may come first. -/
structure Head where
  blanks : List Ending
  method : String
  target : String
  version : String
  ending : Ending
  headers : List HeaderLine
  close : Ending
  method_ne : method ≠ ""
  method_capital : ∀ c ∈ method.toList, 'A' ≤ c ∧ c ≤ 'Z'
  target_ne : target ≠ ""
  target_solid : Solid target
  version_one : "HTTP/1.".toList <+: version.toList
  version_solid : Solid version

namespace Head

variable (h : Head)

theorem method_solid : Solid h.method := by
  intro c member
  obtain ⟨low, high⟩ := h.method_capital c member
  have low : 65 ≤ c.toNat := low
  have high : c.toNat ≤ 90 := high
  exact Text.isBlank_of_visible (by omega) (by omega)

theorem version_ne : h.version ≠ "" := by
  intro empty
  have := h.version_one
  simp [empty] at this

def requestLine : SentLine where
  text := h.method ++ " " ++ h.target ++ " " ++ h.version
  ending := h.ending
  single := by
    simp [String.toList_append, h.method_solid.single, h.target_solid.single, h.version_solid.single]
  whole := fun _ last => by
    have nonempty : h.version.toList ≠ [] := by simpa using h.version_ne
    rw [String.toList_append, List.getLast?_append, List.getLast?_eq_some_getLast nonempty, Option.some_or,
      Option.some.injEq] at last
    exact absurd (h.version_solid _ (last ▸ List.getLast_mem nonempty)) (by decide)

def lines : List SentLine :=
  h.blanks.map .empty ++ h.requestLine :: h.headers.map (·.line) ++ [.empty h.close]

def bytes : Bytes := linesBytes h.lines

def fields : Fields := Fields.merged (h.headers.map (·.field))

def request (body : Bytes) : Request where
  method := h.method
  path := (splitTarget h.target).1
  query := (splitTarget h.target).2
  version := h.version
  headers := h.fields
  body

end Head

theorem readRequestLine_sent (h : Head) :
    readRequestLine h.requestLine.text = .ok ⟨h.method, h.target, h.version⟩ := by
  have words : Text.words h.requestLine.text = [h.method, h.target, h.version] :=
    Text.words_three h.method_solid h.target_solid h.version_solid h.method_ne h.target_ne h.version_ne
  have one : "HTTP/1.".toList.isPrefixOf h.version.toList = true := List.isPrefixOf_iff_prefix.mpr h.version_one
  have capital : (h.method.toList.all fun c => 'A' ≤ c && c ≤ 'Z') = true := by
    simpa using h.method_capital
  simp only [readRequestLine, words, one, capital, Bool.not_true, Bool.false_eq_true, if_false]

theorem readFieldLines_sent (headers : List HeaderLine) (fields : Fields) :
    readFieldLines (headers.map (·.line)) fields = .ok (fields.addAll (headers.map (·.field))) := by
  induction headers generalizing fields with
  | nil => rfl
  | cons h later ih => exact (readFieldLines_cons (readHeader_sent h fields) _).trans (ih _)

namespace Head

/-- How the head lies in an input. -/
def layout (h : Head) : HeadLayout where
  blanks := h.blanks
  first := h.requestLine
  headers := h.headers.map (·.line)
  close := h.close
  line := ⟨h.method, h.target, h.version⟩
  fields := h.fields
  asked := readRequestLine_sent h
  told := by rw [readFieldLines_sent, Fields.addAll_nil, fields]

theorem bytes_layout (h : Head) : h.layout.bytes = h.bytes := by
  simp only [HeadLayout.bytes, HeadLayout.lines, layout, bytes, lines, List.append_assoc, List.cons_append]

end Head

/-- What is left to read after a head is its body, under the fields of the head. -/
theorem readRequest_head {h : Head} (paid : h.bytes.length ≤ headLimit) (limit : Nat) (rest : Bytes) :
    readRequest limit (h.bytes ++ rest) = (readBody limit h.fields rest).map fun body => some (h.request body) := by
  rw [← h.bytes_layout] at paid ⊢
  rw [readRequest_layout, if_pos paid]
  rfl

end ToolBridge.Http

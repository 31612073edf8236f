import ToolBridge.Http.Fault
import ToolBridge.Text.Utf8

/-! Reading from octets that may still go on: what they decide already, and what they would mean if
no more came. Lines end at a line feed and are charged, ending included, to a budget. -/

namespace ToolBridge.Http

inductive Reading (α : Type) where
  | done (value : α) (rest : Bytes)
  | refused (fault : Fault)
  /-- Undecided; `atEnd` is what it comes to if nothing follows. -/
  | more (atEnd : Except Fault α)

namespace Reading

variable {α β : Type}

def atEnd : Reading α → Except Fault α
  | .done value _ => .ok value
  | .refused fault => .error fault
  | .more result => result

def bind (r : Reading α) (next : α → Bytes → Reading β) : Reading β :=
  match r with
  | .done value rest => next value rest
  | .refused fault => .refused fault
  | .more (.ok value) => .more (next value []).atEnd
  | .more (.error fault) => .more (.error fault)

def map (f : α → β) (r : Reading α) : Reading β := r.bind fun value rest => .done (f value) rest

def malformed (flaw : RequestFlaw) : Reading α := .refused (.malformedRequest flaw)

/-- Undecided, and malformed if nothing follows. -/
def unlessMore (flaw : RequestFlaw) : Reading α := .more (.error (.malformedRequest flaw))

/-- Goes on with a part that is well formed. -/
def check (part : Except RequestFlaw α) (next : α → Reading β) : Reading β :=
  match part with
  | .ok value => next value
  | .error flaw => .malformed flaw

end Reading

inductive Line where
  | line (text : String) (budget : Nat) (rest : Bytes)
  | refused (fault : Fault)
  /-- There is nothing at all. -/
  | absent
  /-- There is a beginning within the budget, but no line feed yet. -/
  | started

def withoutEndCr (line : Bytes) : Bytes :=
  match line.reverse with
  | 0x0D :: rest => rest.reverse
  | _ => line

/-- Takes a line off the input; a carriage return before the line feed belongs to the ending. -/
def readLine (budget : Nat) (input : Bytes) : Line :=
  let octets := input.takeWhile (· != 0x0A)
  match input.dropWhile (· != 0x0A) with
  | [] =>
    if octets.length > budget then .refused .headersTooLarge
    else if octets.isEmpty then .absent
    else .started
  | _ :: rest =>
    if octets.length + 1 > budget then .refused .headersTooLarge
    else match Text.ofUtf8? (withoutEndCr octets) with
      | some text => .line text (budget - (octets.length + 1)) rest
      | none => .refused (.malformedRequest .notText)

/-- The budget pays for every octet of the line, its ending included. -/
theorem readLine_budget {budget left : Nat} {input rest : Bytes} {text : String}
    (h : readLine budget input = .line text left rest) :
    left + input.length = budget + rest.length ∧ rest.length < input.length := by
  have whole := congrArg List.length (List.takeWhile_append_dropWhile (p := (· != 0x0A)) (l := input))
  simp only [readLine] at h
  split at h
  · split at h
    · cases h
    · split at h <;> cases h
  · next b tail cut =>
    simp only [cut, List.length_append, List.length_cons] at whole
    split at h
    · cases h
    · split at h
      · cases h
        omega
      · cases h

theorem readLine_length {budget left : Nat} {input rest : Bytes} {text : String}
    (h : readLine budget input = .line text left rest) : rest.length < input.length :=
  (readLine_budget h).2

end ToolBridge.Http

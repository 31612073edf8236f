import ToolBridge.Dispatch
import ToolBridge.Entries

/-! Reply slots: where a caller waits for the one answer to its request. A slot is answered at most
once; either side may let go first. -/

namespace ToolBridge.Queue

inductive Slot where
  | waiting
  | answered (answer : Dispatch.Answer)
  /-- No answer can come: it was taken, or whoever owed it let go. -/
  | closed

/-- Slots by their numbers, given in order. A slot whose caller let go is gone. -/
structure Slots where
  made : Nat := 0
  slots : Entries Nat Slot := []

namespace Slots

def make (s : Slots) : Nat × Slots := (s.made + 1, ⟨s.made + 1, s.slots.put (s.made + 1) .waiting⟩)

/-- Whether the caller still waited. -/
def answer (ticket : Nat) (answer : Dispatch.Answer) (s : Slots) : Bool × Slots :=
  match s.slots.get? ticket with
  | some .waiting => (true, { s with slots := s.slots.put ticket (.answered answer) })
  | _ => (false, s)

/-- Whoever owes the answer lets go. -/
def abandon (ticket : Nat) (s : Slots) : Slots :=
  match s.slots.get? ticket with
  | some .waiting => { s with slots := s.slots.put ticket .closed }
  | _ => s

/-- What the caller finds; an answer is found once. -/
def poll (ticket : Nat) (s : Slots) : Slot × Slots :=
  match s.slots.get? ticket with
  | some (.answered a) => (.answered a, { s with slots := s.slots.put ticket .closed })
  | some .waiting => (.waiting, s)
  | _ => (.closed, s)

/-- The caller lets go. -/
def hangUp (ticket : Nat) (s : Slots) : Slots := { s with slots := s.slots.erase ticket }

end Slots

end ToolBridge.Queue

import ToolBridge.Entries
import ToolBridge.EventStream.Frame

/-! Outboxes: frames on their way from the bridge to the writer of one event stream. Either end can
let go of an outbox; the frames in it can still be taken once the bridge has. -/

namespace ToolBridge.Stream

open EventStream (Frame)

structure Outbox where
  frames : List Frame := []
  /-- The bridge may still add frames. -/
  fed : Bool := true
  /-- The writer may still take frames. -/
  read : Bool := true
deriving DecidableEq, Repr

/-- What a writer finds when it looks for a frame. -/
inductive Found where
  | frame (frame : Frame)
  | empty
  /-- Nothing is left and nothing can come. -/
  | ended
deriving DecidableEq, Repr

/-- Outboxes by their numbers, given in order. -/
structure Outboxes where
  made : Nat := 0
  boxes : Entries Nat Outbox := []
deriving DecidableEq, Repr

namespace Outboxes

def make (o : Outboxes) : Nat × Outboxes :=
  (o.made + 1, ⟨o.made + 1, o.boxes.put (o.made + 1) {}⟩)

/-- None where nobody would take the frame. -/
def send? (box : Nat) (frame : Frame) (o : Outboxes) : Option Outboxes :=
  match o.boxes.get? box with
  | some b => if b.read then some { o with boxes := o.boxes.put box { b with frames := b.frames ++ [frame] } }
    else none
  | none => none

def receive (box : Nat) (o : Outboxes) : Found × Outboxes :=
  match o.boxes.get? box with
  | some b => match b.frames with
    | frame :: rest => (.frame frame, { o with boxes := o.boxes.put box { b with frames := rest } })
    | [] => (if b.fed then .empty else .ended, o)
  | none => (.ended, o)

/-- Everything that is in the box now. -/
def drain (box : Nat) (o : Outboxes) : List Frame × Outboxes :=
  match o.boxes.get? box with
  | some b => (b.frames, { o with boxes := o.boxes.put box { b with frames := [] } })
  | none => ([], o)

/-- The bridge lets go: nothing more can come. -/
def endFeed (box : Nat) (o : Outboxes) : Outboxes :=
  match o.boxes.get? box with
  | some b => { o with boxes := o.boxes.put box { b with fed := false } }
  | none => o

/-- The writer lets go: what is in the box is lost. -/
def endRead (box : Nat) (o : Outboxes) : Outboxes :=
  match o.boxes.get? box with
  | some b => { o with boxes := o.boxes.put box { b with frames := [], read := false } }
  | none => o

end Outboxes

end ToolBridge.Stream

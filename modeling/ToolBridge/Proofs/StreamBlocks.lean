import ToolBridge.Proofs.WrittenFrames

/-! Event streams cut and read back. Readers cut a stream after each blank line. No line of a frame is blank, whatever its
data, but for the one that ends it: each block is one thing that was written, and a frame is read back from its own. -/

namespace ToolBridge.EventStream
open Text

/-- A stream cut after each blank line. What follows the last of them is a block too, if it is not empty. -/
def blocks (s : String) : List String :=
  (go [] true s.toList).map String.ofList
where
  /-- `block` is what has come of the current block, last first; `fresh` tells whether a line begins here. -/
  go (block : List Char) (fresh : Bool) : List Char → List (List Char)
    | [] => if block.isEmpty then [] else [block.reverse]
    | c :: rest =>
      if c == '\n' then
        if fresh then (c :: block).reverse :: go [] true rest else go (c :: block) true rest
      else go (c :: block) false rest

/-- Nothing is cut within a line. -/
theorem blocks_go_within {line : List Char} (single : '\n' ∉ line) (block : List Char) (fresh : Bool) (rest : List Char) :
    blocks.go block fresh (line ++ rest) = blocks.go (line.reverse ++ block) (fresh && line.isEmpty) rest := by
  induction line generalizing block fresh with
  | nil => simp
  | cons c line ih =>
    have other : ¬ (c == '\n') = true := fun feed => single (beq_iff_eq.mp feed ▸ List.mem_cons_self)
    rw [List.cons_append, blocks.go, if_neg other, ih (List.not_mem_of_not_mem_cons single)]
    simp

theorem blocks_go_line {line : List Char} (single : '\n' ∉ line) (spoken : line ≠ []) (block rest : List Char) :
    blocks.go block true (line ++ '\n' :: rest) = blocks.go ((line ++ ['\n']).reverse ++ block) true rest := by
  rw [blocks_go_within single, blocks.go]
  simp [spoken]

def fed (lines : List String) : String := String.join (lines.map (· ++ "\n"))

theorem toList_fed_cons (line : String) (lines : List String) :
    (fed (line :: lines)).toList = line.toList ++ '\n' :: (fed lines).toList := by
  simp [fed]

/-- A line that something is written on. -/
structure Spoken (line : String) : Prop where
  single : '\n' ∉ line.toList
  spoken : line ≠ ""

theorem blocks_go_fed {lines : List String} (each : ∀ line ∈ lines, Spoken line) (block rest : List Char) :
    blocks.go block true ((fed lines).toList ++ rest) = blocks.go ((fed lines).toList.reverse ++ block) true rest := by
  induction lines generalizing block with
  | nil => rfl
  | cons line lines ih =>
    obtain ⟨first, later⟩ := List.forall_mem_cons.mp each
    rw [toList_fed_cons, List.append_assoc, List.cons_append,
      blocks_go_line first.single (mt String.toList_eq_nil_iff.mp first.spoken),
      ih later]
    simp

/-- Lines up to a blank one are a block. -/
theorem blocks_go_closed {lines : List String} (each : ∀ line ∈ lines, Spoken line) (rest : List Char) :
    blocks.go [] true ((fed (lines ++ [""])).toList ++ rest) = (fed (lines ++ [""])).toList :: blocks.go [] true rest := by
  have closed : (fed (lines ++ [""])).toList = (fed lines).toList ++ ['\n'] := by simp [fed]
  rw [closed, List.append_assoc, blocks_go_fed each, List.singleton_append, blocks.go]
  simp

/-! ## What is written to a stream -/

inductive Item where
  | keepAlive
  | frame (f : Frame)

namespace Item

def text : Item → String
  | keepAlive => keepAliveComment
  | frame f => f.encode

def frame? : Item → Option Frame
  | keepAlive => none
  | frame f => some f

def written : Item → List String
  | keepAlive => [": keepalive"]
  | frame f => f.written

def Clean (item : Item) : Prop := ∀ f, item.frame? = some f → f.Clean

variable {item : Item}

theorem text_eq (clean : item.Clean) : item.text = fed (item.written ++ [""]) := by
  cases item with
  | keepAlive => decide
  | frame f => exact Frame.encode_eq (clean f rfl)

theorem spoken_written (clean : item.Clean) : ∀ line ∈ item.written, Spoken line := by
  cases item with
  | keepAlive => exact List.forall_mem_singleton.mpr ⟨by decide, by decide⟩
  | frame f =>
    intro line member
    refine ⟨((clean f rfl).line line (List.mem_append_left _ member)).single, ?_⟩
    -- every line of a frame begins with the name of its field
    simp only [written, Frame.written, List.mem_append, Option.mem_toList, Option.map_eq_some_iff, List.mem_map] at member
    rcases member with (⟨event, _, rfl⟩ | ⟨piece, _, rfl⟩) | ⟨id, _, rfl⟩ <;> simp

theorem decode?_text (clean : item.Clean) : Frame.decode? item.text = item.frame? := by
  cases item with
  | keepAlive => decide
  | frame f => exact Frame.decode?_encode (clean f rfl)

end Item

theorem blocks_written {items : List Item} (clean : ∀ item ∈ items, item.Clean) :
    blocks (String.join (items.map Item.text)) = items.map Item.text := by
  have cut : blocks.go [] true (String.join (items.map Item.text)).toList = items.map (·.text.toList) := by
    induction items with
    | nil => rfl
    | cons item items ih =>
      obtain ⟨first, later⟩ := List.forall_mem_cons.mp clean
      rw [List.map_cons, String.join_cons, String.toList_append, Item.text_eq first,
        blocks_go_closed (Item.spoken_written first), ih later, ← Item.text_eq first, List.map_cons]
  rw [blocks, cut, List.map_map]
  simp

/-- What was written to a stream comes out of it, in the same order: a block for each item, a frame for each frame, and
nothing for a comment. -/
theorem stream_read_back {items : List Item} (clean : ∀ item ∈ items, item.Clean) :
    blocks (String.join (items.map Item.text)) = items.map Item.text ∧
      ∀ item ∈ items, Frame.decode? item.text = item.frame? :=
  ⟨blocks_written clean, fun item member => Item.decode?_text (clean item member)⟩

/-- Data with a blank line in it, and a line that looks like a comment. -/
def oddFrame : Frame := ⟨some "a: b", "x\n\n: y", some (-1)⟩

theorem clean_oddFrame : oddFrame.Clean where
  event := by
    rintro _ ⟨⟩
    exact .of_printable (by decide)
  data := by
    have pieces : split '\n' oddFrame.data = ["x", "", ": y"] := by decide
    rw [pieces]
    exact List.forall_mem_cons.mpr ⟨.of_printable (by decide),
      List.forall_mem_cons.mpr ⟨.of_printable (by decide), List.forall_mem_singleton.mpr (.of_printable (by decide))⟩⟩
  id := by
    rintro _ ⟨⟩
    decide

theorem stream_read_back_odd :
    (∀ item ∈ [.keepAlive, .frame oddFrame], Item.Clean item) ∧
    blocks ": keepalive\n\nevent: a: b\ndata: x\ndata: \ndata: : y\nid: -1\n\n" =
      [": keepalive\n\n", "event: a: b\ndata: x\ndata: \ndata: : y\nid: -1\n\n"] ∧
    Frame.decode? ": keepalive\n\n" = none ∧
    Frame.decode? "event: a: b\ndata: x\ndata: \ndata: : y\nid: -1\n\n" = some ⟨some "a: b", "x\n\n: y", some (-1)⟩ := by
  have clean : ∀ item ∈ [.keepAlive, .frame oddFrame], Item.Clean item := by
    refine List.forall_mem_cons.mpr ⟨nofun, List.forall_mem_singleton.mpr ?_⟩
    rintro _ ⟨⟩
    exact clean_oddFrame
  have texts : [Item.keepAlive, .frame oddFrame].map Item.text =
      [": keepalive\n\n", "event: a: b\ndata: x\ndata: \ndata: : y\nid: -1\n\n"] := by decide
  obtain ⟨cut, read⟩ := stream_read_back clean
  rw [texts] at cut
  have comment := read .keepAlive (by simp)
  have frame := read (.frame oddFrame) (by simp)
  rw [(List.cons.inj texts).1] at comment
  rw [List.head_eq_of_cons_eq (List.cons.inj texts).2] at frame
  exact ⟨clean, cut, comment, frame⟩

end ToolBridge.EventStream

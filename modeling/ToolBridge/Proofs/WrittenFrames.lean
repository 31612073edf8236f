import ToolBridge.EventStream.Frame
import ToolBridge.Proofs.TextPieces

/-! Frames of an event stream written and read back, line by line. -/

namespace ToolBridge

namespace Text

theorem pieces_go_eq (sep : Char) (piece s : List Char) :
    pieces.go sep piece s = List.splitOnPPrepend (· == sep) s piece := by
  induction s generalizing piece with
  | nil => rw [pieces.go, List.splitOnPPrepend_nil]
  | cons c rest ih => rw [pieces.go, List.splitOnPPrepend_cons_eq_if, ih, ih, List.splitOnPPrepend_nil_right]

theorem pieces_eq (sep : Char) (s : List Char) : pieces sep s = s.splitOn sep := pieces_go_eq sep [] s

theorem split_eq_singleton {sep : Char} {s : String} (free : sep ∉ s.toList) : split sep s = [s] := by
  rw [split, pieces_eq, List.splitOn_eq_singleton free, List.map_singleton, String.ofList_toList]

/-- Pieces that are joined are parted again. -/
theorem split_join {sep : Char} {pieces : List String} (apart : ∀ piece ∈ pieces, sep ∉ piece.toList)
    (some_ : pieces ≠ []) : split sep ((String.singleton sep).intercalate pieces) = pieces := by
  have inside : ∀ piece ∈ pieces.map String.toList, sep ∉ piece := List.forall_mem_map.mpr apart
  rw [split, pieces_eq, String.toList_intercalate, String.toList_singleton,
    List.splitOn_intercalate sep inside (by simpa using some_), List.map_map]
  simp

/-- Text that is read as one line: no line feed in it, and no carriage return at its end. -/
structure Line (s : String) : Prop where
  single : '\n' ∉ s.toList
  kept : s.toList.getLast? ≠ some '\r'

theorem Line.of_printable {s : String} (printable : Printable s.toList) : Line s where
  single := fun member => absurd (printable _ member) (by decide)
  kept := fun last => absurd (printable _ (List.mem_of_getLast? last)) (by decide)

theorem Line.append {label s : String} (first : Line label) (last : Line s) : Line (label ++ s) where
  single := by
    rw [String.toList_append]
    exact fun member => (List.mem_append.mp member).elim first.single last.single
  kept := by
    rw [String.toList_append, List.getLast?_append]
    intro ends
    cases rest : s.toList.getLast? with
    | none => exact first.kept (by rwa [rest, Option.none_or] at ends)
    | some c =>
      rw [rest, Option.some_or] at ends
      exact last.kept (rest.trans ends)

theorem dropEndCr_eq_self {line : List Char} (kept : line.getLast? ≠ some '\r') : dropEndCr line = line := by
  unfold dropEndCr
  split
  next rest ends => exact absurd (by rw [List.getLast?_eq_head?_reverse, ends]; rfl) kept
  next => rfl

theorem toList_fed (ls : List String) :
    (String.join (ls.map (· ++ "\n"))).toList = ['\n'].intercalate (ls.map String.toList ++ [[]]) := by
  have feed : "\n".toList = ['\n'] := by decide
  induction ls with
  | nil => rfl
  | cons line ls ih =>
    obtain ⟨next, more, shape⟩ := List.exists_cons_of_ne_nil (List.concat_ne_nil [] (ls.map String.toList))
    rw [List.map_cons, String.join_cons, String.toList_append, String.toList_append, ih, feed, List.map_cons,
      List.cons_append, shape, List.intercalate_cons_cons]

theorem lines_go_fed {ls : List (List Char)} (kept : ∀ line ∈ ls, line.getLast? ≠ some '\r') :
    lines.go (ls ++ [[]]) = ls := by
  induction ls with
  | nil => rfl
  | cons line ls ih =>
    obtain ⟨next, more, shape⟩ := List.exists_cons_of_ne_nil (List.concat_ne_nil [] ls)
    have later := ih fun other member => kept other (List.mem_cons_of_mem _ member)
    rw [shape] at later
    rw [List.cons_append, shape, lines.go, later, dropEndCr_eq_self (kept line List.mem_cons_self)]
    intro last
    cases last

/-- Lines that each end in a line feed are told apart again. -/
theorem lines_fed {ls : List String} (each : ∀ line ∈ ls, Line line) :
    lines (String.join (ls.map (· ++ "\n"))) = ls := by
  have apart : ∀ piece ∈ ls.map String.toList ++ [[]], '\n' ∉ piece := by
    intro piece member
    rcases List.mem_append.mp member with fed | empty
    · obtain ⟨line, inside, rfl⟩ := List.mem_map.mp fed
      exact (each line inside).single
    · rw [List.mem_singleton.mp empty]
      exact List.not_mem_nil
  have kept : ∀ line ∈ ls.map String.toList, line.getLast? ≠ some '\r' := by
    intro line member
    obtain ⟨whole, inside, rfl⟩ := List.mem_map.mp member
    exact (each whole inside).kept
  rw [lines, toList_fed, pieces_eq, List.splitOn_intercalate '\n' apart (by simp), lines_go_fed kept, List.map_map]
  simp

end Text

namespace EventStream.Frame
open Text

def written (f : Frame) : List String :=
  (f.event.map ("event: " ++ ·)).toList ++ (split '\n' f.data).map ("data: " ++ ·) ++
    (f.id.map fun id => "id: " ++ toString id).toList

/-- A frame that is read back as it was written: its event and every line of its data fit on lines, and its id into
32 bits. -/
structure Clean (f : Frame) : Prop where
  event : ∀ event, f.event = some event → Line event
  data : ∀ line ∈ split '\n' f.data, Line line
  id : ∀ id, f.id = some id → -2147483648 ≤ id ∧ id ≤ 2147483647

theorem encode_eq {f : Frame} (clean : f.Clean) : f.encode = String.join ((f.written ++ [""]).map (· ++ "\n")) := by
  have pieced : (pieces '\n' f.data.toList).map (fun line => "data: " ++ String.ofList (dropEndCr line) ++ "\n") =
      ((split '\n' f.data).map ("data: " ++ ·)).map (· ++ "\n") := by
    rw [split, List.map_map, List.map_map]
    refine List.map_congr_left fun line member => ?_
    have kept := (clean.data (.ofList line) (List.mem_map_of_mem member)).kept
    rw [String.toList_ofList] at kept
    simp [dropEndCr_eq_self kept]
  obtain ⟨event, data, id⟩ := f
  simp only [written, List.map_append, String.join_append]
  rw [encode, pieced]
  cases event <;> cases id <;> simp [String.append_assoc] <;> rfl

def isData (line : String) : Bool := (splitField line).1 == "data"

theorem splitField_written {name : String} (plain : ':' ∉ name.toList) (value : String) :
    splitField (name ++ ": " ++ value) = (name, value) := by
  have apart : name ++ ": " ++ value = name ++ .singleton ':' ++ (" " ++ value) := by
    have mark : ": " = .singleton ':' ++ " " := by decide
    rw [mark]
    simp only [String.append_assoc]
  have blank : (" " ++ value).toList = ' ' :: value.toList := by simp
  rw [splitField, apart, cutAt_first plain]
  simp only [Option.getD_some, blank, String.ofList_toList]

theorem addLine_written {name : String} (plain : ':' ∉ name.toList) (nonempty : name ≠ "") (value : String) (d : Draft) :
    d.addLine (name ++ ": " ++ value) =
      if name = "event" then { d with event := some value }
      else if name = "data" then { d with data := value :: d.data }
      else if name = "id" then { d with id := readInt 32 value }
      else d := by
  obtain ⟨c, rest, shape⟩ := List.exists_cons_of_ne_nil (mt String.toList_eq_nil_iff.mp nonempty)
  have head : (name ++ ": " ++ value).toList.head? = some c := by simp [String.toList_append, shape]
  have other : c ≠ ':' := fun same => plain (by simp [shape, same])
  have field : ¬ (decide (name ++ ": " ++ value = "") || (name ++ ": " ++ value).toList.head? == some ':') = true := by
    rw [head, Bool.or_eq_true, decide_eq_true_eq, beq_iff_eq, Option.some.injEq]
    rintro (empty | colon)
    · rw [empty] at head
      cases head
    · exact other colon
  rw [Draft.addLine, if_neg field, splitField_written plain]

theorem addLine_event (event : String) (d : Draft) : d.addLine ("event: " ++ event) = { d with event := some event } := by
  have label : "event: " = "event" ++ ": " := by decide
  rw [label, addLine_written (by decide) (by decide), if_pos rfl]

theorem addLine_data (line : String) (d : Draft) : d.addLine ("data: " ++ line) = { d with data := line :: d.data } := by
  have label : "data: " = "data" ++ ": " := by decide
  rw [label, addLine_written (by decide) (by decide), if_neg (by decide), if_pos rfl]

theorem addLine_id (value : String) (d : Draft) : d.addLine ("id: " ++ value) = { d with id := readInt 32 value } := by
  have label : "id: " = "id" ++ ": " := by decide
  rw [label, addLine_written (by decide) (by decide), if_neg (by decide), if_neg (by decide), if_pos rfl]

theorem foldl_data (ls : List String) (d : Draft) :
    (ls.map ("data: " ++ ·)).foldl Draft.addLine d = { d with data := ls.reverse ++ d.data } := by
  induction ls generalizing d with
  | nil => rfl
  | cons line ls ih =>
    rw [List.map_cons, List.foldl_cons, addLine_data, ih]
    simp

theorem intercalate_split (s : String) : "\n".intercalate (split '\n' s) = s := by
  have feed : "\n".toList = ['\n'] := by decide
  refine String.toList_inj.mp ?_
  rw [String.toList_intercalate, feed, split, pieces_eq, List.map_map]
  simp [List.intercalate_splitOn]

theorem split_ne_nil (sep : Char) (s : String) : split sep s ≠ [] := by
  rw [split, pieces_eq]
  simp [List.splitOn_ne_nil]

theorem Clean.line {f : Frame} (clean : f.Clean) : ∀ line ∈ f.written ++ [""], Line line := by
  have label {s : String} (printable : Printable s.toList) : Line s := .of_printable printable
  intro line member
  simp only [written, List.mem_append, Option.mem_toList, Option.map_eq_some_iff, List.mem_map,
    List.mem_singleton] at member
  rcases member with ((⟨event, set, rfl⟩ | ⟨piece, inside, rfl⟩) | ⟨id, _, rfl⟩) | rfl
  · exact (label (by decide)).append (clean.event event set)
  · exact (label (by decide)).append (clean.data piece inside)
  · exact (label (by decide)).append (label (printable_integer id))
  · exact label (by decide)

theorem lines_encode {f : Frame} (clean : f.Clean) : lines f.encode = f.written ++ [""] := by
  rw [encode_eq clean, lines_fed clean.line]

theorem isData_written {name : String} (plain : ':' ∉ name.toList) (value : String) :
    isData (name ++ ": " ++ value) = (name == "data") := by
  rw [isData, splitField_written plain]

/-- The lines of data in what is written of a frame are the lines of its data, no more. -/
theorem dataLines_encode {f : Frame} (clean : f.Clean) :
    (lines f.encode).filter isData = (split '\n' f.data).map ("data: " ++ ·) := by
  have event (value : String) : isData ("event: " ++ value) = false :=
    isData_written (by decide : ':' ∉ "event".toList) value
  have data (value : String) : isData ("data: " ++ value) = true :=
    isData_written (by decide : ':' ∉ "data".toList) value
  have id (value : String) : isData ("id: " ++ value) = false :=
    isData_written (by decide : ':' ∉ "id".toList) value
  have last : isData "" = false := by decide
  have all : ∀ line ∈ (split '\n' f.data).map ("data: " ++ ·), isData line = true := by
    intro line member
    obtain ⟨value, _, rfl⟩ := List.mem_map.mp member
    exact data value
  rw [lines_encode clean, written, List.filter_append, List.filter_append, List.filter_append,
    List.filter_eq_self.mpr all]
  cases f.event <;> cases f.id <;> simp [event, id, last]

theorem foldl_written {f : Frame} (clean : f.Clean) :
    f.written.foldl Draft.addLine {} = ⟨f.event, (split '\n' f.data).reverse, f.id⟩ := by
  obtain ⟨event, data, id⟩ := f
  have numbered (ls : List String) : (id.map fun n => "id: " ++ toString n).toList.foldl Draft.addLine ⟨event, ls, none⟩ =
      ⟨event, ls, id⟩ := by
    cases id with
    | none => rfl
    | some n => simp only [Option.map_some, Option.toList_some, List.foldl_cons, List.foldl_nil, addLine_id,
        readInt_toString (clean.id n rfl)]
  have named : (event.map ("event: " ++ ·)).toList.foldl Draft.addLine {} = ⟨event, [], none⟩ := by
    cases event with
    | none => rfl
    | some event => simp only [Option.map_some, Option.toList_some, List.foldl_cons, List.foldl_nil, addLine_event]
  rw [written, List.foldl_append, List.foldl_append, named, foldl_data, List.append_nil, numbered]

theorem finish?_split (event : Option String) (data : String) (id : Option Int) :
    Draft.finish? ⟨event, (split '\n' data).reverse, id⟩ = some ⟨event, data, id⟩ := by
  have some_ : (split '\n' data).reverse.isEmpty = false := by simpa using split_ne_nil '\n' data
  rw [Draft.finish?, some_, Bool.and_false, Bool.false_and, if_neg Bool.false_ne_true, List.reverse_reverse,
    intercalate_split]

theorem decode?_encode {f : Frame} (clean : f.Clean) : decode? f.encode = some f := by
  have closing (d : Draft) : d.addLine "" = d := rfl
  rw [decode?, lines_encode clean, List.foldl_append, foldl_written clean, List.foldl_cons, List.foldl_nil, closing,
    finish?_split]

end EventStream.Frame

end ToolBridge

import ToolBridge.Proofs.WrittenFrames
import ToolBridge.Proofs.WrittenJson
import ToolBridge.Rpc.Reply

/-! Replies that go out on event streams. What is left of a reply at the other end, past the frame, the text and the
reader that has to tell success from failure by members alone, is the reply. -/

namespace ToolBridge

/-- A value that text carries unchanged. -/
structure Json.Carried (j : Json) : Prop where
  whole : j.Whole
  ordered : j.Ordered

namespace Rpc.Reply
open EventStream

/-- A reply as it is made, of values that text carries unchanged. Details that are `null` would be taken for none. -/
inductive Carried : Reply → Prop where
  | success {id result : Json} (named : id.Carried) (given : result.Carried) : Carried (.success id result)
  | failure {id : Json} {code : Int} (message : String) {data : Option Json} (named : id.Carried)
      (word : -2147483648 ≤ code ∧ code ≤ 2147483647)
      (detailed : ∀ value, data = some value → value ≠ .null ∧ value.Carried) :
      Carried (.failure id code message data)

/-- Failures with a text for details are made of values that text carries unchanged, if their id is one. -/
theorem carried_detail {id : Json} (named : id.Carried) {code : Int} (word : -2147483648 ≤ code ∧ code ≤ 2147483647)
    (message name text : String) : Carried (.failure id code message (detail name text)) := by
  refine .failure message named word fun value set => ?_
  cases set
  have whole : Json.Whole (.obj [(name, .str text)]) := .obj (List.forall_mem_singleton.mpr (.str text))
  have ordered : Json.Ordered (.obj [(name, .str text)]) :=
    .obj (List.pairwise_singleton _ _) (List.forall_mem_singleton.mpr (.str text))
  exact ⟨by simp, whole, ordered⟩

theorem whole_errorJson {e : ErrorObject} (word : -2147483648 ≤ e.code ∧ e.code ≤ 2147483647)
    (detailed : ∀ value, e.data = some value → value.Whole) : (errorJson e).Whole := by
  have code : Json.Whole (.ofInt e.code) := .int ⟨by omega, by omega⟩
  have rest : ∀ member ∈ (e.data.map fun data => ("data", data)).toList, member.2.Whole := by
    intro member inside
    obtain ⟨value, set, rfl⟩ := Option.map_eq_some_iff.mp (Option.mem_toList.mp inside)
    exact detailed value set
  exact .obj (List.forall_mem_append.mpr
    ⟨List.forall_mem_cons.mpr ⟨code, List.forall_mem_singleton.mpr (.str e.message)⟩, rest⟩)

variable {reply : Reply}

theorem Carried.whole (carried : reply.Carried) : reply.toJson.Whole := by
  have members {id value : Json} (name : String) (named : id.Whole) (held : value.Whole) :
      Json.Whole (.obj [("jsonrpc", .str "2.0"), ("id", id), (name, value)]) :=
    .obj (List.forall_mem_cons.mpr ⟨.str _, List.forall_mem_cons.mpr ⟨named, List.forall_mem_singleton.mpr held⟩⟩)
  cases carried with
  | success named given => exact members "result" named.whole given.whole
  | failure message named word detailed =>
    exact members "error" named.whole (whole_errorJson word fun value set => (detailed value set).2.whole)

theorem readSuccess?_success {id result : Json} (named : id.Carried) (given : result.Carried) :
    readSuccess? (success id result).toJson = some (success id result) := by
  simp [readSuccess?, success, toJson, required?, single?, Json.asString?, named.ordered.settle, given.ordered.settle]

theorem readSuccess?_failure (id : Json) (code : Int) (message : String) (data : Option Json) :
    readSuccess? (failure id code message data).toJson = none := by
  simp [readSuccess?, failure, toJson, required?, single?, Json.asString?]

theorem optional_carried {value : Json} (present : value ≠ .null) (carried : value.Carried) :
    optional value = some value := by
  unfold optional
  split
  next => exact absurd rfl present
  next => rw [carried.ordered.settle]

theorem readError?_errorJson {e : ErrorObject} (word : -2147483648 ≤ e.code ∧ e.code ≤ 2147483647)
    (detailed : ∀ value, e.data = some value → value ≠ .null ∧ value.Carried) : readError? (errorJson e) = some e := by
  obtain ⟨code, message, data⟩ := e
  have fits : int32? (.ofInt code) = some code := if_pos word
  cases data with
  | none => simp [readError?, errorJson, required?, single?, Json.asString?, fits]
  | some value =>
    obtain ⟨present, carried⟩ := detailed value rfl
    simp [readError?, errorJson, required?, single?, Json.asString?, fits, optional_carried present carried]

theorem readFailure?_failure {id : Json} {code : Int} (message : String) {data : Option Json} (named : id.Carried)
    (word : -2147483648 ≤ code ∧ code ≤ 2147483647)
    (detailed : ∀ value, data = some value → value ≠ .null ∧ value.Carried) :
    readFailure? (failure id code message data).toJson = some (failure id code message data) := by
  have read := readError?_errorJson (e := ⟨code, message, data⟩) word detailed
  simp [readFailure?, failure, toJson, required?, single?, Json.asString?, named.ordered.settle, read]

theorem Carried.ofJson? (carried : reply.Carried) : ofJson? reply.toJson = some reply := by
  cases carried with
  | success named given =>
    rw [Reply.ofJson?, readSuccess?_success named given]
    rfl
  | failure message named word detailed =>
    rw [Reply.ofJson?, readSuccess?_failure, readFailure?_failure message named word detailed]
    rfl

theorem Carried.parse_text (carried : reply.Carried) (shallow : reply.toJson.depth < 128) :
    parse reply.text = .ok reply := by
  have read := carried.whole.readValue (Nat.le_of_lt_succ shallow : _ ≤ Json.maxDepth) Json.ends_nil
  rw [List.append_nil] at read
  rw [parse, text, Json.utf8_text, Reply.read, read]
  simp only [carried.ofJson?]
  rfl

theorem Carried.printable (carried : reply.Carried) : Text.Printable reply.text.toList := by
  rw [text, Json.text, String.toList_ofList]
  exact carried.whole.printable

theorem Carried.split_text (carried : reply.Carried) : Text.split '\n' reply.text = [reply.text] :=
  Text.split_eq_singleton (Text.Line.of_printable carried.printable).single

theorem Carried.clean (carried : reply.Carried) {id : Int} (word : -2147483648 ≤ id ∧ id ≤ 2147483647) :
    (Frame.message id reply.text).Clean where
  event := by
    rintro _ ⟨⟩
    exact .of_printable (by decide)
  data := by
    intro line member
    obtain rfl := List.mem_singleton.mp (carried.split_text ▸ member : line ∈ [reply.text])
    exact .of_printable carried.printable
  id := by
    rintro _ ⟨⟩
    exact word

end Rpc.Reply

open Rpc EventStream

/-- A reply that is not nested too deep to be read comes out of an event stream as it went in: its frame has one line of
data, the frame is read back as it was written, and what is read from the data is the reply. -/
theorem EventStream.Frame.message_intact {reply : Reply} (carried : reply.Carried) (shallow : reply.toJson.depth < 128)
    {id : Int} (word : -2147483648 ≤ id ∧ id ≤ 2147483647) :
    (Text.lines (Frame.message id reply.text).encode).filter Frame.isData = ["data: " ++ reply.text] ∧
      Frame.decode? (Frame.message id reply.text).encode = some (Frame.message id reply.text) ∧
      Reply.parse (Frame.message id reply.text).data = .ok reply := by
  have clean := carried.clean word
  have data := Frame.dataLines_encode clean
  rw [Frame.message, carried.split_text] at data
  exact ⟨data, Frame.decode?_encode clean, carried.parse_text shallow⟩

theorem EventStream.Frame.message_intact_tool :
    (Reply.toolNotFound (.ofInt 7) "a\nb").Carried ∧
    (Reply.toolNotFound (.ofInt 7) "a\nb").toJson.depth < 128 ∧
    (Text.lines (Frame.message 1 (Reply.toolNotFound (.ofInt 7) "a\nb").text).encode).filter Frame.isData =
      ["data: " ++ (Reply.toolNotFound (.ofInt 7) "a\nb").text] ∧
    Frame.decode? (Frame.message 1 (Reply.toolNotFound (.ofInt 7) "a\nb").text).encode =
      some (Frame.message 1 (Reply.toolNotFound (.ofInt 7) "a\nb").text) ∧
    Reply.parse (Frame.message 1 (Reply.toolNotFound (.ofInt 7) "a\nb").text).data =
      .ok (Reply.toolNotFound (.ofInt 7) "a\nb") := by
  have seven : Json.Carried (.ofInt 7) := ⟨.int ⟨by decide, by decide⟩, .num _⟩
  have carried := Reply.carried_detail seven (by decide : (-2147483648 : Int) ≤ -32601 ∧ (-32601 : Int) ≤ 2147483647)
    "Tool not found" "tool" "a\nb"
  have shallow : (Reply.toolNotFound (.ofInt 7) "a\nb").toJson.depth < 128 := by decide
  exact ⟨carried, shallow, EventStream.Frame.message_intact carried shallow (by decide)⟩

end ToolBridge

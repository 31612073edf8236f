import ToolBridge.Proofs.FieldMerging
import ToolBridge.Proofs.RequestTargets

/-! Queries written and read back. A pair is an escaped name and an escaped value, where a blank may also stand as a plus
sign. Reading any number of them gives each name its last value, and passes over what is empty or no text. -/

namespace ToolBridge

namespace Text.Percent

/-- The ways to write octets: each is escaped unless it is unreserved, but a blank may be a plus sign as well. -/
inductive Escapes : Bytes → List Char → Prop where
  | nil : Escapes [] []
  | octet {bytes : Bytes} {text : List Char} (b : UInt8) (later : Escapes bytes text) :
      Escapes (b :: bytes) ((encodeByte b).map (fun mark => Char.ofNat mark.toNat) ++ text)
  | plus {bytes : Bytes} {text : List Char} (later : Escapes bytes text) : Escapes (0x20 :: bytes) ('+' :: text)

/-- The second text is a way to write the first. -/
def Writes (s text : String) : Prop := Escapes (utf8 s) text.toList

theorem escapes_encodeBytes (bytes : Bytes) :
    Escapes bytes ((encodeBytes bytes).map fun mark => Char.ofNat mark.toNat) := by
  induction bytes with
  | nil => exact .nil
  | cons b bytes ih =>
    rw [encodeBytes, List.flatMap_cons, List.map_append]
    exact .octet b ih

/-- With every blank escaped. -/
theorem writes_encode (s : String) : Writes s (encode s) := by
  rw [Writes, encode, String.toList_ofList]
  exact escapes_encodeBytes _

theorem mem_encodeByte {b mark : UInt8} (member : mark ∈ encodeByte b) : isUnreserved mark = true ∨ mark = 0x25 :=
  @mem_encodeBytes mark [b] (by simpa [encodeBytes] using member)

theorem mark_encodeByte {b : UInt8} : ∀ c ∈ (encodeByte b).map fun mark => Char.ofNat mark.toNat, Mark c := by
  intro c member
  obtain ⟨mark, inside, rfl⟩ := List.mem_map.mp member
  exact ⟨mark, mem_encodeByte inside, rfl⟩

theorem Escapes.marks {bytes : Bytes} {text : List Char} (escaped : Escapes bytes text) :
    ∀ c ∈ text, Mark c ∨ c = '+' := by
  induction escaped with
  | nil => exact List.forall_mem_nil _
  | octet b later ih => exact List.forall_mem_append.mpr ⟨fun c member => .inl (mark_encodeByte c member), ih⟩
  | plus later ih => exact List.forall_mem_cons.mpr ⟨.inr rfl, ih⟩

/-- No sign at which a query is cut. -/
theorem Writes.free {s text : String} (written : Writes s text) {sep : Char} (cuts : sep ∈ ['?', '&', '=']) :
    sep ∉ text.toList := by
  intro member
  rcases Escapes.marks written sep member with mark | rfl
  · exact mark.apart (List.mem_append_left ['+'] cuts)
  · exact absurd cuts (by decide)

/-- Plus signs are read before escapes, so an escaped plus sign stays one. -/
theorem Escapes.decoded {bytes : Bytes} {text : List Char} (escaped : Escapes bytes text) :
    decodeBytes ((text.map fun c => if c == '+' then ' ' else c).flatMap String.utf8EncodeChar) = bytes := by
  induction escaped with
  | nil => rfl
  | octet b later ih =>
    have kept : ∀ c ∈ (encodeByte b).map fun mark => Char.ofNat mark.toNat, (if c == '+' then ' ' else c) = c :=
      fun c member => if_neg fun plus => (mark_encodeByte c member).apart (by simp [beq_iff_eq.mp plus])
    rw [List.map_append, List.flatMap_append, List.map_congr_left kept, List.map_id',
      octets_written fun _ => mem_encodeByte,
      decodeBytes_encodeByte, ih]
  | plus later ih =>
    have blank : String.utf8EncodeChar ' ' = [0x20] := by decide
    rw [List.map_cons, if_pos (by decide), List.flatMap_cons, blank, List.singleton_append,
      decodeBytes_plain (by decide), ih]

end Text.Percent

namespace Http
open Text.Percent (Writes)

theorem decode?_written {s text : String} (written : Writes s text) :
    Text.Percent.decode? (plusToBlank text) = some s := by
  rw [Text.Percent.decode?, Text.utf8_eq, plusToBlank, String.toList_ofList, Text.Percent.Escapes.decoded written,
    Text.ofUtf8?_utf8]

/-- A pair of a query with one of its written forms. -/
structure WrittenPair where
  name : String
  value : String
  nameText : String
  valueText : String
  name_written : Writes name nameText
  value_written : Writes value valueText

namespace WrittenPair
variable (p : WrittenPair)

def text : String := p.nameText ++ "=" ++ p.valueText

def pair : String × String := (p.name, p.value)

theorem text_ne : p.text ≠ "" := by
  simp [text]

theorem whole : '&' ∉ p.text.toList := by
  simp [text, String.toList_append, p.name_written.free, p.value_written.free]

end WrittenPair

theorem readParameter_written (p : WrittenPair) : readParameter p.text = some p.pair := by
  have cut : Text.cutAt '=' p.text = some (p.nameText, p.valueText) := Text.cutAt_first (p.name_written.free (by decide))
  simp only [readParameter, cut, Option.getD_some, decode?_written p.name_written, decode?_written p.value_written]
  rfl

def Garbled (s : String) : Prop := Text.Percent.decode? (plusToBlank s) = none

/-- A piece of a query that says nothing. -/
inductive Void : String → Prop where
  | empty : Void ""
  | name {name : String} (undivided : '=' ∉ name.toList) (whole : '&' ∉ name.toList) (garbled : Garbled name) : Void name
  | pair {name value : String} (undivided : '=' ∉ name.toList) (whole : '&' ∉ (name ++ "=" ++ value).toList)
      (garbled : Garbled name ∨ Garbled value) : Void (name ++ "=" ++ value)

theorem Void.whole {piece : String} (void : Void piece) : '&' ∉ piece.toList := by
  cases void with
  | empty => decide
  | name undivided whole garbled => exact whole
  | pair undivided whole garbled => exact whole

/-- A pair is passed over as soon as one half of it is garbled. -/
theorem readParameter_garbled {piece name value : String} (parts : (Text.cutAt '=' piece).getD (piece, "") = (name, value))
    (garbled : Garbled name ∨ Garbled value) : readParameter piece = none := by
  simp only [readParameter, parts]
  rcases garbled with first | second
  · rw [first]
    rfl
  · rw [second]
    cases Text.Percent.decode? (plusToBlank name) <;> rfl

theorem Void.unread {piece : String} (void : Void piece) : piece = "" ∨ readParameter piece = none := by
  cases void with
  | empty => exact .inl rfl
  | name undivided whole garbled =>
    have uncut : Text.cutAt '=' piece = none := Text.cutAt_eq_none.mpr undivided
    exact .inr (readParameter_garbled (by rw [uncut, Option.getD_none]) (.inl garbled))
  | @pair name value undivided whole garbled =>
    have cut : Text.cutAt '=' (name ++ "=" ++ value) = some (name, value) := Text.cutAt_first undivided
    exact .inr (readParameter_garbled (by rw [cut, Option.getD_some]) garbled)

inductive Piece where
  | pair (p : WrittenPair)
  | void (text : String) (void : Void text)

namespace Piece

def text : Piece → String
  | pair p => p.text
  | void text _ => text

def pair? : Piece → Option WrittenPair
  | pair p => some p
  | void _ _ => none

theorem whole (piece : Piece) : '&' ∉ piece.text.toList := by
  cases piece with
  | pair p => exact p.whole
  | void text void => exact void.whole

end Piece

/-- What a piece of a query does to the parameters before it. -/
def addPiece (done : Fields) (piece : String) : Fields :=
  if piece = "" then done else match readParameter piece with
    | some (name, value) => done.put name value
    | none => done

theorem addPiece_text (done : Fields) (piece : Piece) :
    addPiece done piece.text = match piece.pair? with
      | some p => done.put p.name p.value
      | none => done := by
  cases piece with
  | pair p => rw [addPiece, Piece.text, if_neg p.text_ne, readParameter_written]; rfl
  | void text void =>
    rw [addPiece, Piece.text]
    rcases void.unread with empty | unread
    · exact if_pos empty
    · rw [unread]
      exact ite_self done

/-- A query is read piece by piece. -/
theorem readQuery_join {pieces : List String} (apart : ∀ piece ∈ pieces, '&' ∉ piece.toList) :
    readQuery ("&".intercalate pieces) = pieces.foldl addPiece [] := by
  have split : Text.split '&' ("&".intercalate pieces) = if pieces = [] then [""] else pieces := by
    split
    next nothing => rw [nothing]; decide
    next some_ => exact Text.split_join apart some_
  rw [readQuery, split, List.foldl_filter]
  split
  next nothing => rw [nothing]; rfl
  next =>
    congr 1
    funext done piece
    by_cases empty : piece = ""
    · simp [addPiece, empty]
    · cases said : readParameter piece <;> simp [addPiece, empty, said]

def latest (pairs : List WrittenPair) : Fields := pairs.foldl (fun done p => done.put p.name p.value) []

theorem readQuery_pieces (pieces : List Piece) :
    readQuery ("&".intercalate (pieces.map Piece.text)) = latest (pieces.filterMap Piece.pair?) := by
  rw [readQuery_join (List.forall_mem_map.mpr fun piece _ => piece.whole), List.foldl_map, latest, List.foldl_filterMap]
  congr 1
  funext done piece
  rw [addPiece_text]
  cases piece.pair? <;> rfl

theorem get?_latest (pairs : List WrittenPair) (name : String) :
    (latest pairs).get? name = (Fields.valuesOf name (pairs.map WrittenPair.pair)).getLast? := by
  induction pairs using List.reverseRecOn with
  | nil => rfl
  | append_singleton pairs p ih =>
    rw [latest, List.foldl_append, List.foldl_cons, List.foldl_nil, Entries.get?_put, ← latest, ih, List.map_append,
      Fields.valuesOf_append, List.getLast?_append]
    by_cases same : p.name = name <;> simp [Fields.valuesOf, WrittenPair.pair, same]

theorem nodup_latest (pairs : List WrittenPair) : (Entries.keys (latest pairs)).Nodup :=
  List.foldlRecOn (motive := fun done => (Entries.keys done).Nodup) pairs _ List.nodup_nil
    fun _ distinct _ _ => Entries.nodup_put distinct

def queryTarget (path : String) (pieces : List String) : String := path ++ "?" ++ "&".intercalate pieces

theorem splitTarget_queryTarget {path : String} (whole : '?' ∉ path.toList) (pieces : List Piece) :
    splitTarget (queryTarget path (pieces.map Piece.text)) =
      (if path = "" then "/" else path, latest (pieces.filterMap Piece.pair?)) := by
  have cut : Text.cutAt '?' (queryTarget path (pieces.map Piece.text)) =
      some (path, "&".intercalate (pieces.map Piece.text)) := Text.cutAt_first whole
  simp only [splitTarget, cut, Option.getD_some, readQuery_pieces]

/-- A written query is read back: the path as it stands, and of each name the last value. What says nothing may stand
anywhere in it and changes nothing. -/
theorem query_read_back {path : String} (whole : '?' ∉ path.toList) (pieces : List Piece) :
    (splitTarget (queryTarget path (pieces.map Piece.text))).1 = (if path = "" then "/" else path) ∧
    (∀ name, (splitTarget (queryTarget path (pieces.map Piece.text))).2.get? name =
      (Fields.valuesOf name ((pieces.filterMap Piece.pair?).map WrittenPair.pair)).getLast?) ∧
    (Entries.keys (splitTarget (queryTarget path (pieces.map Piece.text))).2).Nodup ∧
    splitTarget (queryTarget path (pieces.map Piece.text)) =
      splitTarget (queryTarget path ((pieces.filterMap Piece.pair?).map WrittenPair.text)) := by
  have read := splitTarget_queryTarget whole pieces
  have bare := splitTarget_queryTarget whole ((pieces.filterMap Piece.pair?).map Piece.pair)
  have same : ((pieces.filterMap Piece.pair?).map Piece.pair).filterMap Piece.pair? = pieces.filterMap Piece.pair? := by
    rw [List.filterMap_map]
    exact List.filterMap_some
  rw [same, List.map_map, ← read] at bare
  refine ⟨?_, ?_, ?_, bare.symm⟩
  · rw [read]
  · intro name
    rw [read]
    exact get?_latest _ name
  · rw [read]
    exact nodup_latest _

/-- A blank as a plus sign, and a value of signs that cut a query. -/
def plusPair : WrittenPair where
  name := "a b"
  value := "&=+"
  nameText := "a+b"
  valueText := "%26%3D%2B"
  name_written := by
    have octets : Text.utf8 "a b" = [0x61, 0x20, 0x62] := by decide +kernel
    rw [Writes, octets]
    exact .octet 0x61 (.plus (.octet 0x62 .nil))
  value_written := by
    have octets : Text.utf8 "&=+" = [0x26, 0x3D, 0x2B] := by decide +kernel
    rw [Writes, octets]
    exact .octet 0x26 (.octet 0x3D (.octet 0x2B .nil))

def laterPair : WrittenPair where
  name := "a b"
  value := "é"
  nameText := Text.Percent.encode "a b"
  valueText := Text.Percent.encode "é"
  name_written := Text.Percent.writes_encode _
  value_written := Text.Percent.writes_encode _

theorem void_garbled : Void "%FF=1" := by
  have parts : "%FF=1" = "%FF" ++ "=" ++ "1" := by decide
  rw [parts]
  exact .pair (by decide) (by decide) (.inl (by unfold Garbled; decide +kernel))

def repeatedPieces : List Piece :=
  [.pair plusPair, .void "" .empty, .void "%FF=1" void_garbled, .pair laterPair]

theorem query_read_back_repeated :
    '?' ∉ "".toList ∧ (splitTarget "?a+b=%26%3D%2B&&%FF=1&a%20b=%C3%A9").1 = "/" ∧
      (splitTarget "?a+b=%26%3D%2B&&%FF=1&a%20b=%C3%A9").2.get? "a b" = some "é" ∧
      splitTarget "?a+b=%26%3D%2B&&%FF=1&a%20b=%C3%A9" = splitTarget "?a+b=%26%3D%2B&a%20b=%C3%A9" := by
  have plain : '?' ∉ "".toList := by decide
  have full : queryTarget "" (repeatedPieces.map Piece.text) = "?a+b=%26%3D%2B&&%FF=1&a%20b=%C3%A9" := by decide +kernel
  have short : queryTarget "" ((repeatedPieces.filterMap Piece.pair?).map WrittenPair.text) =
      "?a+b=%26%3D%2B&a%20b=%C3%A9" := by decide +kernel
  obtain ⟨path, values, _, bare⟩ := query_read_back plain repeatedPieces
  rw [full] at path values bare
  rw [short] at bare
  exact ⟨plain, path, values "a b", bare⟩

end Http

end ToolBridge

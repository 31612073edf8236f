import Mathlib.Data.List.Forall2
import ToolBridge.Proofs.FieldMerging
import ToolBridge.Proofs.TakenRequests
import ToolBridge.Proofs.ReadFields

/-! The header fields of a request that is accepted. Each name that a line tells is there once, with the values of all
its lines in their order. So it matters neither in which letters a name is asked for nor where a line stands among
those of other names, and a length that is told twice is no length. -/

namespace ToolBridge

namespace Text

theorem digits_of_readNat {radix bound n : Nat} {s : String} (read : readNat radix bound s = some n) :
    ∀ c ∈ s.toList, c = '+' ∨ (digitValue c).isSome := by
  have digits {l : List Char} {n : Nat} (read : readDigits radix l = some n) : ∀ c ∈ l, (digitValue c).isSome := by
    intro c member
    rw [readDigits_eq (List.ne_nil_of_mem member)] at read
    exact digit_of_foldlM_shift read c member
  have whole := (Option.filter_eq_some_iff.mp read).1
  intro c member
  unfold readNatChars at whole
  split at whole
  next rest signed =>
    rw [signed] at member
    exact (List.mem_cons.mp member).imp_right (digits whole c)
  next => exact .inr (digits whole c member)

end Text

namespace Http

open Fields (Lines valuesOf merged addAll)

/-- A header line tells the name before its first colon, in lower case, and the value after it, both trimmed. -/
def Tells (l : SentLine) (field : String × String) : Prop :=
  ∃ before after, l.text.toList = before.toList ++ ':' :: after.toList ∧ ':' ∉ before.toList ∧
    field = (Text.lower (Text.trim before), Text.trim after)

/-- The field that a line tells, if it tells any. -/
def tale? (l : SentLine) : Option (String × String) :=
  (Text.cutAt ':' l.text).map fun (before, after) => (Text.lower (Text.trim before), Text.trim after)

/-- What the lines of a head tell, one after the other. -/
def HeadLayout.tales (h : HeadLayout) : Lines := h.headers.filterMap tale?

/-- The header lines with neighbours of different names exchanged, any number of times. -/
inductive Reordered (headers : List SentLine) : List SentLine → Prop where
  | same : Reordered headers headers
  | exchange {before after : List SentLine} {a b : SentLine} {first second : String × String}
      (earlier : Reordered headers (before ++ a :: b :: after)) (told : Tells a first) (next : Tells b second)
      (differ : first.1 ≠ second.1) : Reordered headers (before ++ b :: a :: after)

/-- Fields that say what header lines tell, in names and values, and nothing else. -/
structure Gathered (lines : Lines) (fields : Fields) : Prop where
  names : ∀ name, name ∈ fields.keys ↔ name ∈ lines.map (·.1)
  once : fields.keys.Nodup
  value : ∀ name ∈ lines.map (·.1), fields.get? name = some (", ".intercalate (valuesOf name lines))

/-! ## What the lines of a head tell -/

theorem tells_iff {l : SentLine} {field : String × String} : Tells l field ↔ tale? l = some field := by
  rw [tale?, Option.map_eq_some_iff]
  constructor
  · rintro ⟨before, after, parts, free, rfl⟩
    refine ⟨(before, after), ?_, rfl⟩
    rw [← Text.cutAt_first free]
    congr 1
    rw [← String.toList_inj, parts]
    simp [String.toList_append]
  · rintro ⟨⟨before, after⟩, cut, rfl⟩
    exact ⟨before, after, Text.cutAt_parts cut, Text.notMem_cutAt cut, rfl⟩

theorem tells_unique : Relator.RightUnique Tells := fun _ _ _ told again =>
  Option.some.inj ((tells_iff.mp told).symm.trans (tells_iff.mp again))

theorem readHeader_eq_ok {l : SentLine} {fields next : Fields} :
    readHeader l.text fields = .ok next ↔
      ∃ field, Tells l field ∧ field.1 ≠ "" ∧ next = fields.add field.1 field.2 := by
  simp only [tells_iff, tale?, readHeader]
  cases cut : Text.cutAt ':' l.text with
  | none => simp
  | some parts =>
    dsimp only [Option.map_some]
    constructor
    · intro told
      split at told
      · cases told
      next named => exact ⟨_, rfl, named, (Except.ok.inj told).symm⟩
    · rintro ⟨field, told, named, rfl⟩
      rw [← Option.some.inj told] at named ⊢
      rw [if_neg named]

theorem readFieldLines_eq_ok {headers : List SentLine} {fields given : Fields} :
    readFieldLines headers fields = .ok given ↔
      ∃ lines, List.Forall₂ Tells headers lines ∧ (∀ field ∈ lines, field.1 ≠ "") ∧ given = addAll lines fields := by
  induction headers generalizing fields with
  | nil =>
    constructor
    · rintro told
      cases told
      exact ⟨[], .nil, List.forall_mem_nil _, rfl⟩
    · rintro ⟨lines, told, -, rfl⟩
      cases told
      rfl
  | cons l headers ih =>
    constructor
    · intro told
      obtain ⟨next, first, later⟩ := readFieldLines_cons_eq_ok told
      obtain ⟨field, tells, named, rfl⟩ := readHeader_eq_ok.mp first
      obtain ⟨lines, each, all, rfl⟩ := ih.mp later
      exact ⟨field :: lines, .cons tells each, List.forall_mem_cons.mpr ⟨named, all⟩, rfl⟩
    · rintro ⟨lines, told, named, rfl⟩
      cases told with
      | cons tells each =>
        obtain ⟨first, all⟩ := List.forall_mem_cons.mp named
        rw [readFieldLines_cons (readHeader_eq_ok.mpr ⟨_, tells, first, rfl⟩)]
        exact ih.mpr ⟨_, each, all, rfl⟩

theorem filterMap_told {headers : List SentLine} {lines : Lines} (told : List.Forall₂ Tells headers lines) :
    headers.filterMap tale? = lines := by
  induction told with
  | nil => rfl
  | cons first _ ih => rw [List.filterMap_cons_some (tells_iff.mp first), ih]

/-- Every line of a head that is accepted tells a field, with a name, and the fields are what they come to. -/
theorem HeadLayout.lines_told (h : HeadLayout) :
    List.Forall₂ Tells h.headers h.tales ∧ (∀ field ∈ h.tales, field.1 ≠ "") ∧ h.fields = merged h.tales := by
  obtain ⟨lines, told, named, given⟩ := readFieldLines_eq_ok.mp h.told
  have same : h.tales = lines := filterMap_told told
  rw [Fields.addAll_nil] at given
  exact same ▸ ⟨told, named, given⟩

theorem keys_merged (lines : Lines) : (merged lines).keys = (lines.map (·.1)).eraseDups := by
  rw [merged, Entries.keys, List.map_map]
  exact List.map_id' _

theorem gathered_merged (lines : Lines) : Gathered lines (merged lines) where
  names name := by rw [keys_merged, List.mem_eraseDups]
  once := by
    rw [keys_merged]
    exact Fields.nodup_eraseDups _
  value name told := by rw [Fields.get?_merged, if_pos told]

/-! ## Lines in another order -/

theorem valuesOf_exchange {a b : String × String} (differ : a.1 ≠ b.1) (before after : Lines) (name : String) :
    valuesOf name (before ++ a :: b :: after) = valuesOf name (before ++ b :: a :: after) := by
  rw [Fields.valuesOf_append, Fields.valuesOf_append]
  congr 1
  by_cases first : a.1 = name
  · have second : b.1 ≠ name := fun same => differ (first.trans same.symm)
    simp [valuesOf, first, second]
  · simp [valuesOf, first, List.filter_cons]

theorem get?_merged_congr {lines others : Lines} (same : ∀ name, valuesOf name lines = valuesOf name others)
    (name : String) : (merged lines).get? name = (merged others).get? name := by
  have told : name ∈ lines.map (·.1) ↔ name ∈ others.map (·.1) := by
    rw [← not_iff_not, ← Fields.valuesOf_eq_nil, ← Fields.valuesOf_eq_nil, same]
  simp only [Fields.get?_merged, told, same]

theorem neighbours {α β : Type} {related : α → β → Prop} {before after : List α} {a b : α} {others : List β}
    (each : List.Forall₂ related (before ++ a :: b :: after) others) :
    ∃ early x y late, others = early ++ x :: y :: late ∧ List.Forall₂ related before early ∧ related a x ∧
      related b y ∧ List.Forall₂ related after late := by
  have first := List.forall₂_take_append others before _ each.flip
  have second := List.forall₂_drop_append others before _ each.flip
  have whole := List.take_append_drop before.length others
  generalize others.take before.length = early at first whole
  generalize others.drop before.length = late at second whole
  cases second with
  | cons here later =>
    cases later with
    | cons there later => exact ⟨early, _, _, _, whole.symm, first.flip, here, there, later.flip⟩

/-- Lines in another order take as many octets, and tell the same values of each name. -/
theorem Reordered.told {headers others : List SentLine} (reordered : Reordered headers others) {lines : Lines}
    (told : List.Forall₂ Tells headers lines) (named : ∀ field ∈ lines, field.1 ≠ "") :
    (linesBytes headers).length = (linesBytes others).length ∧
      ∃ moved, List.Forall₂ Tells others moved ∧ (∀ field ∈ moved, field.1 ≠ "") ∧
        ∀ name, valuesOf name lines = valuesOf name moved := by
  induction reordered with
  | same => exact ⟨rfl, lines, told, named, fun _ => rfl⟩
  | @exchange before after a b first second _ tells next differ ih =>
    obtain ⟨size, moved, each, all, same⟩ := ih
    obtain ⟨early, x, y, late, rfl, ahead, one, other, behind⟩ := neighbours each
    obtain rfl := tells_unique one tells
    obtain rfl := tells_unique other next
    refine ⟨?_, early ++ y :: x :: late, List.rel_append ahead (.cons other (.cons one behind)), ?_, ?_⟩
    · rw [size]
      simp only [linesBytes_append, linesBytes_cons, List.length_append]
      omega
    · intro field member
      refine all field ?_
      simp only [List.mem_append, List.mem_cons] at member ⊢
      exact member.imp_right or_left_comm.mp
    · exact fun name => (same name).trans (valuesOf_exchange differ early late name)

/-- A body is read by the values of its names alone. -/
theorem readBody_congr {fields others : Fields} (same : ∀ name, fields.get? name = others.get? name) (limit : Nat)
    (input : Bytes) : readBody limit fields input = readBody limit others input := by
  simp only [readBody, isChunked, readSizedBody, same]

theorem Reading.returns_map {α β : Type} {f : α → β} {r : Reading α} {value : β} {rest : Bytes} :
    (r.map f).Returns value rest ↔ ∃ given, r.Returns given rest ∧ value = f given := by
  constructor
  · intro returns
    rcases r with given | fault | (fault | given) <;> rcases returns with read | ⟨read, none_⟩ <;> cases read
    · exact ⟨given, .inl rfl, rfl⟩
    · exact ⟨given, .inr ⟨rfl, none_⟩, rfl⟩
  · rintro ⟨given, rfl | ⟨rfl, rfl⟩, rfl⟩
    · exact .inl rfl
    · exact .inr ⟨rfl, rfl⟩

/-! ## A length told twice -/

theorem comma_join {values : List String} (several : 2 ≤ values.length) : ',' ∈ (", ".intercalate values).toList := by
  obtain ⟨first, second, rest, rfl⟩ : ∃ first second rest, values = first :: second :: rest := by
    rcases values with _ | ⟨first, _ | ⟨second, rest⟩⟩
    · cases several
    · simp at several
    · exact ⟨first, second, rest, rfl⟩
  rw [String.intercalate_cons_of_ne_nil (List.cons_ne_nil _ _)]
  simp [String.toList_append]

theorem readSizedBody_repeated {fields : Fields} {lines : Lines} (gathered : Gathered lines fields)
    (several : 2 ≤ (valuesOf "content-length" lines).length) (limit : Nat) (input : Bytes) :
    readSizedBody limit fields input =
      .malformed (.badContentLength (", ".intercalate (valuesOf "content-length" lines))) := by
  have told : "content-length" ∈ lines.map (·.1) := by
    by_contra absent
    rw [Fields.valuesOf_eq_nil.mpr absent] at several
    cases several
  have unread : Text.readNat 10 UInt64.size (", ".intercalate (valuesOf "content-length" lines)) = none := by
    by_contra numeral
    obtain ⟨n, read⟩ := Option.ne_none_iff_exists'.mp numeral
    rcases Text.digits_of_readNat read ',' (comma_join several) with sign | digit
    · exact absurd sign (by decide)
    · exact absurd digit (by decide)
  simp only [readSizedBody, gathered.value _ told, unread]
  rfl

/-! ## Accepted heads -/

section
variable {limit : Nat} {h : HeadLayout} {body rest : Bytes} {r : Request}

theorem HeadLayout.gathered (h : HeadLayout) : Gathered h.tales h.fields := h.lines_told.2.2 ▸ gathered_merged h.tales

theorem headers_of_read (read : (readRequest limit (h.bytes ++ body)).Returns (some r) rest) : r.headers = h.fields := by
  rw [readRequest_layout] at read
  split at read
  next =>
    obtain ⟨content, _, found⟩ := Reading.returns_map.mp read
    cases found
    rfl
  next => exact absurd read Reading.returns_refused

/-- A request with its header lines in another order is the same request, but for the order of its fields. -/
theorem readRequest_reordered (read : (readRequest limit (h.bytes ++ body)).Returns (some r) rest)
    {headers : List SentLine} (reordered : Reordered h.headers headers) :
    ∃ fields, (readRequest limit (h.opening ++ (linesBytes headers ++ h.close.bytes) ++ body)).Returns
        (some { r with headers := fields }) rest ∧
      ∀ name, Entries.get? name fields = r.headers.get? name := by
  obtain ⟨told, named, given⟩ := h.lines_told
  obtain ⟨size, moved, each, all, same⟩ := reordered.told told named
  let other : HeadLayout :=
    { h with
      headers
      fields := merged moved
      told := readFieldLines_eq_ok.mpr ⟨moved, each, all, (Fields.addAll_nil moved).symm⟩ }
  have equal (name : String) : h.fields.get? name = (merged moved).get? name := by
    rw [given]
    exact get?_merged_congr same name
  have octets : h.opening ++ (linesBytes headers ++ h.close.bytes) = other.bytes := other.bytes_eq.symm
  have length : other.bytes.length = h.bytes.length := by
    rw [other.bytes_eq, h.bytes_eq, List.length_append, List.length_append]
    simp only [other, HeadLayout.opening, HeadLayout.remainder, List.length_append, size]
  rw [readRequest_layout] at read
  rw [octets, readRequest_layout, length]
  split at read
  next paid =>
    obtain ⟨content, taken, found⟩ := Reading.returns_map.mp read
    cases found
    refine ⟨merged moved, ?_, fun name => (equal name).symm⟩
    rw [if_pos paid, Reading.returns_map]
    refine ⟨content, readBody_congr equal limit body ▸ taken, ?_⟩
    simp only [HeadLayout.request, other]
  next => exact absurd read Reading.returns_refused

theorem readRequest_repeated (several : 2 ≤ (valuesOf "content-length" h.tales).length)
    (plain : isChunked h.fields = false) (limit : Nat) (body : Bytes) :
    readRequest limit (h.bytes ++ body) =
      if h.bytes.length ≤ headLimit then
        .malformed (.badContentLength (", ".intercalate (valuesOf "content-length" h.tales)))
      else .refused .headersTooLarge := by
  have unchunked : ¬ isChunked h.fields = true := by simp [plain]
  rw [readRequest_layout, readBody, if_neg unchunked, readSizedBody_repeated h.gathered several]
  rfl

end

/-- Every accepted request begins with a head, whose lines each tell a field, and its fields are what they come to: a
name once, in lower case, with the values of its lines in their order. Asking for a name in other letters gives the
same, and so do the lines in another order that leaves those of each name in theirs. A head that tells a length twice is
refused, unless the body is in chunks. -/
theorem header_lines_merged (limit : Nat) (input : Bytes) :
    (∀ r rest, (readRequest limit input).Returns (some r) rest → ∃ (h : HeadLayout) (body : Bytes), input = h.bytes ++ body) ∧
    ∀ (h : HeadLayout) (body : Bytes), input = h.bytes ++ body →
      List.Forall₂ Tells h.headers h.tales ∧ Gathered h.tales h.fields ∧
      (∀ r rest, (readRequest limit input).Returns (some r) rest →
        r.headers = h.fields ∧
        (∀ asked other, Text.sameLetters asked other → r.header? asked = r.header? other) ∧
        ∀ headers, Reordered h.headers headers →
          ∃ fields, (readRequest limit (h.opening ++ (linesBytes headers ++ h.close.bytes) ++ body)).Returns
              (some { r with headers := fields }) rest ∧
            ∀ asked, Request.header? { r with headers := fields } asked = r.header? asked) ∧
      (2 ≤ (valuesOf "content-length" h.tales).length → isChunked h.fields = false →
        readRequest limit input =
          if h.bytes.length ≤ headLimit then
            .malformed (.badContentLength (", ".intercalate (valuesOf "content-length" h.tales)))
          else .refused .headersTooLarge) := by
  constructor
  · intro r rest read
    obtain ⟨l, -, lies, -⟩ := readRequest_returns.mp read
    exact ⟨l.head, l.body.bytes ++ rest, by rw [lies.octets, RequestLayout.bytes, List.append_assoc]⟩
  rintro h body rfl
  refine ⟨h.lines_told.1, h.gathered, fun r rest read => ⟨headers_of_read read, ?_, ?_⟩,
    fun several plain => readRequest_repeated several plain limit body⟩
  · intro asked other same
    rw [Request.header?, Request.header?, eq_of_beq same]
  · intro headers reordered
    obtain ⟨fields, again, equal⟩ := readRequest_reordered read reordered
    exact ⟨fields, again, fun asked => equal (Text.lower asked)⟩

def tagged : HeadLayout where
  blanks := [.crlf]
  first := ⟨"GET / HTTP/1.1", .crlf, by decide, by decide⟩
  headers := [⟨"X-Tag: a", .crlf, by decide, by decide⟩, ⟨"Accept:b", .lf, by decide, by decide⟩,
    ⟨"x-TAG :  c ", .crlf, by decide, by decide⟩]
  close := .crlf
  line := ⟨"GET", "/", "HTTP/1.1"⟩
  fields := [("x-tag", "a, c"), ("accept", "b")]
  asked := by decide +kernel
  told := by decide +kernel

def measuredTwice : HeadLayout where
  blanks := []
  first := ⟨"PUT / HTTP/1.1", .crlf, by decide, by decide⟩
  headers := [⟨"Content-Length: 1", .crlf, by decide, by decide⟩, ⟨"content-length: 1", .crlf, by decide, by decide⟩]
  close := .crlf
  line := ⟨"PUT", "/", "HTTP/1.1"⟩
  fields := [("content-length", "1, 1")]
  asked := by decide +kernel
  told := by decide +kernel

theorem header_lines_merged_tagged :
    tagged.tales = [("x-tag", "a"), ("accept", "b"), ("x-tag", "c")] ∧
    (readRequest 1024 tagged.bytes).Returns (some (tagged.request [])) [] ∧
    (tagged.request []).header? "X-tag" = some "a, c" ∧
    (tagged.request []).header? "x-Tag" = (tagged.request []).header? "X-tag" ∧
    (∃ fields, (readRequest 1024 (Text.utf8 "\r\nGET / HTTP/1.1\r\nX-Tag: a\r\nx-TAG :  c \r\nAccept:b\n\r\n")).Returns
        (some { tagged.request [] with headers := fields }) [] ∧
      Request.header? { tagged.request [] with headers := fields } "X-TAG" = some "a, c") ∧
    readRequest 1024 (measuredTwice.bytes ++ [0x61]) = .malformed (.badContentLength "1, 1") := by
  have read : (readRequest 1024 tagged.bytes).Returns (some (tagged.request [])) [] := by
    refine readRequest_returns.mpr ⟨⟨tagged, .sized [] (by decide) rfl⟩, rfl, ⟨?_, ?_, ?_, ?_⟩, fun _ => rfl⟩
    · decide +kernel
    · decide +kernel
    · decide
    · decide
  obtain ⟨-, -, accepted, -⟩ := (header_lines_merged 1024 tagged.bytes).2 tagged [] (List.append_nil _).symm
  obtain ⟨-, letters, moved⟩ := accepted _ _ read
  obtain ⟨-, -, -, repeated⟩ := (header_lines_merged 1024 (measuredTwice.bytes ++ [0x61])).2 measuredTwice [0x61] rfl
  have asked : Reordered tagged.headers ([tagged.headers[0]] ++ tagged.headers[1] :: tagged.headers[2] :: []) := .same
  have second : Tells tagged.headers[1] ("accept", "b") := tells_iff.mpr (by decide +kernel)
  have third : Tells tagged.headers[2] ("x-tag", "c") := tells_iff.mpr (by decide +kernel)
  have reordered : Reordered tagged.headers [tagged.headers[0], tagged.headers[2], tagged.headers[1]] :=
    asked.exchange second third (by decide)
  obtain ⟨fields, again, same⟩ := moved _ reordered
  refine ⟨by decide +kernel, read, by decide +kernel, letters _ _ (by decide +kernel), ⟨fields, ?_, ?_⟩, ?_⟩
  · have octets : tagged.opening ++ (linesBytes [tagged.headers[0], tagged.headers[2], tagged.headers[1]] ++
        tagged.close.bytes) ++ [] =
        Text.utf8 "\r\nGET / HTTP/1.1\r\nX-Tag: a\r\nx-TAG :  c \r\nAccept:b\n\r\n" := by decide +kernel
    rwa [octets] at again
  · exact (same "X-TAG").trans (by decide +kernel)
  · have lengths : ", ".intercalate (valuesOf "content-length" measuredTwice.tales) = "1, 1" := by decide +kernel
    rw [repeated (by decide +kernel) (by decide), if_pos (by decide +kernel), lengths]

end Http

end ToolBridge

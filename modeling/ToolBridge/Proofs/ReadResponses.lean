import ToolBridge.Proofs.WrittenResponses

/-! Responses read and written again. Whatever reading gives fits into what is written: its lines had no line breaks,
its names ended at a first colon, and what was trimmed once stays as it is. So writing is undone by reading, and what
was read comes back from what is written of it. -/

namespace ToolBridge

namespace Parted
variable {α : Type} {a b : α} {s t : List α}

theorem of_infix (parted : Parted a b t) (inside : s <:+: t) : Parted a b s := fun pair => parted (pair.trans inside)

theorem reverse (parted : Parted a b s) : Parted b a s.reverse := fun pair =>
  parted (by simpa using List.reverse_infix.mpr pair)

end Parted

namespace Text

/-- The letters of a line that is read are kept last first, so the pair to look for is turned round. -/
theorem crlfless_go {line s : List Char} (single : Parted '\n' '\r' line)
    (apart : line.head? = some '\r' → s.head? ≠ some '\n') : ∀ piece ∈ networkLines.go line s, Parted '\r' '\n' piece := by
  fun_induction networkLines.go line s with
  | case1 line =>
    intro piece member
    obtain rfl := List.mem_singleton.mp member
    exact single.reverse
  | case2 line rest ih =>
    intro piece member
    rcases List.mem_cons.mp member with rfl | later
    · exact single.reverse
    · exact ih (.of_notMem List.not_mem_nil) (fun none => by cases none) piece later
  | case3 line c rest other ih =>
    refine ih ?_ ?_
    · intro pair
      rcases List.infix_cons_iff.mp pair with here | earlier
      · obtain ⟨rfl, before⟩ := List.cons_prefix_cons.mp here
        cases line with
        | nil => cases List.prefix_nil.mp before
        | cons d line =>
          obtain ⟨rfl, _⟩ := List.cons_prefix_cons.mp before
          exact apart rfl rfl
      · exact single earlier
    · intro return_ feed
      cases rest with
      | nil => cases feed
      | cons d rest => exact other rest (Option.some.inj return_) (by rw [Option.some.inj feed])

theorem crlfless_networkLines (s : String) : ∀ line ∈ networkLines s, Crlfless line := by
  intro line member
  obtain ⟨piece, inside, rfl⟩ := List.mem_map.mp member
  rw [Crlfless, String.toList_ofList]
  exact crlfless_go (.of_notMem List.not_mem_nil) (fun none => by cases none) piece inside

theorem crlfless_cutAt {sep : Char} {s before after : String} (single : Crlfless s)
    (cut : cutAt sep s = some (before, after)) : Crlfless before ∧ Crlfless after := by
  have parts := cutAt_parts cut
  refine ⟨Parted.of_infix single ?_, Parted.of_infix single ?_⟩
  · exact ⟨[], sep :: after.toList, by rw [parts, List.nil_append]⟩
  · exact ⟨before.toList ++ [sep], [], by simp [parts]⟩

theorem infix_trim (s : String) : (trim s).toList <:+: s.toList := by
  rw [trim, String.toList_ofList, trimChars]
  have inner := (List.dropWhile_suffix isBlank (l := (s.toList.dropWhile isBlank).reverse)).isInfix
  have outer := (List.dropWhile_suffix isBlank (l := s.toList)).isInfix
  exact List.IsInfix.trans (by simpa using List.reverse_infix.mpr inner) outer

theorem Crlfless.trim {s : String} (single : Crlfless s) : Crlfless (trim s) := Parted.of_infix single (infix_trim s)

theorem trimmed_trim (s : String) : Trimmed (trim s) := by
  have nonblank : ∀ chars : List Char, (chars.dropWhile isBlank).head?.any isBlank = false := by
    intro chars
    have first := List.head?_dropWhile_not isBlank chars
    cases here : (chars.dropWhile isBlank).head? with
    | none => rfl
    | some c => simpa [here] using first
  refine ⟨?_, ?_⟩ <;> rw [trim, String.toList_ofList, trimChars]
  · -- Trimming at the end takes nothing from the start, unless it takes everything.
    have before := List.reverse_prefix.mpr (List.dropWhile_suffix isBlank (l := (s.toList.dropWhile isBlank).reverse))
    rw [List.reverse_reverse] at before
    have start := nonblank s.toList
    obtain ⟨dropped, whole⟩ := before
    cases kept : ((s.toList.dropWhile isBlank).reverse.dropWhile isBlank).reverse with
    | nil => rfl
    | cons c rest =>
      rw [kept] at whole
      rw [← whole] at start
      exact start
  · rw [List.getLast?_reverse]
    exact nonblank _

theorem trim_trim (s : String) : trim (trim s) = trim s := trim_eq_self (trimmed_trim s)

theorem mem_trim {s : String} {c : Char} (member : c ∈ s.toList) (visible : isBlank c = false) : c ∈ (trim s).toList := by
  have kept : ∀ {chars : List Char}, c ∈ chars → c ∈ chars.dropWhile isBlank := by
    intro chars inside
    rw [← List.takeWhile_append_dropWhile (p := isBlank) (l := chars), List.mem_append] at inside
    exact inside.resolve_left fun blank => by simp [List.mem_takeWhile_imp blank] at visible
  rw [trim, String.toList_ofList, trimChars, List.mem_reverse]
  exact kept (List.mem_reverse.mpr (kept member))

end Text

namespace Http.Response
variable {r : Response}

/-! ## What reading gives -/

theorem readStatusLine_fits {line reason : String} {status : Nat} (single : Text.Crlfless line)
    (read : readStatusLine line = .ok (status, reason)) : status < UInt16.size ∧ Text.Crlfless reason := by
  have small : ∀ {s : String} {n : Nat}, Text.readNat 10 UInt16.size s = some n → n < UInt16.size := by
    intro s n number
    simpa using (Option.filter_eq_some_iff.mp number).2
  unfold readStatusLine at read
  cases version : Text.cutAt ' ' line with
  | none =>
    simp only [version, Option.elim_none] at read
    split at read
    · cases read
    · simp at read
  | some cut =>
    obtain ⟨before, after⟩ := cut
    have rest := (Text.crlfless_cutAt single version).2
    simp only [version, Option.elim_some] at read
    split at read
    · cases read
    cases parted : Text.cutAt ' ' after with
    | none =>
      simp only [parted, Option.bind_some] at read
      split at read
      · cases read
      next number =>
        cases read
        exact ⟨small number, by decide⟩
    | some words =>
      obtain ⟨number, phrase⟩ := words
      simp only [parted, Option.bind_some] at read
      split at read
      · cases read
      next number =>
        cases read
        exact ⟨small number, (Text.crlfless_cutAt rest parted).2⟩

/-- A field that reading can give. -/
structure Canonical (field : String × String) : Prop where
  named : Named field.1
  single : Text.Crlfless field.2
  trimmed : Text.Trimmed field.2
  other : Text.sameLetters field.1 "content-length" = false

theorem readField_canonical {line : String} {read after : List (String × String) × Option Nat} (single : Text.Crlfless line)
    (before : ∀ field ∈ read.1, Canonical field) (goes : readField read line = .ok after) :
    ∀ field ∈ after.1, Canonical field := by
  unfold readField at goes
  split at goes
  · cases goes
  next name value cut =>
    obtain ⟨first, last⟩ := Text.crlfless_cutAt single cut
    split at goes
    · cases goes
      exact before
    next other =>
      cases goes
      intro field member
      rcases List.mem_append.mp member with old | new
      · exact before field old
      · obtain rfl := List.mem_singleton.mp new
        have plain : ':' ∉ (Text.trim name).toList := fun colon => Text.notMem_cutAt cut (Text.trim_subset name colon)
        exact ⟨⟨plain, first.trim, Text.trim_trim name⟩, last.trim, Text.trimmed_trim value, by simpa using other⟩

theorem readFields_canonical {lines : List String} {fields : List (String × String)} {length : Option Nat}
    (single : ∀ line ∈ lines, Text.Crlfless line) (read : readFields lines = .ok (fields, length)) :
    ∀ field ∈ fields, Canonical field := by
  rw [readFields_eq] at read
  suffices walked : ∀ before, (∀ field ∈ before.1, Canonical field) → ∀ after, lines.foldlM readField before = .ok after →
      ∀ field ∈ after.1, Canonical field from
    walked ([], none) (List.forall_mem_nil _) _ read
  clear read
  induction lines with
  | nil =>
    rintro before held _ ⟨⟩
    exact held
  | cons line lines ih =>
    intro before held after goes
    rw [List.foldlM_cons] at goes
    cases first : readField before line with
    | error flaw => rw [first] at goes; cases goes
    | ok next =>
      rw [first] at goes
      exact ih (fun other member => single other (List.mem_cons_of_mem _ member)) next
        (readField_canonical (single line List.mem_cons_self) held first) after goes

/-- What reading gives can be written and told again, and has no field for its length. -/
theorem ofBytes_canonical {bytes : Bytes} (read : ofBytes bytes = .ok r) :
    r.status < UInt16.size ∧ Text.Crlfless r.reason ∧ ∀ field ∈ r.headers, Canonical field := by
  have head : ∀ {head : String} {known : Response} {length : Option Nat}, readHead head = .ok (known, length) →
      known.status < UInt16.size ∧ Text.Crlfless known.reason ∧ ∀ field ∈ known.headers, Canonical field := by
    intro head known length told
    have lines := Text.crlfless_networkLines head
    unfold readHead at told
    split at told
    · cases told
    next line rest same =>
      rw [same] at lines
      cases first : readStatusLine line with
      | error flaw => simp [first, bind, Except.bind] at told
      | ok status =>
        cases fields : readFields rest with
        | error flaw => simp [first, fields, bind, Except.bind] at told
        | ok fields_ =>
          simp only [first, fields, bind, Except.bind, pure, Except.pure] at told
          cases told
          have ⟨small, single⟩ := readStatusLine_fits (lines line List.mem_cons_self) first
          exact ⟨small, single, readFields_canonical (fun other member => lines other (List.mem_cons_of_mem _ member)) fields⟩
  unfold ofBytes at read
  split at read
  · cases read
  split at read
  · cases read
  next text _ =>
    cases told : readHead text with
    | error flaw => simp [told, bind, Except.bind] at read
    | ok found =>
      obtain ⟨known, length⟩ := found
      have held := head told
      simp only [told, bind, Except.bind, pure, Except.pure] at read
      split at read
      · cases read
        exact held
      · split at read
        · cases read
        · cases read
          exact held

/-! ## The line that tells the length -/

/-- The line of a head claims a length. -/
def declaresLength (line : String) : Bool :=
  (Text.cutAt ':' line).any fun (name, _) => Text.sameLetters (Text.trim name) "content-length"

/-- The lines before the first empty one. -/
def headLines? (bytes : Bytes) : Option (List String) :=
  (Bytes.cutAt [0x0D, 0x0A, 0x0D, 0x0A] bytes).bind fun (head, _) => (Text.ofUtf8? head).map Text.networkLines

theorem declaresLength_fieldLine {field : String × String} (named : Named field.1) (own : isFraming field.1 = false) :
    declaresLength (fieldLine field) = false := by
  rw [declaresLength, fieldLine, cutAt_field named]
  simpa [named.trimmed] using (Bool.or_eq_false_iff.mp own).1

theorem declaresLength_lengthLine (r : Response) : declaresLength r.lengthLine = true := by
  have named : Named "Content-Length" := ⟨by decide, by decide, by decide +kernel⟩
  have same : Text.sameLetters "Content-Length" "content-length" = true := by decide +kernel
  rw [declaresLength, lengthLine_eq, cutAt_field named]
  simpa [named.trimmed] using same

/-- A slash stands in the status line before any colon. -/
theorem declaresLength_statusLine (r : Response) : declaresLength r.statusLine = false := by
  rw [declaresLength]
  cases cut : Text.cutAt ':' r.statusLine with
  | none => rfl
  | some parts =>
    obtain ⟨name, value⟩ := parts
    have whole : name.toList ++ ':' :: value.toList = "HTTP/".toList ++ (s!"1.1 {r.status} {r.reason}").toList := by
      rw [← Text.cutAt_parts cut]
      simp [statusLine, toString]
    have slash : '/' ∈ name.toList := by
      rcases List.append_eq_append_iff.mp whole with ⟨rest, version, later⟩ | ⟨rest, version, _⟩
      · cases rest with
        | nil =>
          rw [List.append_nil] at version
          rw [← version]
          decide
        | cons c rest =>
          obtain rfl : ':' = c := (List.cons.inj later).1
          have colon : ':' ∈ "HTTP/".toList := by simp [version]
          exact absurd colon (by decide)
      · rw [version]
        exact List.mem_append_left _ (by decide)
    have lowered : '/' ∈ (Text.lower (Text.trim name)).toList := by
      rw [Text.lower, String.toList_ofList]
      exact List.mem_map.mpr ⟨'/', Text.mem_trim slash (by decide), by decide⟩
    rw [Option.any_some, Bool.eq_false_iff]
    intro same
    have equal : Text.lower (Text.trim name) = Text.lower "content-length" := by simpa [Text.sameLetters] using same
    rw [equal] at lowered
    exact absurd lowered (by decide +kernel)

/-- Of the lines of a head, one claims a length, and it is that of the body. -/
theorem headLines?_toBytes (fits : r.Fits) (more : Bytes) :
    ∃ lines, headLines? (r.toBytes ++ more) = some lines ∧ lines.filter declaresLength = [r.lengthLine] := by
  refine ⟨r.statusLine :: r.fieldLines, ?_, ?_⟩
  · rw [headLines?, cutAt_toBytes fits]
    simp only [Option.bind_some, Text.ofUtf8?_utf8, Option.map_some, Text.networkLines_joinLines fits.crlfless]
  · have fields : ∀ line ∈ r.ownFields.map fieldLine, ¬ declaresLength line = true := by
      intro line member
      obtain ⟨field, written, rfl⟩ := List.mem_map.mp member
      obtain ⟨kept, own⟩ := List.mem_filter.mp written
      simp [declaresLength_fieldLine (fits.names field kept) (by simpa using own)]
    rw [List.filter_cons_of_neg (by simp [declaresLength_statusLine]), fieldLines, List.filter_append,
      List.filter_eq_nil_iff.mpr fields, List.nil_append, List.filter_singleton]
    simp [declaresLength_lengthLine]

/-! ## Both ways -/

/-- Reading undoes writing. A response that can be told from its text is read back whatever follows, without the fields
that the writer leaves out, and its head claims one length, that of the body. What has been read once, and has no field
for a coding that is not undone, is read again from what is written of it. The bounds are those of the words that hold
a status and a length. -/
theorem reading_undoes_writing :
    (∀ r : Response, r.Fits → (∀ field ∈ r.headers, Text.Trimmed field.2) → r.body.length < UInt64.size → ∀ more,
      ofBytes (r.toBytes ++ more) = .ok { r with headers := r.headers.filter fun (name, _) => !isFraming name } ∧
      ∃ lines, headLines? (r.toBytes ++ more) = some lines ∧
        lines.filter declaresLength = [s!"Content-Length: {r.body.length}"]) ∧
    ∀ bytes r, ofBytes bytes = .ok r → (∀ field ∈ r.headers, Text.sameLetters field.1 "transfer-encoding" = false) →
      ofBytes r.toBytes = .ok r := by
  have untouched : ∀ fields : List (String × String), (∀ field ∈ fields, Text.Trimmed field.2) →
      fields.map (fun (name, value) => (name, Text.trim value)) = fields := by
    intro fields trimmed
    have same : ∀ field ∈ fields, (field.1, Text.trim field.2) = field :=
      fun field member => by rw [Text.trim_eq_self (trimmed field member)]
    exact (List.map_congr_left same).trans (List.map_id _)
  constructor
  · intro r fits trimmed small more
    have read : ofBytes (r.toBytes ++ more) = _ := ofBytes_toBytes fits (Or.inl small)
    rw [untouched r.ownFields fun field member => trimmed field (List.mem_filter.mp member).1] at read
    exact ⟨read, headLines?_toBytes fits more⟩
  · intro bytes r read uncoded
    obtain ⟨status, reason, fields⟩ := ofBytes_canonical read
    have fits : r.Fits := ⟨status, reason, fun field member => (fields field member).named,
      fun field member => (fields field member).single⟩
    have own : r.ownFields = r.headers := List.filter_eq_self.mpr fun field member => by
      simp [isFraming, (fields field member).other, uncoded field member]
    have again : ofBytes (r.toBytes ++ []) = _ := ofBytes_toBytes fits (Or.inr rfl)
    rw [own, untouched r.headers fun field member => (fields field member).trimmed, List.append_nil] at again
    exact again

/-- Half line breaks in the reason and in a value, an empty value, fields that frame, and a body that looks like the end
of a head. -/
private def odd : Response where
  status := 299
  reason := "as  it is\r"
  headers := [("X-Halves", "one\rtwo\n\rthree"), ("content-LENGTH", "7"), ("Empty", ""), ("Transfer-Encoding", "chunked")]
  body := [0x0D, 0x0A, 0x0D, 0x0A, 0xFF]

private def oddRead : Response := { odd with headers := [("X-Halves", "one\rtwo\n\rthree"), ("Empty", "")] }

theorem reading_undoes_writing_odd : (ofBytes (odd.toBytes ++ [0x58]) = .ok oddRead ∧
    ∃ lines, headLines? (odd.toBytes ++ [0x58]) = some lines ∧ lines.filter declaresLength = ["Content-Length: 5"]) ∧
    ofBytes oddRead.toBytes = .ok oddRead := by
  obtain ⟨back, again⟩ := reading_undoes_writing
  have names : ∀ field ∈ odd.headers, ':' ∉ field.1.toList ∧ Text.Crlfless field.1 ∧ Text.trim field.1 = field.1 ∧
      Text.Crlfless field.2 ∧ Text.Trimmed field.2 := by decide +kernel
  have fits : odd.Fits := ⟨by decide, by decide +kernel,
    fun field member => ⟨(names field member).1, (names field member).2.1, (names field member).2.2.1⟩,
    fun field member => (names field member).2.2.2.1⟩
  have left : { odd with headers := odd.headers.filter fun (name, _) => !isFraming name } = oddRead := by decide +kernel
  have read := back odd fits (fun field member => (names field member).2.2.2.2) (by decide) [0x58]
  rw [left] at read
  exact ⟨read, again _ _ read.1 (by decide +kernel)⟩

end Http.Response

end ToolBridge

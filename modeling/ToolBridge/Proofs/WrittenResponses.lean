import ToolBridge.Http.Response
import ToolBridge.Proofs.ReadFields
import ToolBridge.Proofs.TextPieces

/-! Responses written and read back. A head is lines with a line break between any two; where none of them is empty or
has a line break of its own, the head ends at the first empty line, and its lines are told apart again. -/

namespace ToolBridge

/-- A list in which `b` never follows `a` at once. -/
def Parted {α : Type} (a b : α) (s : List α) : Prop := ¬ [a, b] <:+: s

instance {α : Type} [DecidableEq α] (a b : α) (s : List α) : Decidable (Parted a b s) := inferInstanceAs (Decidable (¬ _))

namespace Parted
variable {α : Type} {a b c : α} {s t : List α}

theorem of_notMem (absent : b ∉ s) : Parted a b s := by
  rintro ⟨before, after, rfl⟩
  exact absent (by simp)

theorem tail (parted : Parted a b (c :: s)) : Parted a b s := fun inside => parted (List.infix_cons inside)

theorem apart (first : Parted a b s) (last : Parted a b t) (notA : c ≠ a) (notB : c ≠ b) : Parted a b (s ++ c :: t) := by
  induction s with
  | nil =>
    intro inside
    rcases List.infix_cons_iff.mp inside with here | later
    · exact notA (List.cons_prefix_cons.mp here).1.symm
    · exact last later
  | cons d s ih =>
    intro inside
    rcases List.infix_cons_iff.mp inside with here | later
    · obtain ⟨rfl, next⟩ := List.cons_prefix_cons.mp here
      cases s with
      | nil => exact notB (List.cons_prefix_cons.mp next).1.symm
      | cons e s =>
        obtain ⟨rfl, _⟩ := List.cons_prefix_cons.mp next
        exact first ⟨[], s, rfl⟩
    · exact ih first.tail later

theorem prepend (parted : Parted a b t) (absent : a ∉ s) : Parted a b (s ++ t) := by
  induction s with
  | nil => exact parted
  | cons d s ih =>
    rw [List.mem_cons, not_or] at absent
    intro inside
    rcases List.infix_cons_iff.mp inside with here | later
    · exact absent.1 (List.cons_prefix_cons.mp here).1
    · exact ih absent.2 later

theorem ahead (parted : Parted a b (c :: s)) (different : a ≠ b) (rest : List α) :
    ¬ [a, b] <+: c :: (s ++ a :: rest) := by
  intro here
  obtain ⟨rfl, next⟩ := List.cons_prefix_cons.mp here
  cases s with
  | nil => exact different (List.cons_prefix_cons.mp next).1.symm
  | cons d s =>
    obtain ⟨rfl, _⟩ := List.cons_prefix_cons.mp next
    exact parted ⟨[], s, rfl⟩

end Parted

namespace Text

/-- A text without a line break of the network. Either half of one may stand alone. -/
def Crlfless (s : String) : Prop := Parted '\r' '\n' s.toList

instance (s : String) : Decidable (Crlfless s) := inferInstanceAs (Decidable (Parted _ _ _))

theorem Unbroken.crlfless {s : String} (unbroken : Unbroken s) : Crlfless s := .of_notMem unbroken

theorem networkLines_go_char {line rest : List Char} {c : Char} (apart : ¬ ['\r', '\n'] <+: c :: rest) :
    networkLines.go line (c :: rest) = networkLines.go (c :: line) rest := by
  rw [networkLines.go.eq_def]
  split
  next empty => cases empty
  next broken =>
    cases broken
    exact absurd ⟨_, rfl⟩ apart
  next same =>
    cases same
    rfl

theorem networkLines_go_line {line s rest : List Char} (single : Parted '\r' '\n' s) :
    networkLines.go line (s ++ '\r' :: '\n' :: rest) = (line.reverse ++ s) :: networkLines.go [] rest := by
  induction s generalizing line with
  | nil => simp [networkLines.go]
  | cons c s ih =>
    rw [List.cons_append, networkLines_go_char (single.ahead (by decide) _), ih single.tail]
    simp

theorem networkLines_go_last {line s : List Char} (single : Parted '\r' '\n' s) :
    networkLines.go line s = [line.reverse ++ s] := by
  induction s generalizing line with
  | nil => simp [networkLines.go]
  | cons c s ih =>
    rw [networkLines_go_char fun here => single here.isInfix, ih single.tail]
    simp

/-- Lines with a line break between any two of them. -/
def joinLines (first : String) (more : List String) : String := first ++ String.join (more.map ("\r\n" ++ ·))

theorem toList_joinLines (first : String) (more : List String) :
    (joinLines first more).toList = first.toList ++ more.flatMap fun line => '\r' :: '\n' :: line.toList := by
  have break_ : "\r\n".toList = ['\r', '\n'] := by decide
  simp [joinLines, String.toList_join, List.flatMap_map, break_]

theorem networkLines_joinLines {first : String} {more : List String} (single : ∀ line ∈ first :: more, Crlfless line) :
    networkLines (joinLines first more) = first :: more := by
  rw [networkLines, toList_joinLines]
  induction more generalizing first with
  | nil => simp [networkLines_go_last (single first List.mem_cons_self)]
  | cons line more ih =>
    have rest := ih fun other member => single other (List.mem_cons_of_mem _ member)
    rw [List.flatMap_cons, List.cons_append, List.cons_append,
      networkLines_go_line (single first List.mem_cons_self), List.map_cons, rest]
    simp

theorem utf8_joinLines (first : String) (more : List String) :
    utf8 (joinLines first more) = utf8 first ++ (more.map utf8).flatMap (0x0D :: 0x0A :: ·) := by
  have return_ : String.utf8EncodeChar '\r' = [0x0D] := by decide
  have feed : String.utf8EncodeChar '\n' = [0x0A] := by decide
  rw [utf8_eq, toList_joinLines, List.flatMap_append, List.flatMap_assoc, ← utf8_eq, List.flatMap_map]
  simp only [List.flatMap_cons, return_, feed, ← utf8_eq, List.cons_append, List.nil_append]

theorem trim_blank (s : String) : trim (" " ++ s) = trim s := by
  have blank : isBlank ' ' = true := by decide
  have apart : (" " ++ s).toList = ' ' :: s.toList := by simp
  rw [trim, trim, apart, trimChars, List.dropWhile_cons_of_pos blank, trimChars]

theorem spells_toString (n : Nat) : Spells 10 (toString n) n :=
  spells_toDigits (by decide) (by decide) n

theorem encodeChar_cr {c : Char} (member : 0x0D ∈ String.utf8EncodeChar c) : c = '\r' :=
  Char.toNat_inj.mp (encodeChar_ascii member (by decide))

theorem encodeChar_lf {c : Char} (member : 0x0A ∈ String.utf8EncodeChar c) : c = '\n' :=
  Char.toNat_inj.mp (encodeChar_ascii member (by decide))

/-- The octets of a text have no line break that the text has not. -/
theorem crlfless_utf8 {s : String} (single : Crlfless s) : Parted 0x0D 0x0A (utf8 s) := by
  rw [utf8_eq]
  unfold Crlfless at single
  generalize s.toList = chars at single ⊢
  induction chars with
  | nil => exact .of_notMem List.not_mem_nil
  | cons c rest ih =>
    intro inside
    rw [List.flatMap_cons] at inside
    by_cases return_ : c = '\r'
    · subst return_
      have one : String.utf8EncodeChar '\r' = [0x0D] := by decide
      rw [one, List.singleton_append] at inside
      rcases List.infix_cons_iff.mp inside with here | later
      · obtain ⟨_, next⟩ := List.cons_prefix_cons.mp here
        cases rest with
        | nil => cases List.prefix_nil.mp next
        | cons d rest =>
          have nonempty : String.utf8EncodeChar d ≠ [] := String.utf8EncodeChar_ne_nil
          have feed : d = '\n' := by
            refine encodeChar_lf ?_
            obtain ⟨b, octets, shape⟩ := List.exists_cons_of_ne_nil nonempty
            rw [List.flatMap_cons, shape, List.cons_append] at next
            rw [shape, (List.cons_prefix_cons.mp next).1]
            exact List.mem_cons_self
          subst feed
          exact single ⟨[], rest, rfl⟩
      · exact ih single.tail later
    · exact (ih single.tail).prepend (fun member => return_ (encodeChar_cr member)) inside

end Text

namespace Bytes

theorem cutAt_go_line {line before rest : Bytes} (single : Parted 0x0D 0x0A line) :
    cutAt.go [0x0D, 0x0A, 0x0D, 0x0A] before (line ++ 0x0D :: rest) =
      cutAt.go [0x0D, 0x0A, 0x0D, 0x0A] (line.reverse ++ before) (0x0D :: rest) := by
  induction line generalizing before with
  | nil => rfl
  | cons b line ih =>
    have apart : ¬ [0x0D, 0x0A, 0x0D, 0x0A] <+: b :: (line ++ 0x0D :: rest) := fun here =>
      single.ahead (by decide) rest ((List.prefix_append [0x0D, 0x0A] [0x0D, 0x0A]).trans here)
    rw [List.cons_append, cutAt.go, if_neg (by simpa using apart), ih single.tail]
    simp

/-- The first empty line is at the end of the lines, if none of them is empty. -/
theorem cutAt_lines {first : Bytes} {more : List Bytes} (single : ∀ line ∈ first :: more, Parted 0x0D 0x0A line)
    (nonempty : ∀ line ∈ more, line ≠ []) (rest : Bytes) :
    cutAt [0x0D, 0x0A, 0x0D, 0x0A] (first ++ more.flatMap (0x0D :: 0x0A :: ·) ++ 0x0D :: 0x0A :: 0x0D :: 0x0A :: rest) =
      some (first ++ more.flatMap (0x0D :: 0x0A :: ·), rest) := by
  have walked : ∀ before, cutAt.go [0x0D, 0x0A, 0x0D, 0x0A] before
      (first ++ more.flatMap (0x0D :: 0x0A :: ·) ++ 0x0D :: 0x0A :: 0x0D :: 0x0A :: rest) =
        some (before.reverse ++ (first ++ more.flatMap (0x0D :: 0x0A :: ·)), rest) := by
    induction more generalizing first with
    | nil =>
      intro before
      rw [List.flatMap_nil, List.append_nil, cutAt_go_line (single first List.mem_cons_self), cutAt.go]
      simp
    | cons line more ih =>
      intro before
      obtain ⟨b, octets, rfl⟩ := List.exists_cons_of_ne_nil (nonempty line List.mem_cons_self)
      have others : ∀ line ∈ (b :: octets) :: more, Parted 0x0D 0x0A line :=
        fun line member => single line (List.mem_cons_of_mem _ member)
      have later := ih others (fun line member => nonempty line (List.mem_cons_of_mem _ member))
      obtain ⟨after, follows⟩ : ∃ after, more.flatMap (0x0D :: 0x0A :: ·) ++ 0x0D :: 0x0A :: 0x0D :: 0x0A :: rest =
          0x0D :: after := by
        cases more <;> exact ⟨_, rfl⟩
      have spoken : ¬ [0x0D, 0x0A, 0x0D, 0x0A] <+: 0x0D :: 0x0A :: b :: (octets ++ 0x0D :: after) := by
        intro here
        have next := (List.cons_prefix_cons.mp (List.cons_prefix_cons.mp here).2).2
        exact (others _ List.mem_cons_self).ahead (by decide) after next
      have inner : ¬ [0x0D, 0x0A, 0x0D, 0x0A] <+: 0x0A :: b :: (octets ++ 0x0D :: after) := by
        intro here
        exact absurd (List.cons_prefix_cons.mp here).1 (by decide)
      have later := later (0x0A :: 0x0D :: (first.reverse ++ before))
      simp only [List.flatMap_cons, List.append_assoc, List.cons_append, follows] at later ⊢
      rw [cutAt_go_line (single first List.mem_cons_self), cutAt.go, if_neg (by simpa using spoken), cutAt.go,
        if_neg (by simp), later]
      simp
  exact walked []

end Bytes

namespace Http.Response

def statusLine (r : Response) : String := s!"HTTP/1.1 {r.status} {r.reason}"

def fieldLine (field : String × String) : String := field.1 ++ ": " ++ field.2

def lengthLine (r : Response) : String := s!"Content-Length: {r.body.length}"

def ownFields (r : Response) : List (String × String) := r.headers.filter fun (name, _) => !isFraming name

def fieldLines (r : Response) : List String := r.ownFields.map fieldLine ++ [r.lengthLine]

theorem lengthLine_eq (r : Response) : r.lengthLine = "Content-Length" ++ ": " ++ toString r.body.length := by
  have name : "Content-Length" ++ ": " = "Content-Length: " := by decide
  -- unfolded in place: the equation of the definition is proved letter by letter
  delta lengthLine
  rw [name]
  rfl

theorem head_eq (r : Response) : r.head = Text.joinLines r.statusLine r.fieldLines ++ "\r\n\r\n" := by
  have rotated : ∀ fields : List (String × String),
      "\r\n" ++ String.join (fields.map fun field => field.1 ++ ": " ++ field.2 ++ "\r\n") =
        String.join ((fields.map fieldLine).map ("\r\n" ++ ·)) ++ "\r\n" := by
    intro fields
    induction fields with
    | nil => rfl
    | cons field rest ih =>
      simp only [List.map_cons, String.join_cons, fieldLine, String.append_assoc] at ih ⊢
      rw [ih]
  have status : s!"HTTP/1.1 {r.status} {r.reason}\r\n" = r.statusLine ++ "\r\n" := by
    simp [statusLine, toString, String.append_assoc]
  have length : s!"Content-Length: {r.body.length}\r\n\r\n" = r.lengthLine ++ "\r\n\r\n" := by
    delta lengthLine
    rfl
  have fields := rotated r.ownFields
  calc r.head
    _ = r.statusLine ++ ("\r\n" ++ String.join (r.ownFields.map fun field => field.1 ++ ": " ++ field.2 ++ "\r\n")) ++
        (r.lengthLine ++ "\r\n\r\n") := by
      delta head
      rw [status, length, ownFields]
      simp only [String.append_assoc]
    _ = Text.joinLines r.statusLine r.fieldLines ++ "\r\n\r\n" := by
      rw [fields, Text.joinLines, fieldLines]
      simp [String.append_assoc, String.join_append]

variable {r : Response}

theorem readStatusLine_statusLine (small : r.status < UInt16.size) :
    readStatusLine r.statusLine = .ok (r.status, r.reason) := by
  have digits : ∀ c ∈ (toString r.status).toList, c ≠ ' ' := by
    intro c member same
    have digit := (Text.spells_toString r.status).digits (by decide) (by decide) c member
    rw [same] at digit
    exact absurd digit (by decide)
  have version : Text.cutAt ' ' r.statusLine = some ("HTTP/1.1", toString r.status ++ " " ++ r.reason) := by
    have apart : r.statusLine = "HTTP/1.1" ++ .singleton ' ' ++ (toString r.status ++ " " ++ r.reason) := by
      simp [statusLine, toString, String.append_assoc]
    rw [apart]
    exact Text.cutAt_first (by decide)
  have status : Text.cutAt ' ' (toString r.status ++ " " ++ r.reason) = some (toString r.status, r.reason) :=
    Text.cutAt_first fun member => digits _ member rfl
  have number := Text.readNat_spelled (by decide) (by decide) small (Text.spells_toString r.status)
  have http : "HTTP/".toList.isPrefixOf "HTTP/1.1".toList = true := by decide
  rw [readStatusLine, version]
  simp only [Option.elim_some, http, Bool.not_true, Bool.false_eq_true, if_false, status, Option.bind_some, number]

/-- What the reader of fields makes of one more line. -/
def readField (read : List (String × String) × Option Nat) (line : String) :
    Except ResponseFlaw (List (String × String) × Option Nat) :=
  match Text.cutAt ':' line with
  | none => .error (.badHeader line)
  | some (name, value) =>
    if Text.sameLetters (Text.trim name) "content-length" then
      .ok (read.1, Text.readNat 10 UInt64.size (Text.trim value))
    else .ok (read.1 ++ [(Text.trim name, Text.trim value)], read.2)

theorem readFields_eq (lines : List String) : readFields lines = lines.foldlM readField ([], none) := rfl

/-- The name of a field ends at its first colon, and has no blanks around it. -/
structure Named (name : String) : Prop where
  plain : ':' ∉ name.toList
  single : Text.Crlfless name
  trimmed : Text.trim name = name

theorem cutAt_field {name : String} (named : Named name) (value : String) :
    Text.cutAt ':' (name ++ ": " ++ value) = some (name, " " ++ value) := by
  have apart : name ++ ": " ++ value = name ++ .singleton ':' ++ (" " ++ value) :=
    String.toList_inj.mp (by simp [String.toList_append])
  rw [apart]
  exact Text.cutAt_first named.plain

theorem readField_fieldLine {field : String × String} (named : Named field.1) (own : isFraming field.1 = false)
    (read : List (String × String) × Option Nat) :
    readField read (fieldLine field) = .ok (read.1 ++ [(field.1, Text.trim field.2)], read.2) := by
  have other : Text.sameLetters field.1 "content-length" = false := (Bool.or_eq_false_iff.mp own).1
  simp only [readField, fieldLine, cutAt_field named, named.trimmed, other, Text.trim_blank, Bool.false_eq_true, if_false]

theorem foldlM_fieldLines (fields : List (String × String)) (named : ∀ field ∈ fields, Named field.1)
    (own : ∀ field ∈ fields, isFraming field.1 = false) (read : List (String × String) × Option Nat) :
    (fields.map fieldLine).foldlM readField read =
      .ok (read.1 ++ fields.map fun (name, value) => (name, Text.trim value), read.2) := by
  induction fields generalizing read with
  | nil => simp [pure, Except.pure]
  | cons field rest ih =>
    have first := readField_fieldLine (named field List.mem_cons_self) (own field List.mem_cons_self) read
    have later := ih (fun other member => named other (List.mem_cons_of_mem _ member))
      (fun other member => own other (List.mem_cons_of_mem _ member))
    rw [List.map_cons, List.foldlM_cons, first]
    simp [bind, Except.bind, later]

theorem readField_lengthLine (r : Response) (read : List (String × String) × Option Nat) :
    readField read r.lengthLine =
      .ok (read.1, if r.body.length < UInt64.size then some r.body.length else none) := by
  have named : Named "Content-Length" := ⟨by decide, by decide, by decide +kernel⟩
  have same : Text.sameLetters "Content-Length" "content-length" = true := by decide +kernel
  have spelled := Text.spells_toString r.body.length
  have solid : Text.Solid (toString r.body.length) := fun c member =>
    (Text.visible_of_digit (spelled.digits (by decide) (by decide) c member)).1
  have number : Text.readNat 10 UInt64.size (toString r.body.length) =
      if r.body.length < UInt64.size then some r.body.length else none := by
    rw [Text.readNat, Text.readNatChars_of_readDigits (Text.readDigits_spelled (by decide) (by decide) spelled),
      Option.filter_some]
    simp only [decide_eq_true_eq]
  simp only [readField, lengthLine_eq, cutAt_field named, named.trimmed, same, Text.trim_blank,
    Text.trim_eq_self solid.trimmed, number, if_true]

theorem readFields_fieldLines (names : ∀ field ∈ r.headers, Named field.1) : readFields r.fieldLines =
    .ok (r.ownFields.map fun (name, value) => (name, Text.trim value),
      if r.body.length < UInt64.size then some r.body.length else none) := by
  have own : ∀ field ∈ r.ownFields, isFraming field.1 = false := by
    intro field member
    simpa using (List.mem_filter.mp member).2
  have fields := foldlM_fieldLines r.ownFields (fun field member => names field (List.mem_filter.mp member).1) own ([], none)
  rw [readFields_eq, fieldLines, List.foldlM_append, fields]
  simp [bind, Except.bind, readField_lengthLine, pure, Except.pure]

/-- The response can be told from what is written of it. -/
structure Fits (r : Response) : Prop where
  status : r.status < UInt16.size
  reason : Text.Crlfless r.reason
  names : ∀ field ∈ r.headers, Named field.1
  values : ∀ field ∈ r.headers, Text.Crlfless field.2

theorem crlfless_toString (n : Nat) : Text.Crlfless (toString n) := by
  refine .of_notMem fun member => ?_
  have digit := (Text.spells_toString n).digits (by decide) (by decide) _ member
  exact absurd digit (by decide)

theorem Fits.crlfless (fits : r.Fits) : ∀ line ∈ r.statusLine :: r.fieldLines, Text.Crlfless line := by
  have field : ∀ name value : String, Text.Crlfless name → Text.Crlfless value → Text.Crlfless (name ++ ": " ++ value) := by
    intro name value first last
    have parts : (name ++ ": " ++ value).toList = name.toList ++ ':' :: ' ' :: value.toList := by simp
    rw [Text.Crlfless, parts]
    exact first.apart (last.prepend (s := [' ']) (by decide)) (by decide) (by decide)
  intro line member
  rcases List.mem_cons.mp member with rfl | later
  · have parts : r.statusLine.toList = "HTTP/1.1".toList ++ ' ' :: ((toString r.status).toList ++ ' ' :: r.reason.toList) := by
      simp [statusLine, toString]
    rw [Text.Crlfless, parts]
    have version : Text.Crlfless "HTTP/1.1" := by decide
    exact version.apart ((crlfless_toString r.status).apart fits.reason (by decide) (by decide)) (by decide) (by decide)
  rcases List.mem_append.mp later with own | length
  · obtain ⟨⟨name, value⟩, written, rfl⟩ := List.mem_map.mp own
    have kept := (List.mem_filter.mp written).1
    exact field name value (fits.names _ kept).single (fits.values _ kept)
  · obtain rfl := List.mem_singleton.mp length
    rw [lengthLine_eq]
    exact field _ _ (by decide) (crlfless_toString _)

theorem fieldLines_spoken (r : Response) : ∀ line ∈ r.fieldLines, line ≠ "" := by
  have colon : ∀ name value : String, name ++ ": " ++ value ≠ "" := by
    intro name value empty
    simp at empty
  intro line member
  rcases List.mem_append.mp member with own | length
  · obtain ⟨field, _, rfl⟩ := List.mem_map.mp own
    exact colon field.1 field.2
  · obtain rfl := List.mem_singleton.mp length
    rw [lengthLine_eq]
    exact colon _ _

theorem readHead_joinLines (fits : r.Fits) : readHead (Text.joinLines r.statusLine r.fieldLines) =
    .ok ({ status := r.status, reason := r.reason, headers := r.ownFields.map fun (name, value) => (name, Text.trim value) },
      if r.body.length < UInt64.size then some r.body.length else none) := by
  rw [readHead, Text.networkLines_joinLines fits.crlfless]
  simp only [readStatusLine_statusLine fits.status, readFields_fieldLines fits.names, bind, Except.bind, pure, Except.pure]

theorem cutAt_toBytes (fits : r.Fits) (more : Bytes) : Bytes.cutAt [0x0D, 0x0A, 0x0D, 0x0A] (r.toBytes ++ more) =
    some (Text.utf8 (Text.joinLines r.statusLine r.fieldLines), r.body ++ more) := by
  have break_ : Text.utf8 "\r\n\r\n" = [0x0D, 0x0A, 0x0D, 0x0A] := by decide
  have octets : r.toBytes ++ more = Text.utf8 r.statusLine ++ (r.fieldLines.map Text.utf8).flatMap (0x0D :: 0x0A :: ·) ++
      0x0D :: 0x0A :: 0x0D :: 0x0A :: (r.body ++ more) := by
    rw [toBytes, head_eq, Text.utf8_append, Text.utf8_joinLines, break_]
    simp
  have single : ∀ line ∈ Text.utf8 r.statusLine :: r.fieldLines.map Text.utf8, Parted 0x0D 0x0A line := by
    rw [← List.map_cons]
    intro line member
    obtain ⟨text, inside, rfl⟩ := List.mem_map.mp member
    exact Text.crlfless_utf8 (fits.crlfless text inside)
  have spoken : ∀ line ∈ r.fieldLines.map Text.utf8, line ≠ [] := by
    intro line member empty
    obtain ⟨text, inside, rfl⟩ := List.mem_map.mp member
    have told := Text.ofUtf8?_utf8 text
    rw [empty, ← Text.utf8_empty, Text.ofUtf8?_utf8] at told
    exact r.fieldLines_spoken text inside (Option.some.inj told).symm
  have cut := Bytes.cutAt_lines single spoken (r.body ++ more)
  rwa [← octets, ← Text.utf8_joinLines] at cut

/-- What is written is read back, without the fields that the writer leaves out, and with the values trimmed. Octets
that follow are ignored. -/
theorem ofBytes_toBytes (fits : r.Fits) {more : Bytes} (told : r.body.length < UInt64.size ∨ more = []) :
    ofBytes (r.toBytes ++ more) =
      .ok { r with headers := r.ownFields.map fun (name, value) => (name, Text.trim value) } := by
  rw [ofBytes, cutAt_toBytes fits]
  simp only [Text.ofUtf8?_utf8, readHead_joinLines fits, bind, Except.bind, pure, Except.pure]
  split
  next unread =>
    split at unread
    · cases unread
    next large =>
      rw [told.resolve_left large, List.append_nil]
  next length read =>
    split at read
    · cases read
      simp
    · cases read

end Http.Response

end ToolBridge

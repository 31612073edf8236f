import ToolBridge.Proofs.TakenRequests

/-! The reader in 64-bit words. Lines are taken off no further than one octet beyond the budget, and a sum that does not
fit a word, a difference below zero or a place outside a body stops it; none of these happens, so that it is the same
reader. -/

namespace ToolBridge.Http.Words

def add (a b : Nat) : Option Nat := if a + b < UInt64.size then some (a + b) else none

def sub (a b : Nat) : Option Nat := if b ≤ a then some (a - b) else none

theorem add_eq_some {a b : Nat} (fits : a + b < UInt64.size) : add a b = some (a + b) := if_pos fits

theorem sub_eq_some {a b : Nat} (fits : b ≤ a) : sub a b = some (a - b) := if_pos fits

/-- What lies up to a line feed, or up to one octet more than the budget has. -/
def readLine (budget : Nat) (input : Bytes) : Option Line :=
  (add budget 1).bind fun most =>
    let octets := (firstLine input).take most
    if octets = [] then some .absent
    else if budget < octets.length then some (.refused .headersTooLarge)
    else (sub budget octets.length).bind fun left =>
      if octets.getLast? = some 0x0A then
        match Text.ofUtf8? (withoutEndCr octets.dropLast) with
        | some text => some (.line text left (input.drop octets.length))
        | none => some (.refused (.malformedRequest .notText))
      else some .started

theorem readLine_shorter {budget left : Nat} {input rest : Bytes} {text : String}
    (read : readLine budget input = some (.line text left rest)) : rest.length < input.length := by
  obtain ⟨most, _, read⟩ := Option.bind_eq_some_iff.mp read
  dsimp only at read
  split at read
  · cases read
  next some_ =>
    split at read
    · cases read
    obtain ⟨charged, _, read⟩ := Option.bind_eq_some_iff.mp read
    split at read
    · split at read
      · cases read
        have taken := List.length_pos_iff.mpr some_
        have whole : 0 < input.length := by
          refine List.length_pos_iff.mpr fun none_ => ?_
          rw [none_, firstLine_nil, List.take_nil] at some_
          exact some_ rfl
        rw [List.length_drop]
        omega
      · cases read
    · cases read

/-- The octet beyond the budget tells a line that is too long from one that just fits. -/
theorem readLine_eq {budget : Nat} (small : budget + 1 < UInt64.size) (input : Bytes) :
    readLine budget input = some (Http.readLine budget input) := by
  rw [readLine, add_eq_some small, Option.bind_some]
  by_cases beyond : budget < (firstLine input).length
  · have most : ((firstLine input).take (budget + 1)).length = budget + 1 := by
      rw [List.length_take]
      omega
    rw [Http.readLine_long beyond]
    dsimp only
    rw [if_neg (List.ne_nil_of_length_pos (by omega)), if_pos (by omega)]
  · have plain : 0x0A ∉ input.takeWhile (· != 0x0A) := fun feed => absurd (List.mem_takeWhile_imp feed) (by decide)
    have whole := List.takeWhile_append_dropWhile (p := (· != 0x0A)) (l := input)
    have feed : ∀ b ∈ (input.dropWhile (· != 0x0A)).head?, b = 0x0A := by
      intro b first
      have ends := List.head?_dropWhile_not (· != (0x0A : UInt8)) input
      rw [Option.mem_def.mp first] at ends
      simpa using ends
    dsimp only
    rw [List.take_of_length_le (by omega), if_neg beyond, sub_eq_some (Nat.not_lt.mp beyond), Option.bind_some, Http.readLine]
    unfold firstLine at beyond ⊢
    generalize input.takeWhile (· != 0x0A) = octets at beyond plain whole ⊢
    generalize input.dropWhile (· != 0x0A) = after at beyond feed whole ⊢
    cases after with
    | nil =>
      rw [List.take_nil, List.append_nil] at beyond ⊢
      have unended : octets.getLast? ≠ some 0x0A := fun ends => plain (List.mem_of_getLast? ends)
      rw [if_neg unended]
      dsimp only
      rw [if_neg beyond]
      cases octets <;> rfl
    | cons b tail =>
      obtain rfl : b = 0x0A := feed b rfl
      have line : octets ++ (0x0A :: tail).take 1 = octets ++ [0x0A] := rfl
      rw [line] at beyond ⊢
      rw [List.length_append, List.length_singleton] at beyond ⊢
      have rest : input.drop (octets.length + 1) = tail := by
        rw [← whole, List.append_cons]
        exact List.drop_left' List.length_append
      rw [if_neg (by simp), List.getLast?_concat, if_pos rfl, List.dropLast_concat, rest]
      dsimp only
      rw [if_neg beyond]
      cases Text.ofUtf8? (withoutEndCr octets) <;> rfl

def check {α β : Type} (part : Except RequestFlaw β) (next : β → Option (Reading α)) : Option (Reading α) :=
  match part with
  | .ok value => next value
  | .error flaw => some (.malformed flaw)

def readFirstLine (budget : Nat) (input : Bytes) : Option (Reading (Option (RequestLine × Nat))) :=
  match _h : readLine budget input with
  | none => none
  | some .absent => some (.more (.ok none))
  | some .started => some (.unlessMore .unterminatedLine)
  | some (.refused fault) => some (.refused fault)
  | some (.line text left rest) =>
    if text = "" then readFirstLine left rest
    else some (.check (readRequestLine text) fun line => .done (some (line, left)) rest)
termination_by input.length
decreasing_by exact readLine_shorter (by assumption)

def readHeaders (fields : Fields) (budget : Nat) (input : Bytes) : Option (Reading Fields) :=
  match _h : readLine budget input with
  | none => none
  | some .absent => some (.unlessMore .endInHeaders)
  | some .started => some (.unlessMore .unterminatedLine)
  | some (.refused fault) => some (.refused fault)
  | some (.line text left rest) =>
    if text = "" then some (.done fields rest)
    else check (readHeader text fields) fun fields => readHeaders fields left rest
termination_by input.length
decreasing_by exact readLine_shorter (by assumption)

def readTrailers (budget : Nat) (input : Bytes) : Option (Reading Unit) :=
  match _h : readLine budget input with
  | none => none
  | some .absent => some (.more (.ok ()))
  | some .started => some (.unlessMore .unterminatedLine)
  | some (.refused fault) => some (.refused fault)
  | some (.line text left rest) => if text = "" then some (.done () rest) else readTrailers left rest
termination_by input.length
decreasing_by exact readLine_shorter (by assumption)

/-- The sum is a checked one: what does not fit a word is beyond any limit. Else the body grows to where the chunk ends,
and the chunk is read into the place from where the body ended before. -/
def readChunk (limit : Nat) (body : Bytes) (size : Nat) (rest : Bytes) : Option (Reading Bytes) :=
  match (add body.length size).filter (· ≤ limit) with
  | none => some (.refused (.bodyTooLarge limit))
  | some most =>
    (sub most body.length).map fun place =>
      match rest.drop place with
      | a :: b :: after =>
        if a == 0x0D && b == 0x0A then .done (body ++ rest.take place) after else .malformed .chunkWithoutBreak
      | _ => .unlessMore .shortBody

theorem readChunk_shorter {limit size : Nat} {body grown rest after : Bytes}
    (read : readChunk limit body size rest = some (.done grown after)) : after.length ≤ rest.length := by
  unfold readChunk at read
  split at read
  · cases read
  · obtain ⟨place, _, read⟩ := Option.map_eq_some_iff.mp read
    split at read
    next a b left dropped =>
      split at read
      · cases read
        have shorter := congrArg List.length dropped
        simp only [List.length_drop, List.length_cons] at shorter
        omega
      · cases read
    · cases read

def readChunks (limit : Nat) (body : Bytes) (budget : Nat) (input : Bytes) : Option (Reading Bytes) :=
  match _h : readLine budget input with
  | none => none
  | some .absent => some (.unlessMore .endInChunks)
  | some .started => some (.unlessMore .unterminatedLine)
  | some (.refused fault) => some (.refused fault)
  | some (.line text left rest) =>
    check (readChunkSize text) fun size =>
      if size = 0 then (readTrailers left rest).map fun read => read.map fun _ => body
      else match _c : readChunk limit body size rest with
        | none => none
        | some (.done grown after) => readChunks limit grown left after
        | some (.refused fault) => some (.refused fault)
        | some (.more atEnd) => some (.more atEnd)
termination_by input.length
decreasing_by exact Nat.lt_of_le_of_lt (readChunk_shorter (by assumption)) (readLine_shorter (by assumption))

def readBody (limit : Nat) (fields : Fields) (input : Bytes) : Option (Reading Bytes) :=
  if isChunked fields then readChunks limit [] headLimit input else some (readSizedBody limit fields input)

def chain {α β : Type} (first : Option (Reading α)) (next : α → Bytes → Option (Reading β)) : Option (Reading β) :=
  first.bind fun read =>
    match read with
    | .done value rest => next value rest
    | .refused fault => some (.refused fault)
    | .more (.ok value) => (next value []).map fun last => .more last.atEnd
    | .more (.error fault) => some (.more (.error fault))

def readRequest (limit : Nat) (input : Bytes) : Option (Reading (Option Request)) :=
  chain (readFirstLine headLimit input) fun first rest =>
    match first with
    | none => some (.done none rest)
    | some (line, budget) =>
      chain (readHeaders [] budget rest) fun fields rest =>
        (readBody limit fields rest).map fun read => read.map fun body =>
          let (path, query) := splitTarget line.target
          some { method := line.method, path, query, version := line.version, headers := fields, body }

/-! ## Nothing leaves its bounds -/

section
variable {budget left : Nat} {input rest : Bytes} {text : String} {line : Line}

theorem readLine_of (small : budget + 1 < UInt64.size) (read : Http.readLine budget input = line) :
    readLine budget input = some line := by
  rw [readLine_eq small, read]

/-- Budgets only go down. -/
theorem small_left (small : budget + 1 < UInt64.size) (read : Http.readLine budget input = .line text left rest) :
    left + 1 < UInt64.size := by
  have spent := readLine_budget read
  omega

theorem check_eq {α β : Type} {part : Except RequestFlaw β} {next : β → Option (Reading α)} {plain : β → Reading α}
    (goes : ∀ value, part = .ok value → next value = some (plain value)) :
    check part next = some (.check part plain) := by
  cases part with
  | error flaw => rfl
  | ok value => exact goes value rfl

theorem readTrailers_eq (small : budget + 1 < UInt64.size) :
    readTrailers budget input = some (Http.readTrailers budget input) := by
  fun_induction Http.readTrailers budget input with
  | case1 budget input read | case2 budget input read | case3 budget input fault read
  | case4 budget input left rest read =>
    have same := readLine_of small read
    rw [readTrailers]
    split <;> simp_all
  | case5 budget input text left rest read spoken ih =>
    have same := readLine_of small read
    have later := ih (small_left small read)
    rw [readTrailers]
    split <;> simp_all

theorem readHeaders_eq {fields : Fields} (small : budget + 1 < UInt64.size) :
    readHeaders fields budget input = some (Http.readHeaders fields budget input) := by
  fun_induction Http.readHeaders fields budget input with
  | case1 fields budget input read | case2 fields budget input read | case3 fields budget input fault read
  | case4 fields budget input left rest read =>
    have same := readLine_of small read
    rw [readHeaders]
    split <;> simp_all
  | case5 fields budget input text left rest read spoken ih =>
    have same := readLine_of small read
    rw [readHeaders]
    split
    · simp_all
    · simp_all
    · simp_all
    · simp_all
    next read' =>
      obtain ⟨rfl, rfl, rfl⟩ := by simpa using same.symm.trans read'
      rw [if_neg spoken]
      exact check_eq fun fields _ => ih fields (small_left small read)

/-- A chunk ends beyond the limit just if the sum does not fit a word or is beyond the limit. -/
theorem readChunk_eq {limit : Nat} (word : limit < UInt64.size) (body : Bytes) (size : Nat) (rest : Bytes) :
    readChunk limit body size rest =
      some (if body.length + size > limit then .refused (.bodyTooLarge limit)
        else match rest.drop size with
          | a :: b :: after =>
            if a == 0x0D && b == 0x0A then .done (body ++ rest.take size) after else .malformed .chunkWithoutBreak
          | _ => .unlessMore .shortBody) := by
  unfold readChunk
  split
  next untold =>
    have beyond : body.length + size > limit := by
      by_contra within
      rw [add_eq_some (by omega), Option.filter_some_pos (by simpa using within)] at untold
      cases untold
    rw [if_pos beyond]
  next most told =>
    obtain ⟨sum, within⟩ := Option.filter_eq_some_iff.mp told
    unfold add at sum
    split at sum
    · cases sum
      rw [if_neg (by simpa using within), sub_eq_some (Nat.le_add_right _ _), Nat.add_sub_cancel_left]
      rfl
    · cases sum

theorem readChunks_line {limit : Nat} {body : Bytes} (same : readLine budget input = some (.line text left rest)) :
    readChunks limit body budget input =
      check (readChunkSize text) fun size =>
        if size = 0 then (readTrailers left rest).map fun read => read.map fun _ => body
        else match readChunk limit body size rest with
          | none => none
          | some (.done grown after) => readChunks limit grown left after
          | some (.refused fault) => some (.refused fault)
          | some (.more atEnd) => some (.more atEnd) := by
  rw [readChunks]
  split
  · simp_all
  · simp_all
  · simp_all
  · simp_all
  next read' =>
    obtain ⟨rfl, rfl, rfl⟩ := by simpa using same.symm.trans read'
    congr 1
    funext size
    split
    · rfl
    · split <;> simp_all

theorem readChunks_eq {limit length : Nat} {taken : Bytes} (word : limit < UInt64.size) (counted : taken.length = length)
    (small : budget + 1 < UInt64.size) :
    readChunks limit taken.reverse budget input = some (Http.readChunks limit length taken budget input) := by
  induction length, taken, budget, input using Http.readChunks.induct limit with
  | case1 length taken budget input read | case2 length taken budget input read
  | case3 length taken budget input fault read =>
    have same := readLine_of small read
    rw [readChunks, Http.readChunks]
    split <;> split <;> simp_all
  | case4 length taken budget input text left rest read ih =>
    rw [readChunks_line (readLine_of small read), Http.readChunks_line read]
    refine check_eq fun size _ => ?_
    rw [readTrailers_eq (small_left small read), readChunk_eq word, List.length_reverse, counted]
    by_cases final : size = 0
    · rw [if_pos final, if_pos final]
      rfl
    by_cases beyond : length + size > limit
    · simp only [if_neg final, if_pos beyond]
    simp only [if_neg final, if_neg beyond]
    rcases dropped : rest.drop size with _ | ⟨a, _ | ⟨b, after⟩⟩
    · rfl
    · rfl
    by_cases ends : (a == 0x0D && b == 0x0A) = true
    · have inside := congrArg List.length dropped
      rw [List.length_drop, List.length_cons] at inside
      have collected : (rest.take size).reverseAux taken = (rest.take size).reverse ++ taken := List.reverseAux_eq
      have grown : ((rest.take size).reverseAux taken).length = length + size := by
        rw [collected, List.length_append, List.length_reverse, List.length_take]
        omega
      have later := ih size a b after dropped grown (small_left small read)
      rw [collected, List.reverse_append, List.reverse_reverse] at later
      simpa only [if_pos ends, collected] using later
    · simp only [if_neg ends]
      rfl

theorem readFirstLine_eq (small : budget + 1 < UInt64.size) :
    readFirstLine budget input = some (Http.readFirstLine budget input) := by
  fun_induction Http.readFirstLine budget input with
  | case1 budget input read | case2 budget input read | case3 budget input fault read =>
    have same := readLine_of small read
    rw [readFirstLine]
    split <;> simp_all
  | case4 budget input left rest read ih =>
    have same := readLine_of small read
    have later := ih (small_left small read)
    rw [readFirstLine]
    split <;> simp_all
  | case5 budget input text left rest read spoken =>
    have same := readLine_of small read
    rw [readFirstLine]
    split <;> simp_all

end

theorem small_head : headLimit + 1 < UInt64.size := by decide

theorem readBody_eq {limit : Nat} (word : limit < UInt64.size) (fields : Fields) (input : Bytes) :
    readBody limit fields input = some (Http.readBody limit fields input) := by
  unfold readBody Http.readBody
  split
  · change readChunks limit ([] : Bytes).reverse headLimit input = some (Http.readChunks limit 0 [] headLimit input)
    exact readChunks_eq word rfl small_head
  · rfl

theorem chain_eq {α β : Type} {first : Option (Reading α)} {read : Reading α} {next : α → Bytes → Option (Reading β)}
    {plain : α → Bytes → Reading β} (same : first = some read)
    (goes : ∀ value rest, read.Returns value rest → next value rest = some (plain value rest)) :
    chain first next = some (read.bind plain) := by
  subst same
  rcases read with ⟨value, rest⟩ | fault | (fault | value)
  · exact goes value rest (.inl rfl)
  · rfl
  · rfl
  · rw [chain, Option.bind_some]
    dsimp only
    rw [goes value [] (.inr ⟨rfl, rfl⟩)]
    rfl

theorem readFirstLine_left {budget left : Nat} {input rest : Bytes} {line : RequestLine}
    (returned : (Http.readFirstLine budget input).Returns (some (line, left)) rest) : left ≤ budget := by
  have comes := readFirstLine_comes budget input
  rcases returned with read | ⟨read, _⟩
  · rw [read] at comes
    cases comes with
    | done holds =>
      obtain ⟨_, _, _, _, found, _, _, paid⟩ := holds
      cases found
      omega
  · rw [read] at comes
    cases comes with
    | ended none_ => cases none_

/-- The reader in words is the reader, so it never stops for want of room in a word. -/
theorem readRequest_eq {limit : Nat} (word : limit < UInt64.size) (input : Bytes) :
    readRequest limit input = some (Http.readRequest limit input) := by
  refine chain_eq (readFirstLine_eq small_head) fun first rest returned => ?_
  cases first with
  | none => rfl
  | some begun =>
    obtain ⟨line, budget⟩ := begun
    have small : budget + 1 < UInt64.size := by
      have within := small_head
      have left := readFirstLine_left returned
      omega
    refine chain_eq (readHeaders_eq small) fun fields rest _ => ?_
    rw [readBody_eq word]
    rfl

end ToolBridge.Http.Words

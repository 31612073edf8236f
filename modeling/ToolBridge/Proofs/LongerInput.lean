import ToolBridge.Proofs.Pipelining

/-! Input that goes on. What some octets decide stays decided when more of them come: a request that has been read
is read again, with what came after it left over, and so is what is wrong with one. The requests of an input can so be
told one by one while it still grows. -/

namespace ToolBridge.Http

/-- What the reading of some octets can become once `more` of them have come. -/
inductive Reading.Extends {α : Type} (more : Bytes) : Reading α → Reading α → Prop where
  | done (value : α) (rest : Bytes) : Extends more (.done value rest) (.done value (rest ++ more))
  | refused (fault : Fault) : Extends more (.refused fault) (.refused fault)
  /-- What was undecided may turn out in any way. -/
  | undecided (atEnd : Except Fault α) (later : Reading α) : Extends more (.more atEnd) later

namespace Reading.Extends
variable {α β : Type} {more : Bytes} {r later : Reading α}

theorem bind {next : α → Bytes → Reading β} (extends_ : Extends more r later)
    (goes : ∀ value rest, Extends more (next value rest) (next value (rest ++ more))) :
    Extends more (r.bind next) (later.bind next) := by
  cases extends_ with
  | done value rest => exact goes value rest
  | refused fault => exact .refused fault
  | undecided atEnd later => cases atEnd <;> exact .undecided _ _

theorem map (extends_ : Extends more r later) (f : α → β) : Extends more (r.map f) (later.map f) :=
  extends_.bind fun value rest => .done (f value) rest

theorem check {part : Except RequestFlaw β} {next after : β → Reading α}
    (goes : ∀ value, Extends more (next value) (after value)) : Extends more (.check part next) (.check part after) := by
  cases part with
  | error flaw => exact .refused _
  | ok value => exact goes value

theorem of_done {value : α} {rest : Bytes} (extends_ : Extends more r later) (read : r = .done value rest) :
    later = .done value (rest ++ more) := by
  subst read
  cases extends_
  rfl

theorem of_refused {fault : Fault} (extends_ : Extends more r later) (read : r = .refused fault) :
    later = .refused fault := by
  subst read
  cases extends_
  rfl

end Reading.Extends

section
variable {budget left limit length : Nat} {input rest taken : Bytes} {text : String} {fault : Fault} {fields : Fields}
  (more : Bytes)

theorem readLine_longer (read : readLine budget input = .line text left rest) :
    readLine budget (input ++ more) = .line text left (rest ++ more) := by
  simp only [readLine, List.takeWhile_append, List.dropWhile_append] at read ⊢
  split at read
  · split at read
    · cases read
    · split at read <;> cases read
  next b tail cut =>
    have shorter : (input.takeWhile (· != 0x0A)).length ≠ input.length := by
      have whole := congrArg List.length (List.takeWhile_append_dropWhile (p := (· != 0x0A)) (l := input))
      rw [cut, List.length_append, List.length_cons] at whole
      omega
    simp only [if_neg shorter, cut, List.isEmpty_cons, Bool.false_eq_true, if_false, List.cons_append]
    split at read
    · cases read
    next paid =>
      rw [if_neg paid]
      split at read
      · cases read
        rfl
      · cases read

theorem readLine_refused_longer (read : readLine budget input = .refused fault) :
    readLine budget (input ++ more) = .refused fault := by
  simp only [readLine, List.takeWhile_append, List.dropWhile_append] at read ⊢
  have whole := congrArg List.length (List.takeWhile_append_dropWhile (p := (· != 0x0A)) (l := input))
  rw [List.length_append] at whole
  split at read
  next cut =>
    -- The budget is spent before the line has ended, so it is spent wherever the line ends.
    rw [cut, List.length_nil, Nat.add_zero] at whole
    simp only [whole, if_true, cut, List.isEmpty_nil]
    split at read
    next spent =>
      cases read
      split
      · rw [if_pos (by rw [List.length_append]; omega)]
      · rw [if_pos (by rw [List.length_append]; omega)]
    · split at read <;> cases read
  next b tail cut =>
    rw [cut, List.length_cons] at whole
    simp only [if_neg (show (input.takeWhile (· != 0x0A)).length ≠ input.length by omega), cut, List.isEmpty_cons,
      Bool.false_eq_true, if_false, List.cons_append]
    split at read
    next spent => rw [if_pos spent, read]
    next paid =>
      rw [if_neg paid]
      split at read
      · cases read
      next untold => simp only [read]

theorem readRequest_long {l : SentLine} (long : headLimit < l.bytes.length) (limit : Nat) (rest : Bytes) :
    readRequest limit (l.bytes ++ rest) = .refused .headersTooLarge := by
  have read := readLine_sent headLimit l rest
  rw [if_neg (Nat.not_le.mpr long)] at read
  rw [readRequest, readFirstLine_refused read]
  rfl

theorem readHeaders_extends (fields : Fields) (budget : Nat) (input : Bytes) :
    (readHeaders fields budget input).Extends more (readHeaders fields budget (input ++ more)) := by
  fun_induction readHeaders fields budget input with
  | case1 => exact .undecided _ _
  | case2 => exact .undecided _ _
  | case3 fields budget input fault read =>
    rw [readHeaders_refused (readLine_refused_longer more read)]
    exact .refused fault
  | case4 fields budget input left rest read =>
    rw [readHeaders_line (readLine_longer more read), if_pos rfl]
    exact .done fields rest
  | case5 fields budget input text left rest read spoken ih =>
    rw [readHeaders_line (readLine_longer more read), if_neg spoken]
    exact .check ih

theorem readFirstLine_extends (budget : Nat) (input : Bytes) :
    (readFirstLine budget input).Extends more (readFirstLine budget (input ++ more)) := by
  fun_induction readFirstLine budget input with
  | case1 => exact .undecided _ _
  | case2 => exact .undecided _ _
  | case3 budget input fault read =>
    rw [readFirstLine_refused (readLine_refused_longer more read)]
    exact .refused fault
  | case4 budget input left rest read ih =>
    rw [readFirstLine_line (readLine_longer more read), if_pos rfl]
    exact ih
  | case5 budget input text left rest read spoken =>
    rw [readFirstLine_line (readLine_longer more read), if_neg spoken]
    exact .check fun line => .done _ rest

theorem readTrailers_extends (budget : Nat) (input : Bytes) :
    (readTrailers budget input).Extends more (readTrailers budget (input ++ more)) := by
  fun_induction readTrailers budget input with
  | case1 => exact .undecided _ _
  | case2 => exact .undecided _ _
  | case3 budget input fault read =>
    rw [readTrailers_refused (readLine_refused_longer more read)]
    exact .refused fault
  | case4 budget input left rest read =>
    rw [readTrailers_line (readLine_longer more read), if_pos rfl]
    exact .done () rest
  | case5 budget input text left rest read spoken ih =>
    rw [readTrailers_line (readLine_longer more read), if_neg spoken]
    exact ih

theorem readChunks_line (read : readLine budget input = .line text left rest) :
    readChunks limit length taken budget input =
      .check (readChunkSize text) fun size =>
        if size = 0 then (readTrailers left rest).map fun _ => taken.reverse
        else if length + size > limit then .refused (.bodyTooLarge limit)
        else match rest.drop size with
          | a :: b :: after =>
            if a == 0x0D && b == 0x0A then readChunks limit (length + size) ((rest.take size).reverseAux taken) left after
            else .malformed .chunkWithoutBreak
          | _ => .unlessMore .shortBody := by
  rw [readChunks]
  split
  · simp_all
  · simp_all
  · simp_all
  next read' =>
    obtain ⟨rfl, rfl, rfl⟩ := by simpa using read.symm.trans read'
    congr 1
    funext size
    split
    · rfl
    split
    · rfl
    split
    next dropped => rw [dropped]
    next short =>
      split
      next dropped => exact (short _ _ _ dropped).elim
      next => rfl

theorem readChunks_extends (limit length : Nat) (taken : Bytes) (budget : Nat) (input : Bytes) :
    (readChunks limit length taken budget input).Extends more
      (readChunks limit length taken budget (input ++ more)) := by
  fun_induction readChunks limit length taken budget input with
  | case1 => exact .undecided _ _
  | case2 => exact .undecided _ _
  | case3 length taken budget input fault read =>
    rw [readChunks_refused (readLine_refused_longer more read)]
    exact .refused fault
  | case4 length taken budget input text left rest read ih =>
    rw [readChunks_line (readLine_longer more read)]
    refine .check fun size => ?_
    split
    · exact (readTrailers_extends more left rest).map _
    split
    · exact .refused _
    split
    next a b after dropped =>
      have inside : size ≤ rest.length := by
        by_contra beyond
        rw [List.drop_of_length_le (by omega)] at dropped
        cases dropped
      rw [List.drop_append_of_le_length inside, dropped, List.take_append_of_le_length inside]
      dsimp only [List.cons_append]
      split
      · exact ih size a b after dropped
      · exact .refused _
    · exact .undecided _ _

theorem readSizedBody_extends (limit : Nat) (fields : Fields) (input : Bytes) :
    (readSizedBody limit fields input).Extends more (readSizedBody limit fields (input ++ more)) := by
  refine .check fun length => ?_
  dsimp only
  split
  · exact .refused _
  split
  · exact .undecided _ _
  next enough =>
    have inside : length ≤ input.length := by
      rw [List.length_take] at enough
      omega
    rw [List.take_append_of_le_length inside, if_neg enough, List.drop_append_of_le_length inside]
    exact .done _ _

theorem readBody_extends (limit : Nat) (fields : Fields) (input : Bytes) :
    (readBody limit fields input).Extends more (readBody limit fields (input ++ more)) := by
  unfold readBody
  split
  · exact readChunks_extends more limit 0 [] headLimit input
  · exact readSizedBody_extends more limit fields input

/-- What has been decided about the first request stays so, whatever comes. -/
theorem readRequest_extends (limit : Nat) (input : Bytes) :
    (readRequest limit input).Extends more (readRequest limit (input ++ more)) := by
  refine (readFirstLine_extends more headLimit input).bind fun first rest => ?_
  cases first with
  | none => exact .done none rest
  | some begun =>
    obtain ⟨line, budget⟩ := begun
    exact (readHeaders_extends more [] budget rest).bind fun fields rest => (readBody_extends more limit fields rest).map _

end

/-! ## A request takes octets off the input -/

namespace Reading
variable {α β : Type} {r : Reading α} {input : Bytes}

def Within (input : Bytes) (r : Reading α) : Prop := ∀ value rest, r = .done value rest → rest.length ≤ input.length

theorem of_bind {next : α → Bytes → Reading β} {value : β} {rest : Bytes} (read : r.bind next = .done value rest) :
    ∃ first middle, r = .done first middle ∧ next first middle = .done value rest := by
  cases r with
  | done first middle => exact ⟨first, middle, rfl, read⟩
  | refused fault => cases read
  | more atEnd => cases atEnd <;> cases read

theorem of_map {f : α → β} {value : β} {rest : Bytes} (read : r.map f = .done value rest) :
    ∃ first, r = .done first rest ∧ value = f first := by
  obtain ⟨first, middle, before, after⟩ := of_bind read
  cases after
  exact ⟨first, before, rfl⟩

theorem Within.map (within : r.Within input) (f : α → β) : (r.map f).Within input := by
  intro value rest read
  obtain ⟨first, before, _⟩ := of_map read
  exact within first rest before

theorem Within.check {part : Except RequestFlaw β} {next : β → Reading α} (goes : ∀ value, (next value).Within input) :
    (Reading.check part next).Within input := by
  cases part with
  | error flaw => intro _ _ read; cases read
  | ok value => exact goes value

theorem Within.longer {more : Bytes} (within : r.Within input) (longer : input.length ≤ more.length) : r.Within more :=
  fun value rest read => Nat.le_trans (within value rest read) longer

theorem Within.of_line {budget left : Nat} {rest : Bytes} {text : String} (within : r.Within rest)
    (read : readLine budget input = .line text left rest) : r.Within input :=
  within.longer (Nat.le_of_lt (readLine_length read))

theorem within_done (value : α) (rest : Bytes) : (Reading.done value rest).Within rest := by
  intro _ _ read
  cases read
  exact Nat.le_refl _

theorem within_more (atEnd : Except Fault α) : (Reading.more atEnd).Within input := by
  intro _ _ read
  cases read

theorem within_refused (fault : Fault) : (Reading.refused (α := α) fault).Within input := by
  intro _ _ read
  cases read

end Reading

section
variable (limit budget : Nat) (fields : Fields) (input : Bytes)

theorem readHeaders_within : (readHeaders fields budget input).Within input := by
  fun_induction readHeaders fields budget input with
  | case1 => exact Reading.within_more _
  | case2 => exact Reading.within_more _
  | case3 => exact Reading.within_refused _
  | case4 fields budget input left rest read => exact (Reading.within_done fields rest).of_line read
  | case5 fields budget input text left rest read spoken ih => exact .check fun fields => (ih fields).of_line read

theorem readTrailers_within : (readTrailers budget input).Within input := by
  fun_induction readTrailers budget input with
  | case1 => exact Reading.within_more _
  | case2 => exact Reading.within_more _
  | case3 => exact Reading.within_refused _
  | case4 budget input left rest read => exact (Reading.within_done () rest).of_line read
  | case5 budget input text left rest read spoken ih => exact ih.of_line read

theorem readChunks_within (length : Nat) (taken : Bytes) : (readChunks limit length taken budget input).Within input := by
  fun_induction readChunks limit length taken budget input with
  | case1 => exact Reading.within_more _
  | case2 => exact Reading.within_more _
  | case3 => exact Reading.within_refused _
  | case4 length taken budget input text left rest read ih =>
    refine .check fun size => ?_
    split
    · exact ((readTrailers_within left rest).map _).of_line read
    split
    · exact Reading.within_refused _
    split
    next a b after dropped =>
      split
      · have shorter := congrArg List.length dropped
        simp only [List.length_drop, List.length_cons] at shorter
        exact ((ih size a b after dropped).longer (by omega)).of_line read
      · exact Reading.within_refused _
    · exact Reading.within_more _

theorem readBody_within : (readBody limit fields input).Within input := by
  unfold readBody
  split
  · exact readChunks_within limit headLimit input 0 []
  · refine .check fun length => ?_
    dsimp only
    split
    · exact Reading.within_refused _
    split
    · exact Reading.within_more _
    · exact (Reading.within_done _ _).longer (by rw [List.length_drop]; omega)

end

theorem readFirstLine_length {budget : Nat} {input rest : Bytes} {first : Option (RequestLine × Nat)}
    (read : readFirstLine budget input = .done first rest) : first ≠ none ∧ rest.length < input.length := by
  fun_induction readFirstLine budget input with
  | case1 => cases read
  | case2 => cases read
  | case3 => cases read
  | case4 budget input left rest line ih =>
    obtain ⟨some_, shorter⟩ := ih read
    exact ⟨some_, Nat.lt_trans shorter (readLine_length line)⟩
  | case5 budget input text left after line spoken =>
    cases request : readRequestLine text with
    | error flaw => rw [request] at read; cases read
    | ok parsed =>
      rw [request] at read
      cases read
      exact ⟨Option.some_ne_none _, readLine_length line⟩

/-- Reading ends at a request, and not without octets of its own. -/
theorem readRequest_length {limit : Nat} {input rest : Bytes} {found : Option Request}
    (read : readRequest limit input = .done found rest) : (∃ r, found = some r) ∧ rest.length < input.length := by
  obtain ⟨first, middle, begun, later⟩ := Reading.of_bind read
  obtain ⟨some_, shorter⟩ := readFirstLine_length begun
  obtain ⟨⟨line, budget⟩, rfl⟩ := Option.ne_none_iff_exists'.mp some_
  obtain ⟨fields, body, headed, last⟩ := Reading.of_bind later
  obtain ⟨octets, bodied, rfl⟩ := Reading.of_map last
  have head := readHeaders_within budget [] middle fields body headed
  have tail := readBody_within limit fields body octets rest bodied
  exact ⟨⟨_, rfl⟩, by omega⟩

/-! ## The requests of an input -/

theorem readAllRequests_enough {limit bound other : Nat} {input : Bytes} (enough : input.length < bound)
    (also : input.length < other) : readAllRequests limit bound input = readAllRequests limit other input := by
  induction bound generalizing other input with
  | zero => exact absurd enough (Nat.not_lt_zero _)
  | succ bound ih =>
    obtain ⟨other, rfl⟩ := Nat.exists_eq_succ_of_ne_zero (Nat.ne_of_gt (Nat.zero_lt_of_lt also))
    rw [readAllRequests, readAllRequests]
    cases read : readRequest limit input with
    | refused fault => rfl
    | more atEnd => rcases atEnd with fault | _ | r <;> rfl
    | done found rest =>
      obtain ⟨⟨r, rfl⟩, shorter⟩ := readRequest_length read
      dsimp only
      rw [ih (by omega) (show rest.length < other by omega)]

section
variable {limit : Nat} {input rest : Bytes} {r : Request} {fault : Fault}

theorem requestsOf_done (read : readRequest limit input = .done (some r) rest) :
    requestsOf limit input = (r :: (requestsOf limit rest).1, (requestsOf limit rest).2) := by
  have shorter := (readRequest_length read).2
  rw [requestsOf, readAllRequests, read]
  dsimp only
  rw [readAllRequests_enough shorter (Nat.lt_succ_self rest.length)]
  rfl

theorem requestsOf_refused (read : readRequest limit input = .refused fault) :
    requestsOf limit input = ([], some fault) := by
  rw [requestsOf, readAllRequests, read]

theorem requestsOf_ended (read : readRequest limit input = .more (.ok none)) : requestsOf limit input = ([], none) := by
  rw [requestsOf, readAllRequests, read]

theorem requestsOf_last (read : readRequest limit input = .more (.ok (some r))) :
    requestsOf limit input = ([r], none) := by
  rw [requestsOf, readAllRequests, read]

theorem requestsOf_cut (read : readRequest limit input = .more (.error fault)) :
    requestsOf limit input = ([], some fault) := by
  rw [requestsOf, readAllRequests, read]

end

/-- The requests read off an input one after the other, and what is left then. The last may end with the input, if
nothing more can come. -/
inductive Taken (limit : Nat) (complete : Prop) : Bytes → List Request → Bytes → Prop where
  | none (input : Bytes) : Taken limit complete input [] input
  | next {input rest left : Bytes} {r : Request} {later : List Request}
      (read : readRequest limit input = .done (some r) rest) (taken : Taken limit complete rest later left) :
      Taken limit complete input (r :: later) left
  | last {input : Bytes} {r : Request} (ended : complete) (read : readRequest limit input = .more (.ok (some r))) :
      Taken limit complete input [r] []

namespace Taken
variable {limit : Nat} {complete : Prop} {input left : Bytes} {requests : List Request}

theorem requestsOf_eq (taken : Taken limit complete input requests left) :
    requestsOf limit input = (requests ++ (requestsOf limit left).1, (requestsOf limit left).2) := by
  induction taken with
  | none input => rfl
  | next read taken ih => rw [requestsOf_done read, ih]; rfl
  | last ended read => rw [requestsOf_last read, requestsOf_ended (readRequest_nil limit)]; rfl

/-- While more can come, what comes is left over. -/
theorem longer {after : Prop} (taken : Taken limit complete input requests left) (open_ : ¬ complete) (more : Bytes) :
    Taken limit after (input ++ more) requests (left ++ more) := by
  induction taken with
  | none input => exact .none _
  | next read taken ih => exact .next ((readRequest_extends more limit _).of_done read) ih
  | last ended read => exact absurd ended open_

theorem mono {after : Prop} (taken : Taken limit complete input requests left) (still : complete → after) :
    Taken limit after input requests left := by
  induction taken with
  | none input => exact .none input
  | next read taken ih => exact .next read ih
  | last ended read => exact .last (still ended) read

theorem snoc {r : Request} {rest : Bytes} (taken : Taken limit complete input requests left)
    (read : readRequest limit left = .done (some r) rest) : Taken limit complete input (requests ++ [r]) rest := by
  induction taken with
  | none input => exact .next read (.none rest)
  | next first taken ih => exact .next first (ih read)
  | last ended first => rw [readRequest_nil] at read; cases read

theorem snoc_last {r : Request} (taken : Taken limit complete input requests left) (ended : complete)
    (read : readRequest limit left = .more (.ok (some r))) : Taken limit complete input (requests ++ [r]) [] := by
  induction taken with
  | none input => exact .last ended read
  | next first taken ih => exact .next first (ih read)
  | last _ first => rw [readRequest_nil] at read; cases read

end Taken

end ToolBridge.Http

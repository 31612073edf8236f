import ToolBridge.Proofs.HeadLayouts
import ToolBridge.Proofs.TakenLines

/-! Heads of requests as they are taken off an input. Either a whole head lies at the front of the input, within its
budget, or reading comes to nothing, and is refused for length only where the lines so far are within the budget and the
next is not. -/

namespace ToolBridge.Http

/-- After `spent` octets have been charged, the next line costs more than is left. -/
structure Overruns (budget spent : Nat) (rest : Bytes) : Prop where
  within : spent ≤ budget
  beyond : budget < spent + (firstLine rest).length

theorem Overruns.after {budget left spent cost : Nat} {rest : Bytes} (overruns : Overruns left spent rest)
    (paid : cost + left = budget) : Overruns budget (cost + spent) rest where
  within := by have := overruns.within; omega
  beyond := by have := overruns.beyond; omega

theorem overruns_now {budget : Nat} {input : Bytes} (beyond : budget < (firstLine input).length) :
    Overruns budget 0 input where
  within := Nat.zero_le _
  beyond := by rwa [Nat.zero_add]

/-- What the budget does not have, it does not have once some of it is spent. -/
theorem Overruns.left {budget spent : Nat} {rest : Bytes} (overruns : Overruns budget spent rest) :
    budget - spent < (firstLine rest).length := by
  have := overruns.beyond
  have := overruns.within
  omega

theorem SentLine.eq_empty {l : SentLine} (silent : l.text = "") : l = .empty l.ending := by
  cases l
  cases silent
  rfl

/-- Lines that a head may begin with, up to any but the one that ends it. -/
inductive HeadBegun : List SentLine → Prop where
  | blanks (blanks : List Ending) : HeadBegun (blanks.map .empty)
  | headers (blanks : List Ending) {first : SentLine} {headers : List SentLine} {line : RequestLine} {fields : Fields}
      (asked : readRequestLine first.text = .ok line) (told : readFieldLines headers [] = .ok fields) :
      HeadBegun (blanks.map .empty ++ first :: headers)

/-- A head that does not end within the budget for heads. -/
def HeadOverlong (input : Bytes) : Prop :=
  ∃ lines rest, HeadBegun lines ∧ input = linesBytes lines ++ rest ∧ Overruns headLimit (linesBytes lines).length rest

/-! ## What a head comes to -/

def headersOutcomes (fields : Fields) (budget : Nat) (input : Bytes) : Outcomes Fields where
  done given rest := ∃ headers close, readFieldLines headers fields = .ok given ∧
    input = linesBytes headers ++ (Ending.bytes close ++ rest) ∧ (linesBytes headers).length + close.bytes.length ≤ budget
  ended _ := False
  long := ∃ headers given rest, readFieldLines headers fields = .ok given ∧ input = linesBytes headers ++ rest ∧
    Overruns budget (linesBytes headers).length rest
  large _ := False

theorem readHeaders_comes (fields : Fields) (budget : Nat) (input : Bytes) :
    (readHeaders fields budget input).Comes (headersOutcomes fields budget input) := by
  fun_induction readHeaders fields budget input with
  | case1 => exact .cut _
  | case2 => exact .cut _
  | case3 fields budget input fault read =>
    exact .of_fault read fun beyond => ⟨[], fields, input, rfl, rfl, overruns_now beyond⟩
  | case4 fields budget input left rest read =>
    obtain ⟨l, silent, octets, paid⟩ := readLine_taken read
    rw [SentLine.eq_empty silent, SentLine.bytes_empty] at octets paid
    exact .done ⟨[], l.ending, rfl, octets, by rw [linesBytes, List.flatMap_nil, List.length_nil]; omega⟩
  | case5 fields budget input text left rest read spoken ih =>
    obtain ⟨l, rfl, rfl, paid⟩ := readLine_taken read
    refine .check fun next told => (ih next).mono ?_ (fun _ => id) ?_ (fun _ => id)
    · rintro given after ⟨headers, close, more, rfl, fits⟩
      refine ⟨l :: headers, close, (readFieldLines_cons told headers).trans more, ?_, ?_⟩
      · rw [linesBytes_cons, List.append_assoc]
      · rw [linesBytes_cons, List.length_append]
        omega
    · rintro ⟨headers, given, after, more, rfl, overruns⟩
      refine ⟨l :: headers, given, after, (readFieldLines_cons told headers).trans more, ?_, ?_⟩
      · rw [linesBytes_cons, List.append_assoc]
      · rw [linesBytes_cons, List.length_append]
        exact overruns.after paid

def firstLineOutcomes (budget : Nat) (input : Bytes) : Outcomes (Option (RequestLine × Nat)) where
  done found rest := ∃ (blanks : List Ending) (first : SentLine) (line : RequestLine) (left : Nat),
    found = some (line, left) ∧ readRequestLine first.text = .ok line ∧
    input = linesBytes (blanks.map .empty) ++ (first.bytes ++ rest) ∧
    (linesBytes (blanks.map .empty)).length + first.bytes.length + left = budget
  ended found := found = none
  long := ∃ (blanks : List Ending) (rest : Bytes), input = linesBytes (blanks.map .empty) ++ rest ∧
    Overruns budget (linesBytes (blanks.map .empty)).length rest
  large _ := False

theorem readFirstLine_comes (budget : Nat) (input : Bytes) :
    (readFirstLine budget input).Comes (firstLineOutcomes budget input) := by
  fun_induction readFirstLine budget input with
  | case1 => exact .ended rfl
  | case2 => exact .cut _
  | case3 budget input fault read => exact .of_fault read fun beyond => ⟨[], input, rfl, overruns_now beyond⟩
  | case4 budget input left rest read ih =>
    obtain ⟨l, silent, rfl, paid⟩ := readLine_taken read
    rw [SentLine.eq_empty silent] at paid ⊢
    refine ih.mono ?_ (fun _ => id) ?_ (fun _ => id)
    · rintro _ after ⟨blanks, first, line, unspent, rfl, asked, rfl, fits⟩
      refine ⟨l.ending :: blanks, first, line, unspent, rfl, asked, ?_, ?_⟩
      · rw [List.map_cons, linesBytes_cons, List.append_assoc]
      · rw [List.map_cons, linesBytes_cons, List.length_append]
        omega
    · rintro ⟨blanks, after, rfl, overruns⟩
      refine ⟨l.ending :: blanks, after, ?_, ?_⟩
      · rw [List.map_cons, linesBytes_cons, List.append_assoc]
      · rw [List.map_cons, linesBytes_cons, List.length_append]
        exact overruns.after paid
  | case5 budget input text left rest read spoken =>
    obtain ⟨l, rfl, rfl, paid⟩ := readLine_taken read
    refine .check fun line asked => .done ⟨[], l, line, left, rfl, asked, rfl, ?_⟩
    rw [List.map_nil, linesBytes, List.flatMap_nil, List.length_nil]
    omega

/-- A whole head lies at the front of an input, or nothing comes of it. -/
theorem head_cases (limit : Nat) (input : Bytes) :
    (∃ h : HeadLayout, ∃ rest, input = h.bytes ++ rest ∧ h.bytes.length ≤ headLimit) ∨
      (readRequest limit input).Comes
        { done := fun _ _ => False, ended := (· = none), long := HeadOverlong input, large := fun _ => False } := by
  rw [or_iff_not_imp_left]
  intro unfinished
  refine (readFirstLine_comes headLimit input).bind ?_ ?_ ?_ (fun _ => id)
  · rintro _ after ⟨blanks, first, line, left, rfl, asked, rfl, paid⟩
    refine (readHeaders_comes [] left after).bind ?_ (fun _ => False.elim) ?_ (fun _ => id)
    · rintro fields rest ⟨headers, close, told, rfl, fits⟩
      let h : HeadLayout := ⟨blanks, first, headers, close, line, fields, asked, told⟩
      refine absurd ⟨h, rest, ?_, ?_⟩ unfinished
      · simp only [h, h.bytes_eq, HeadLayout.opening, HeadLayout.remainder, List.append_assoc]
      · simp only [h, h.bytes_eq, HeadLayout.opening, HeadLayout.remainder, List.length_append]
        omega
    · rintro ⟨headers, fields, rest, told, rfl, overruns⟩
      refine ⟨_, rest, .headers blanks asked told, ?_, ?_⟩
      · simp only [linesBytes_append, linesBytes_cons, List.append_assoc]
      · rw [linesBytes_append, linesBytes_cons, List.length_append, List.length_append, ← Nat.add_assoc]
        exact overruns.after paid
  · rintro _ rfl
    exact .ended rfl
  · rintro ⟨blanks, rest, octets, overruns⟩
    exact ⟨_, rest, .blanks blanks, octets, overruns⟩

theorem readRequest_headOverlong {input : Bytes} (overlong : HeadOverlong input) (limit : Nat) :
    readRequest limit input = .refused .headersTooLarge := by
  obtain ⟨lines, rest, begun, rfl, overruns⟩ := overlong
  have within := overruns.within
  have refused := readLine_long overruns.left
  cases begun with
  | blanks blanks => rw [readRequest, readFirstLine_skip, if_pos within, readFirstLine_refused refused]; rfl
  | @headers blanks first headers line fields asked told =>
    rw [linesBytes_append, linesBytes_cons, List.length_append, List.length_append] at within refused
    rw [← Nat.sub_sub, ← Nat.sub_sub] at refused
    rw [linesBytes_append, linesBytes_cons, List.append_assoc, List.append_assoc, readRequest, readFirstLine_skip,
      if_pos (by omega), readFirstLine_asked asked, if_pos (by omega)]
    change (readHeaders [] _ _).bind _ = _
    rw [readHeaders_told told, if_pos (by omega), readHeaders_refused refused]
    rfl

end ToolBridge.Http

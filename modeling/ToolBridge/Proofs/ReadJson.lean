import ToolBridge.Json.Reader
import ToolBridge.Proofs.TextBoundaries

/-! Octets that are read as JSON are text. What stands outside strings is of ASCII. Inside a string the octets may be
any, but what they and the escapes between them come to has to be text in the end, and an escape is never half a
character: so the octets between two escapes are text too. -/

namespace ToolBridge.Json

open Text (octets octets_append octets_nil octets_cons octets_ascii)

/-- What was read, up to the rest, is text. -/
def Takes (input rest : Bytes) : Prop := ∃ s, input = octets s ++ rest

theorem Takes.refl (input : Bytes) : Takes input input := ⟨[], rfl⟩

theorem Takes.trans {a b c : Bytes} : Takes a b → Takes b c → Takes a c := by
  rintro ⟨s, rfl⟩ ⟨t, rfl⟩
  exact ⟨s ++ t, by rw [octets_append, List.append_assoc]⟩

theorem takes_octet {b : UInt8} (ascii : b.toNat < 0x80) (rest : Bytes) : Takes (b :: rest) rest := by
  have small : (Char.ofNat b.toNat).toNat = b.toNat := by
    rw [Char.ofNat, dif_pos (.inl (Nat.lt_trans ascii (by decide)))]
    rfl
  refine ⟨[Char.ofNat b.toNat], ?_⟩
  rw [octets_ascii (small.symm ▸ ascii), small, octets_nil, Nat.toUInt8, UInt8.ofNat_toNat, List.singleton_append]

theorem Takes.cons {b : UInt8} {input rest : Bytes} (later : Takes input rest) (ascii : b.toNat < 0x80) :
    Takes (b :: input) rest := (takes_octet ascii input).trans later

def TakesText {α : Type} (reader : Reader α) : Prop :=
  ∀ {input a rest}, reader input = .ok (a, rest) → Takes input rest

theorem bind_ok {α β : Type} {result : Except Fault α} {next : α → Except Fault β} {b : β}
    (read : (result >>= next) = .ok b) : ∃ a, result = .ok a ∧ next a = .ok b := by
  cases result with
  | error => cases read
  | ok a => exact ⟨a, rfl, read⟩

theorem map_ok {α β : Type} {result : Except Fault α} {f : α → β} {b : β} (read : result.map f = .ok b) :
    ∃ a, result = .ok a ∧ f a = b := by
  cases result with
  | error => cases read
  | ok a => exact ⟨a, rfl, Except.ok.inj read⟩

/-- What is made of a value changes nothing of what is read for it. -/
theorem takes_map {α β : Type} {reader : Reader α} {f : α × Bytes → β × Bytes} {input rest : Bytes} {value : β}
    (read : (reader input).map f = .ok (value, rest)) (kept : ∀ found, (f found).2 = found.2)
    (takes : TakesText reader) : Takes input rest := by
  obtain ⟨⟨found, left⟩, taken, same⟩ := map_ok read
  have later := kept (found, left)
  rw [same] at later
  cases later
  exact takes taken

theorem takes_dropWhile {p : UInt8 → Bool} (ascii : ∀ b, p b = true → b.toNat < 0x80) (input : Bytes) :
    Takes input (input.dropWhile p) := by
  induction input with
  | nil => exact .refl []
  | cons b rest ih =>
    rw [List.dropWhile_cons]
    split
    next passed => exact ih.cons (ascii b passed)
    next => exact .refl _

theorem isSpace_ascii (b : UInt8) (space : isSpace b = true) : b.toNat < 0x80 := by
  simp only [isSpace, Bool.or_eq_true, beq_iff_eq] at space
  rcases space with ((rfl | rfl) | rfl) | rfl <;> decide

theorem isDigit_ascii (b : UInt8) (digit : isDigit b = true) : b.toNat < 0x80 := by
  simp only [isDigit, Bool.and_eq_true, decide_eq_true_eq, UInt8.le_iff_toNat_le, UInt8.reduceToNat] at digit
  omega

theorem hexValue_ascii {b : UInt8} {n : Nat} (value : hexValue b = some n) : b.toNat < 0x80 := by
  unfold hexValue at value
  split at value
  next digit => exact isDigit_ascii b digit
  split at value
  next small => exact Nat.lt_of_le_of_lt (UInt8.le_iff_toNat_le.mp small.2) (by decide)
  split at value
  next capital => exact Nat.lt_of_le_of_lt (UInt8.le_iff_toNat_le.mp capital.2) (by decide)
  cases value

theorem takes_skipSpace (input : Bytes) : Takes input (skipSpace input) := takes_dropWhile isSpace_ascii input

theorem takes_readWord {word : Bytes} (ascii : ∀ b ∈ word, b.toNat < 0x80) : TakesText (readWord word) := by
  intro input a rest read
  induction word generalizing input with
  | nil =>
    cases read
    exact .refl _
  | cons w word ih =>
    cases input with
    | nil => cases read
    | cons b input =>
      rw [readWord] at read
      split at read
      next same =>
        obtain rfl := eq_of_beq same
        exact (ih (fun b member => ascii b (List.mem_cons_of_mem _ member)) read).cons (ascii b List.mem_cons_self)
      next => cases read

/-! ## Numbers -/

theorem takes_readSignificand (significand taken : Nat) (input : Bytes) :
    Takes input (readSignificand significand taken input).2.2 := by
  induction input generalizing significand taken with
  | nil => exact .refl []
  | cons b input ih =>
    rw [readSignificand]
    split
    next digit =>
      dsimp only
      split
      next => exact (ih _ _).cons (isDigit_ascii b digit)
      next => exact .refl _
    next => exact .refl _

theorem takes_readExponentDigits (value : Nat) (input : Bytes) : Takes input (readExponentDigits value input).2 := by
  induction input generalizing value with
  | nil => exact .refl []
  | cons b input ih =>
    rw [readExponentDigits]
    split
    next digit =>
      dsimp only
      split
      next => exact (ih _).cons (isDigit_ascii b digit)
      next => exact takes_octet (isDigit_ascii b digit) input
    next => exact .refl _

section
variable (positive : Bool) (significand : Nat) (exponent : Int)

theorem takes_scaled : TakesText (scaled positive significand exponent) := by
  intro input n rest read
  unfold scaled at read
  split at read <;> cases read
  exact .refl _

theorem takes_readExponent : TakesText (readExponent positive significand exponent) := by
  intro input n rest read
  unfold readExponent at read
  split at read
  next up left parts =>
    have sign : Takes input left := by
      split at parts <;> cases parts
      · exact takes_octet (by decide) _
      · exact takes_octet (by decide) _
      · exact .refl _
    split at read
    next => cases read
    next b tail =>
      split at read
      · cases read
      have digits := takes_readExponentDigits 0 (b :: tail)
      split at read
      next value left given =>
        rw [given] at digits
        exact (sign.trans digits).trans (takes_scaled _ _ _ read)
      next left given =>
        rw [given] at digits
        split at read
        · cases read
        · cases read
          exact (sign.trans digits).trans (takes_dropWhile isDigit_ascii _)

theorem takes_readExponent? : TakesText (readExponent? positive significand exponent) := by
  intro input n rest read
  unfold readExponent? at read
  split at read
  next => exact (takes_readExponent positive significand exponent read).cons (by decide)
  next => exact (takes_readExponent positive significand exponent read).cons (by decide)
  next => exact takes_scaled positive significand exponent read

theorem takes_readFraction : TakesText (readFraction positive significand exponent) := by
  intro input n rest read
  unfold readFraction at read
  have digits := takes_readSignificand significand 0 input
  split at read
  next significand' taken left parts =>
    rw [parts] at digits
    split at read
    · cases read
    · exact (digits.trans (takes_dropWhile isDigit_ascii _)).trans (takes_readExponent? _ _ _ read)

end

theorem takes_readAfterDigits (positive : Bool) (significand dropped : Nat) :
    TakesText (readAfterDigits positive significand dropped) := by
  intro input n rest read
  unfold readAfterDigits at read
  split at read
  next => exact (takes_readFraction _ _ _ read).cons (by decide)
  next => exact (takes_readExponent _ _ _ read).cons (by decide)
  next => exact (takes_readExponent _ _ _ read).cons (by decide)
  next =>
    split at read
    · exact takes_scaled _ _ _ read
    split at read
    · cases read
      exact .refl _
    split at read <;> cases read <;> exact .refl _

theorem takes_readNumber (positive : Bool) : TakesText (readNumber positive) := by
  intro input n rest read
  unfold readNumber at read
  split at read
  next => cases read
  next =>
    split at read
    · cases read
    · exact (takes_readAfterDigits _ _ _ read).cons (by decide)
  next b tail _ =>
    split at read
    next digit =>
      have digits := takes_readSignificand 0 0 (b :: tail)
      exact (digits.trans (takes_dropWhile isDigit_ascii _)).trans (takes_readAfterDigits _ _ _ read)
    next => cases read

/-! ## Strings -/

theorem takes_readHex : TakesText readHex := by
  intro input n rest read
  unfold readHex at read
  split at read
  next =>
    split at read
    next a b c d =>
      cases read
      exact (((takes_octet (hexValue_ascii d) _).cons (hexValue_ascii c)).cons (hexValue_ascii b)).cons (hexValue_ascii a)
    next => cases read
  next => cases read

theorem takes_readPair (lead : Nat) : TakesText (readPair lead) := by
  intro input c rest read
  unfold readPair at read
  split at read
  next => cases read
  next => cases read
  next =>
    obtain ⟨⟨trail, left⟩, hex, read⟩ := bind_ok read
    dsimp only at read
    split at read
    · obtain ⟨-, rfl⟩ := Prod.mk.inj (Except.ok.inj read)
      exact ((takes_readHex hex).cons (by decide)).cons (by decide)
    · cases read
  next => cases read
  next => cases read

theorem takes_readUnicode : TakesText readUnicode := by
  intro input c rest read
  obtain ⟨⟨unit, left⟩, hex, read⟩ := bind_ok read
  dsimp only at read
  split at read
  · cases read
  split at read
  · exact (takes_readHex hex).trans (takes_readPair unit read)
  · cases read
    exact takes_readHex hex

theorem takes_readEscape : TakesText readEscape := by
  intro input c rest read
  unfold readEscape at read
  split at read
  case h_10 => exact (takes_readUnicode read).cons (by decide)
  all_goals cases read
  all_goals exact takes_octet (by decide) _

/-- If the octets of a string are text together with some before it, then so is all that was read of it. -/
theorem readQuoted_takes {done input bytes rest : Bytes} (read : readQuoted done input = .ok (bytes, rest)) :
    ∃ content, bytes = done.reverse ++ content ∧
      ∀ before s, before ++ content = octets s → Takes (before ++ input) rest := by
  induction done, input using readQuoted.induct with
  | case1 done => cases (readQuoted.eq_1 done).symm.trans read
  | case2 done b input closes =>
    obtain rfl := eq_of_beq closes
    cases (readQuoted_close done input).symm.trans read
    refine ⟨[], (List.append_nil _).symm, fun before s whole => ?_⟩
    obtain rfl : before = octets s := by simpa using whole
    exact .trans ⟨s, rfl⟩ (takes_octet (by decide) _)
  | case3 done b input open_ slash c after escape ih =>
    obtain rfl := eq_of_beq slash
    rw [readQuoted_escape escape] at read
    rw [Text.utf8_toString] at ih
    obtain ⟨content, decoded, takes⟩ := ih read
    refine ⟨String.utf8EncodeChar c ++ content, by simpa using decoded, fun before s whole => ?_⟩
    obtain ⟨s₁, s₂, rfl, rfl⟩ := Text.octets_around whole.symm
    have escaped := (takes_readEscape escape).trans (takes [] s₂ rfl)
    exact .trans ⟨s₁, rfl⟩ (escaped.cons (by decide))
  | case4 done b input open_ slash fault escape =>
    rw [readQuoted, if_neg open_, if_pos slash] at read
    split at read
    next found => cases escape.symm.trans found
    next => cases read
  | case5 done b input open_ slash control =>
    rw [readQuoted, if_neg open_, if_neg slash, if_pos control] at read
    cases read
  | case6 done b input open_ slash visible ih =>
    rw [readQuoted, if_neg open_, if_neg slash, if_neg visible] at read
    obtain ⟨content, decoded, takes⟩ := ih read
    refine ⟨b :: content, by simpa using decoded, fun before s whole => ?_⟩
    have taken := takes (before ++ [b]) s (by simpa using whole)
    simpa using taken

theorem ofUtf8?_eq_some {bytes : Bytes} {s : String} (read : Text.ofUtf8? bytes = some s) : bytes = Text.utf8 s := by
  unfold Text.ofUtf8? String.fromUTF8? at read
  split at read
  · obtain rfl := Option.some.inj read
    rfl
  · cases read

theorem takes_readString : TakesText readString := by
  intro input s rest read
  obtain ⟨⟨bytes, left⟩, quoted, read⟩ := bind_ok read
  dsimp only at read
  split at read
  next text valid =>
    cases read
    obtain ⟨content, whole, takes⟩ := readQuoted_takes quoted
    exact takes [] s.toList (by rw [Text.octets_toList, ← ofUtf8?_eq_some valid, whole]; rfl)
  next => cases read

/-! ## Values -/

theorem takes_hasItem (first : Bool) : TakesText (hasItem first) := by
  intro input more rest read
  have skipped := takes_skipSpace input
  unfold hasItem at read
  split at read
  next => cases read
  next left =>
    cases read
    exact left ▸ skipped
  next b tail _ left =>
    rw [left] at skipped
    split at read
    · cases read
      exact skipped
    split at read
    · cases read
    next comma =>
      have ascii : b.toNat < 0x80 := by
        simp only [bne_iff_ne, ne_eq, Decidable.not_not] at comma
        exact comma ▸ by decide
      have again := (skipped.trans (takes_octet ascii tail)).trans (takes_skipSpace tail)
      split at read
      next => cases read
      next => cases read
      next =>
        cases read
        exact again

theorem takes_hasKey (first : Bool) : TakesText (hasKey first) := by
  intro input more rest read
  have skipped := takes_skipSpace input
  unfold hasKey at read
  split at read
  next => cases read
  next left =>
    cases read
    exact left ▸ skipped
  next b tail _ left =>
    rw [left] at skipped
    split at read
    · split at read
      next quote =>
        cases read
        exact skipped.trans (takes_octet (eq_of_beq quote ▸ by decide) _)
      next => cases read
    split at read
    · cases read
    next comma =>
      have ascii : b.toNat < 0x80 := by
        simp only [bne_iff_ne, ne_eq, Decidable.not_not] at comma
        exact comma ▸ by decide
      have again := (skipped.trans (takes_octet ascii tail)).trans (takes_skipSpace tail)
      split at read
      next => cases read
      next left =>
        cases read
        rw [left] at again
        exact again.trans (takes_octet (by decide) _)
      next => cases read
      next => cases read

theorem takes_readColon : TakesText readColon := by
  intro input a rest read
  have skipped := takes_skipSpace input
  unfold readColon at read
  split at read
  next => cases read
  next b tail left =>
    rw [left] at skipped
    split at read
    next colon =>
      cases read
      exact skipped.trans (takes_octet (eq_of_beq colon ▸ by decide) _)
    next => cases read

/-- Where a list does not go on its closing bracket stands. -/
theorem hasItem_closed {first : Bool} {input rest : Bytes} (closed : hasItem first input = .ok (false, rest)) :
    ∃ tail, rest = 0x5D :: tail := by
  unfold hasItem at closed
  split at closed
  next => cases closed
  next =>
    cases closed
    exact ⟨_, rfl⟩
  next =>
    split at closed
    · cases closed
    split at closed
    · cases closed
    split at closed <;> cases closed

theorem hasKey_closed {first : Bool} {input rest : Bytes} (closed : hasKey first input = .ok (false, rest)) :
    ∃ tail, rest = 0x7D :: tail := by
  unfold hasKey at closed
  split at closed
  next => cases closed
  next =>
    cases closed
    exact ⟨_, rfl⟩
  next =>
    split at closed
    · split at closed <;> cases closed
    split at closed
    · cases closed
    split at closed <;> cases closed

section
variable {σ : Type}

theorem takes_readItems {item : σ → Reader σ} (each : ∀ state, TakesText (item state)) {bound : Bytes} {first : Bool}
    {state last : σ} {input rest : Bytes} (read : readItems item bound first state input = .ok (last, rest)) :
    Takes input (rest.drop 1) := by
  induction bound generalizing first state input with
  | nil => cases read
  | cons _ bound ih =>
    rw [readItems] at read
    obtain ⟨⟨more, left⟩, found, read⟩ := bind_ok read
    have before := takes_hasItem first found
    cases more with
    | true =>
      obtain ⟨⟨next, left⟩, one, read⟩ := bind_ok read
      exact (before.trans (each state one)).trans (ih read)
    | false =>
      cases read
      obtain ⟨tail, rfl⟩ := hasItem_closed found
      exact before.trans (takes_octet (by decide) tail)

theorem takes_readMembers {member : σ → String → Reader σ} (each : ∀ state key, TakesText (member state key))
    {bound : Bytes} {first : Bool} {state last : σ} {input rest : Bytes}
    (read : readMembers member bound first state input = .ok (last, rest)) : Takes input (rest.drop 1) := by
  induction bound generalizing first state input with
  | nil => cases read
  | cons _ bound ih =>
    rw [readMembers] at read
    obtain ⟨⟨more, left⟩, found, read⟩ := bind_ok read
    have before := takes_hasKey first found
    cases more with
    | true =>
      obtain ⟨⟨key, left⟩, named, read⟩ := bind_ok read
      obtain ⟨⟨next, left⟩, one, read⟩ := bind_ok read
      exact ((before.trans (takes_readString named)).trans (each state key one)).trans (ih read)
    | false =>
      cases read
      obtain ⟨tail, rfl⟩ := hasKey_closed found
      exact before.trans (takes_octet (by decide) tail)

end

theorem takes_readValue_of {depth : Nat} (inner : ∀ d, depth = d + 1 → TakesText (readValue d)) :
    TakesText (readValue depth) := by
  intro input value rest read
  have skipped := takes_skipSpace input
  rw [readValue] at read
  split at read
  next => cases read
  next b tail left =>
    rw [left] at skipped
    have led {w : UInt8} (same : (b == w) = true) (low : w.toNat < 0x80) {later : Bytes} (more : Takes tail later) :
        Takes input later := skipped.trans (more.cons (eq_of_beq same ▸ low))
    split at read
    next same => exact led same (by decide) (takes_map read (fun _ => rfl) (takes_readWord (by simp)))
    split at read
    next same => exact led same (by decide) (takes_map read (fun _ => rfl) (takes_readWord (by simp)))
    split at read
    next same => exact led same (by decide) (takes_map read (fun _ => rfl) (takes_readWord (by simp)))
    split at read
    next same => exact led same (by decide) (takes_map read (fun _ => rfl) (takes_readNumber false))
    split at read
    next => exact skipped.trans (takes_map read (fun _ => rfl) (takes_readNumber true))
    split at read
    next same => exact led same (by decide) (takes_map read (fun _ => rfl) takes_readString)
    split at read
    next same =>
      split at read
      next => cases read
      next d =>
        obtain ⟨⟨items, _⟩, list, done⟩ := bind_ok read
        cases done
        refine led same (by decide) (takes_readItems (fun state => ?_) list)
        intro input next rest one
        exact takes_map one (fun _ => rfl) (inner d rfl)
    split at read
    next same =>
      split at read
      next => cases read
      next d =>
        obtain ⟨⟨members, _⟩, object, done⟩ := bind_ok read
        cases done
        refine led same (by decide) (takes_readMembers (fun state key => ?_) object)
        intro input next rest one
        obtain ⟨⟨_, left⟩, colon, one⟩ := bind_ok one
        obtain ⟨⟨_, left⟩, member, kept⟩ := bind_ok one
        cases kept
        exact (takes_readColon colon).trans (inner d rfl member)
    next => cases read

/-- A value is text from its first octet to its last. -/
theorem takes_readValue (depth : Nat) : TakesText (readValue depth) := by
  induction depth with
  | zero => exact takes_readValue_of fun d same => absurd same (Nat.succ_ne_zero d).symm
  | succ depth ih => exact takes_readValue_of fun d same => Nat.succ.inj same ▸ ih

theorem takes_readEnd {input : Bytes} (read : readEnd input = .ok ()) : Takes input [] := by
  have skipped := takes_skipSpace input
  unfold readEnd at read
  split at read
  next left => exact left ▸ skipped
  next => cases read

theorem ofBytes_text {input : Bytes} {value : Json} (read : ofBytes input = .ok value) : ∃ s, input = Text.utf8 s := by
  obtain ⟨written, all, _⟩ := map_ok read
  obtain ⟨⟨written, rest⟩, value, read⟩ := bind_ok all
  obtain ⟨_, finished, _⟩ := bind_ok read
  obtain ⟨s, whole⟩ := (takes_readValue maxDepth value).trans (takes_readEnd finished)
  exact ⟨.ofList s, by rw [whole, ← Text.octets_toList, String.toList_ofList, List.append_nil]⟩

/-- What is read from octets is read from their lossy text too: nothing in them is replaced. -/
theorem parse_lossy {input : Bytes} {value : Json} (read : ofBytes input = .ok value) :
    parse (Text.ofUtf8Lossy input) = .ok value := by
  obtain ⟨s, rfl⟩ := ofBytes_text read
  rw [Text.ofUtf8Lossy_utf8, parse, read]

end ToolBridge.Json

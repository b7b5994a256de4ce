import Mathlib
import Reroute.Proofs.Digest.Messages
import Reroute.Proofs.Json.Extent
import Reroute.Proofs.Text.Reading

/-!
# Values are read as they were written

The text of a value is read as this value when its strings are valid UTF-8, its numbers are
integers and it does not nest too deep.  A string is read character by character, each from
the escape or the bytes it was written with.  The reader of values is followed with any text
behind the value that does not go on with a number, so that items and members can be put
together; its fuel suffices because a value takes up at least its extent.
-/

namespace Reroute

namespace Bytes

theorem exists_chars_of_valid {text : Bytes} (valid : validUtf8 text = true) :
    ∃ characters : List Char, runes text = characters.map .char ∧ ofChars characters = text := by
  have chars : ∃ characters : List Char, runes text = characters.map .char := by
    unfold validUtf8 at valid
    generalize runes text = read at valid
    induction read with
    | nil => exact ⟨[], rfl⟩
    | cons rune rest induction =>
        rw [List.all_cons, Bool.and_eq_true] at valid
        obtain ⟨characters, rfl⟩ := induction valid.2
        cases rune with
        | char value => exact ⟨value :: characters, rfl⟩
        | stray byte => cases valid.1
  obtain ⟨characters, equality⟩ := chars
  refine ⟨characters, equality, ?_⟩
  rw [← flatMap_bytes_runes text, equality, List.flatMap_map]
  rfl

/-- A character below 128 is one byte, and all bytes of any other are at least 128. -/
theorem toNat_of_mem_utf8EncodeChar (value : Char) :
    ∀ byte ∈ String.utf8EncodeChar value, byte.toNat = value.toNat ∨ 0x80 ≤ byte.toNat := by
  have same : value.val.toNat = value.toNat := rfl
  rw [String.utf8EncodeChar, same]
  split_ifs with one two three
  all_goals
    simp only [List.forall_mem_cons, List.not_mem_nil, false_imp_iff, implies_true, and_true,
      UInt8.toNat_ofNat']
    omega

end Bytes

namespace Numeral

theorem exists_hexPadded_four {code : Nat} (small : code < 0x10000) :
    ∃ w x y z, w < 16 ∧ x < 16 ∧ y < 16 ∧ z < 16 ∧
      hexPadded digit 4 code = [digit w, digit x, digit y, digit z] ∧
      ((w * 16 + x) * 16 + y) * 16 + z = code := by
  have length : (paddedDigits 4 code).length = 4 := by
    have bound : (Nat.digits 16 code).length ≤ 4 := by
      rw [Nat.digits_length_le_iff (by decide)]
      exact small
    rw [paddedDigits, List.length_append, List.length_replicate, List.length_reverse]
    omega
  obtain ⟨w, x, y, z, digits⟩ := List.length_eq_four.mp length
  have low : ∀ value ∈ [w, x, y, z], value < 16 := by
    rw [← digits]
    intro value member
    exact paddedDigits_lt member
  have total := foldl_paddedDigits 4 code
  rw [digits] at total
  refine ⟨w, x, y, z, low w (by simp), low x (by simp), low y (by simp), low z (by simp), ?_, ?_⟩
  · rw [hexPadded_eq, digits]
    rfl
  · simpa using total

theorem isDigit_of_mem_ofNat (value : Nat) : ∀ byte ∈ ofNat value, isDigit byte = true := by
  have proper : ∀ digitValue < 10, isDigit (digit digitValue) = true := by decide
  intro byte member
  unfold ofNat at member
  split at member
  · obtain rfl := List.mem_singleton.mp member
    decide
  · rw [List.mem_reverse, digitsOf_eq_digits (by decide)] at member
    obtain ⟨digitValue, inside, rfl⟩ := List.mem_map.mp member
    exact proper digitValue (Nat.digits_lt_base (by decide) inside)

/-- A numeral has a first digit, and only the numeral of zero starts with a zero. -/
theorem exists_ofNat_eq_cons (value : Nat) :
    ∃ first later, ofNat value = first :: later ∧ isDigit first = true ∧
      (first = 48 → later = []) := by
  by_cases zero : value = 0
  · exact ⟨48, [], by rw [ofNat, if_pos zero], by decide, fun _ => rfl⟩
  · have leading := Nat.getLast_digit_ne_zero 10 zero
    have low := Nat.digits_lt_base (show 1 < 10 by decide)
      (List.getLast_mem (Nat.digits_ne_nil_iff_ne_zero.mpr zero))
    have proper : ∀ value < 10, value ≠ 0 → digit value ≠ 48 := by decide
    have equality : ofNat value =
        digit ((Nat.digits 10 value).getLast (Nat.digits_ne_nil_iff_ne_zero.mpr zero))
          :: ((Nat.digits 10 value).dropLast.map digit).reverse := by
      rw [ofNat, if_neg zero, digitsOf_eq_digits (by decide)]
      conv_lhs =>
        rw [← List.dropLast_append_getLast (Nat.digits_ne_nil_iff_ne_zero.mpr zero)]
      simp
    refine ⟨_, _, equality, ?_, ?_⟩
    · exact isDigit_of_mem_ofNat value _ (by rw [equality]; exact List.mem_cons_self)
    · intro impossible
      exact absurd impossible (proper _ low leading)

theorem exists_ofInt_eq_cons (value : Int) :
    ∃ first later, ofInt value = first :: later ∧ (first = 45 ∨ isDigit first = true) := by
  obtain ⟨first, later, equality, proper, -⟩ := exists_ofNat_eq_cons value.natAbs
  rw [ofInt]
  split
  · exact ⟨45, _, rfl, Or.inl rfl⟩
  · exact ⟨first, later, equality, Or.inr proper⟩

end Numeral

namespace Json

/-! ### Strings -/

theorem readString_letter (done rest : Bytes) {letter byte : UInt8}
    (unescaped : unescape? letter = some byte) :
    readString done (92 :: letter :: rest) = readString (byte :: done) rest := by
  rw [readString, unescaped]
  rintro rfl
  cases unescaped

theorem readString_code (done rest : Bytes) {code : Nat} (small : code < 0x10000)
    (high : isHighSurrogate code = false) (low : isLowSurrogate code = false) :
    readString done (utf8 "\\u" ++ Numeral.hexPadded Numeral.digit 4 code ++ rest) =
      readString (pushCode code done) rest := by
  obtain ⟨w, x, y, z, wLow, xLow, yLow, zLow, digits, total⟩ :=
    Numeral.exists_hexPadded_four small
  have escape : unicodeEscape? (Numeral.digit w :: Numeral.digit x :: Numeral.digit y
      :: Numeral.digit z :: rest) = some (code, 4) := by
    have unit : codeUnit? (Numeral.digit w) (Numeral.digit x) (Numeral.digit y)
        (Numeral.digit z) = some code := by
      simp only [codeUnit?, Numeral.hexDigit?_digit, wLow, xLow, yLow, zLow, total]
    simp [unicodeEscape?, unit, high, low]
  have shape : utf8 "\\u" = [92, 117] := by decide
  rw [digits, shape]
  simp only [List.cons_append, List.nil_append]
  rw [readString, escape]
  rfl

theorem readString_plain {plain : Bytes}
    (visible : ∀ byte ∈ plain, 0x20 ≤ byte.toNat ∧ byte ≠ 34 ∧ byte ≠ 92) (done rest : Bytes) :
    readString done (plain ++ rest) = readString (plain.reverse ++ done) rest := by
  induction plain generalizing done with
  | nil => rfl
  | cons byte plain induction =>
      rw [List.forall_mem_cons] at visible
      obtain ⟨⟨high, noQuote, noBackslash⟩, later⟩ := visible
      rw [List.cons_append, readString, if_neg (Nat.not_lt.mpr high), induction later]
      · simp
      · exact noQuote
      · intro after impossible
        exact absurd impossible noBackslash
      · intro letter after impossible
        exact absurd impossible noBackslash

theorem unescape?_of_shortEscape? {code : Nat} {letter : UInt8}
    (short : shortEscape? code = some letter) :
    ∃ byte, unescape? letter = some byte ∧ String.utf8EncodeChar (Char.ofNat code) = [byte] := by
  unfold shortEscape? at short
  split at short
  · cases short
    exact ⟨8, rfl, by decide⟩
  · cases short
    exact ⟨9, rfl, by decide⟩
  · cases short
    exact ⟨10, rfl, by decide⟩
  · cases short
    exact ⟨12, rfl, by decide⟩
  · cases short
    exact ⟨13, rfl, by decide⟩
  · cases short

/-- Every character is read as it was written. -/
theorem readString_escapeRune (value : Char) (done rest : Bytes) :
    readString done (escapeRune (.char value) ++ rest) =
      readString ((String.utf8EncodeChar value).reverse ++ done) rest := by
  have named {code : Nat} (equality : value.toNat = code) : value = Char.ofNat code := by
    rw [← equality, Char.ofNat_toNat]
  -- The cases are those of writing: a quote or backslash, a control character with a letter,
  -- a character written by its code, and any other.
  rw [escapeRune]
  split
  · next quoted =>
      rw [Bool.or_eq_true, beq_iff_eq, beq_iff_eq] at quoted
      rcases quoted with quoted | quoted
      · obtain rfl := named quoted
        exact readString_letter done rest rfl
      · obtain rfl := named quoted
        exact readString_letter done rest rfl
  · next unquoted =>
      split
      · next letter short =>
          obtain ⟨byte, unescaped, encoded⟩ := unescape?_of_shortEscape? short
          rw [Char.ofNat_toNat] at encoded
          rw [encoded]
          exact readString_letter done rest unescaped
      · split
        · next coded =>
            have basic : value.toNat < 0x2030 := by
              simp only [isMarkup, Bool.or_eq_true, decide_eq_true_eq, beq_iff_eq] at coded
              omega
            rw [readString_code done rest (by omega), pushCode, Char.ofNat_toNat]
            · rw [isHighSurrogate, Bool.and_eq_false_iff, decide_eq_false_iff_not]
              omega
            · rw [isLowSurrogate, Bool.and_eq_false_iff, decide_eq_false_iff_not]
              omega
        · next plain =>
            apply readString_plain
            intro byte member
            simp only [Bool.or_eq_true, beq_iff_eq, decide_eq_true_eq, not_or] at unquoted plain
            have code := Bytes.toNat_of_mem_utf8EncodeChar value byte member
            refine ⟨by omega, ?_, ?_⟩
            · rintro rfl
              simp only [UInt8.reduceToNat] at code
              omega
            · rintro rfl
              simp only [UInt8.reduceToNat] at code
              omega

theorem readString_escaped (characters : List Char) (done rest : Bytes) :
    readString done ((characters.map .char).flatMap escapeRune ++ 34 :: rest) =
      some (sanitize (done.reverse ++ Bytes.ofChars characters), rest) := by
  induction characters generalizing done with
  | nil => simp [readString, Bytes.ofChars]
  | cons value characters induction =>
      rw [List.map_cons, List.flatMap_cons, List.append_assoc, readString_escapeRune, induction]
      simp [Bytes.ofChars]

theorem sanitize_of_valid {text : Bytes} (valid : text.validUtf8 = true) :
    sanitize text = text := by
  obtain ⟨characters, runes, spelled⟩ := Bytes.exists_chars_of_valid valid
  have chars : Bytes.chars text = characters := by
    rw [Bytes.chars, runes, List.map_map]
    exact List.map_id characters
  rw [sanitize, chars, spelled]

theorem readString_quote {text : Bytes} (valid : text.validUtf8 = true) (rest : Bytes) :
    readString [] (text.runes.flatMap escapeRune ++ 34 :: rest) = some (text, rest) := by
  obtain ⟨characters, runes, spelled⟩ := Bytes.exists_chars_of_valid valid
  rw [runes, readString_escaped, spelled, List.reverse_nil, List.nil_append,
    sanitize_of_valid valid]

/-! ### Numbers -/

/-- A text that cannot go on with a number. -/
def EndsNumber (rest : Bytes) : Prop :=
  ∀ byte ∈ rest.head?, Numeral.isDigit byte = false ∧ byte ≠ 46 ∧ byte ≠ 101 ∧ byte ≠ 69

theorem endsNumber_nil : EndsNumber [] := by
  intro byte member
  cases member

theorem endsNumber_cons (byte : UInt8) (separator : byte ∈ [44, 93, 125]) (rest : Bytes) :
    EndsNumber (byte :: rest) := by
  have ends : ∀ byte ∈ [44, 93, 125],
      Numeral.isDigit byte = false ∧ byte ≠ 46 ∧ byte ≠ 101 ∧ byte ≠ 69 := by
    decide +kernel
  intro head member
  cases member
  exact ends byte separator

variable {rest : Bytes}

theorem spanDigits_digits (ends : EndsNumber rest) {digits : Bytes}
    (all : ∀ byte ∈ digits, Numeral.isDigit byte = true) :
    spanDigits (digits ++ rest) = (digits, rest) := by
  have stop : rest.takeWhile Numeral.isDigit = [] ∧ rest.dropWhile Numeral.isDigit = rest := by
    cases rest with
    | nil => exact ⟨rfl, rfl⟩
    | cons byte rest =>
        have digit := (ends byte rfl).1
        simp [digit]
  rw [spanDigits, List.takeWhile_append_of_pos all, List.dropWhile_append_of_pos all, stop.1,
    stop.2, List.append_nil]

theorem readWhole_ofNat (ends : EndsNumber rest) (value : Nat) :
    readWhole (Numeral.ofNat value ++ rest) = some (Numeral.ofNat value, rest) := by
  have span := spanDigits_digits ends (Numeral.isDigit_of_mem_ofNat value)
  obtain ⟨first, later, equality, -, zero⟩ := Numeral.exists_ofNat_eq_cons value
  rw [equality] at span ⊢
  by_cases leading : first = 48
  · rw [leading, zero leading]
    rfl
  · rw [readWhole.eq_2, span]
    · rfl
    · intro after same
      exact leading (List.cons.inj same).1

theorem readNumber_ofInt (ends : EndsNumber rest) (value : Int) :
    readNumber (Numeral.ofInt value ++ rest) = some (Numeral.ofInt value, rest) := by
  have fraction : readFraction rest = some ([], rest) := by
    apply readFraction.eq_2
    rintro after rfl
    exact (ends 46 rfl).2.1 rfl
  have exponent : readExponent rest = some ([], rest) := by
    cases rest with
    | nil => rfl
    | cons byte rest =>
        obtain ⟨-, -, small, large⟩ := ends byte rfl
        simp [readExponent, small, large]
  have whole := readWhole_ofNat ends value.natAbs
  rw [Numeral.ofInt]
  split
  · rw [List.cons_append, readNumber.eq_1, whole]
    simp [fraction, exponent]
  · rw [readNumber.eq_2, whole]
    · simp [fraction, exponent]
    · obtain ⟨first, later, equality, digit, -⟩ := Numeral.exists_ofNat_eq_cons value.natAbs
      rw [equality]
      intro body same
      rw [(List.cons.inj same).1] at digit
      cases digit

/-! ### Values -/

/-- A value that can be written and read again: its strings are valid, its numbers are
integers, and its arrays and objects nest at most so deep. -/
inductive Value.Writable : Nat → Value → Prop where
  | null {room : Nat} : Writable room .null
  | bool {room : Nat} (truth : Bool) : Writable room (.bool truth)
  | integer {room : Nat} (number : Int) : Writable room (.integer number)
  | string {room : Nat} {text : Bytes} :
      text.validUtf8 = true → Writable room (.string text)
  | array {room : Nat} {items : List Value} :
      (∀ item ∈ items, Writable room item) → Writable (room + 1) (.array items)
  | object {room : Nat} {members : List (Bytes × Value)} :
      (∀ member ∈ members, member.1.validUtf8 = true) →
      (∀ member ∈ members, Writable room member.2) → Writable (room + 1) (.object members)

/-- A number starts with none of the bytes that other values start with or that end an
array, and it is not blank. -/
theorem not_mem_of_startsNumber {first : UInt8}
    (starts : first = 45 ∨ Numeral.isDigit first = true) :
    first ∉ [34, 91, 93, 102, 110, 116, 123] ∧ Bytes.isLayout first = false := by
  have others : ∀ byte ∈ [34, 91, 93, 102, 110, 116, 123, 0x20, 0x09, 0x0D, 0x0A],
      ¬(byte = 45 ∨ Numeral.isDigit byte = true) := by
    decide +kernel
  constructor
  · intro member
    exact others first (List.mem_append_left [0x20, 0x09, 0x0D, 0x0A] member) starts
  · rw [Bool.eq_false_iff]
    intro layout
    refine others first ?_ starts
    simp only [Bytes.isLayout, Bool.or_eq_true, beq_iff_eq] at layout
    rcases layout with ((rfl | rfl) | rfl) | rfl <;> decide

theorem skipBlanks_cons (byte : UInt8) (visible : Bytes.isLayout byte = false) (rest : Bytes) :
    skipBlanks (byte :: rest) = byte :: rest := by
  simp [skipBlanks, visible]

theorem Value.Writable.exists_compact_eq_cons {room : Nat} {value : Value}
    (writable : Writable room value) :
    ∃ first later, value.compact = first :: later ∧ Bytes.isLayout first = false ∧
      first ≠ 93 := by
  cases writable with
  | null => exact ⟨110, _, rfl, by decide, by decide⟩
  | bool truth =>
      cases truth with
      | true => exact ⟨116, _, rfl, by decide, by decide⟩
      | false => exact ⟨102, _, rfl, by decide, by decide⟩
  | integer number =>
      obtain ⟨first, later, equality, starts⟩ := Numeral.exists_ofInt_eq_cons number
      obtain ⟨apart, visible⟩ := not_mem_of_startsNumber starts
      refine ⟨first, later, by rw [Value.integer, Value.compact, equality], visible, ?_⟩
      rintro rfl
      exact apart (by decide)
  | string valid => exact ⟨34, _, rfl, by decide, by decide⟩
  | array items => exact ⟨91, _, rfl, by decide, by decide⟩
  | object names members => exact ⟨123, _, rfl, by decide, by decide⟩

theorem Value.Writable.length_compact_pos {room : Nat} {value : Value}
    (writable : Writable room value) : 0 < value.compact.length := by
  obtain ⟨first, later, equality, -⟩ := writable.exists_compact_eq_cons
  rw [equality]
  exact Nat.succ_pos _

/-- The value is read as it was written at a nesting depth, whatever follows it. -/
def ReadsBack (depth : Nat) (value : Value) : Prop :=
  ∀ {fuel rest}, value.extent ≤ fuel → EndsNumber rest →
    readValue fuel depth (value.compact ++ rest) = some (value, rest)

theorem readsBack_of_step {depth : Nat} {value : Value}
    (step : ∀ fuel rest, value.extent ≤ fuel + 1 → EndsNumber rest →
      readValue (fuel + 1) depth (value.compact ++ rest) = some (value, rest)) :
    ReadsBack depth value := by
  intro fuel rest enough ends
  cases fuel with
  | zero => exact absurd value.extent_pos (Nat.not_lt.mpr enough)
  | succ fuel => exact step fuel rest enough ends

theorem readsBack_null (depth : Nat) : ReadsBack depth .null := by
  apply readsBack_of_step
  intro fuel rest enough ends
  rfl

theorem readsBack_bool (depth : Nat) (truth : Bool) : ReadsBack depth (.bool truth) := by
  apply readsBack_of_step
  intro fuel rest enough ends
  cases truth with
  | true => rfl
  | false => rfl

theorem readsBack_integer (depth : Nat) (number : Int) : ReadsBack depth (.integer number) := by
  apply readsBack_of_step
  intro fuel rest enough ends
  have read := readNumber_ofInt ends number
  obtain ⟨first, later, equality, starts⟩ := Numeral.exists_ofInt_eq_cons number
  obtain ⟨apart, visible⟩ := not_mem_of_startsNumber starts
  have other {byte : UInt8} {left right : Bytes} (same : first :: left = byte :: right) :
      byte ∉ [34, 91, 93, 102, 110, 116, 123] := by
    rw [← (List.cons.inj same).1]
    exact apart
  rw [Value.integer, Value.compact]
  rw [equality, List.cons_append] at read ⊢
  rw [readValue, skipBlanks_cons first visible]
  split
  · next empty => cases empty
  · next same => exact absurd (by decide) (other same)
  · next same => exact absurd (by decide) (other same)
  · next same => exact absurd (by decide) (other same)
  · next same => exact absurd (by decide) (other same)
  · next same => exact absurd (by decide) (other same)
  · next same => exact absurd (by decide) (other same)
  · rw [read]

theorem readsBack_string {text : Bytes} (valid : text.validUtf8 = true) (depth : Nat) :
    ReadsBack depth (.string text) := by
  apply readsBack_of_step
  intro fuel rest enough ends
  have literal := readString_quote valid rest
  rw [Value.compact, quote]
  simp only [List.cons_append, List.append_assoc, List.nil_append]
  rw [readValue, skipBlanks_cons 34 rfl]
  simp only [literal]

theorem compactItems_cons_cons (item next : Value) (items : List Value) :
    Value.compactItems (item :: next :: items) =
      item.compact ++ 44 :: Value.compactItems (next :: items) :=
  Value.compactItems.eq_3 _ _ (List.cons_ne_nil next items)

theorem compactMembers_cons_cons (name : Bytes) (value : Value) (next : Bytes × Value)
    (members : List (Bytes × Value)) :
    Value.compactMembers ((name, value) :: next :: members) =
      quote name ++ 58 :: value.compact ++ 44 :: Value.compactMembers (next :: members) :=
  Value.compactMembers.eq_3 _ _ _ (List.cons_ne_nil next members)

theorem exists_compactItems_eq_cons {room : Nat} {item : Value} (items : List Value)
    (writable : item.Writable room) :
    ∃ first later, Value.compactItems (item :: items) = first :: later ∧
      Bytes.isLayout first = false ∧ first ≠ 93 := by
  obtain ⟨first, later, equality, visible, noEnd⟩ := writable.exists_compact_eq_cons
  cases items with
  | nil => exact ⟨first, later, by rw [Value.compactItems, equality], visible, noEnd⟩
  | cons next items =>
      exact ⟨first, _, by rw [compactItems_cons_cons, equality, List.cons_append], visible, noEnd⟩

theorem exists_compactMembers_eq_cons (member : Bytes × Value) (members : List (Bytes × Value)) :
    ∃ later, Value.compactMembers (member :: members) = 34 :: later := by
  cases members with
  | nil => exact ⟨_, rfl⟩
  | cons next members => exact ⟨_, rfl⟩

theorem readItems_compact {depth : Nat} {items : List Value} (nonempty : items ≠ [])
    (each : ∀ item ∈ items, ReadsBack depth item) {fuel : Nat}
    (enough : itemsExtent items ≤ fuel) (done : List Value) (rest : Bytes) :
    readItems fuel depth done (Value.compactItems items ++ 93 :: rest) =
      some (.array (done.reverse ++ items), rest) := by
  induction items generalizing fuel done with
  | nil => exact absurd rfl nonempty
  | cons item items induction =>
      rw [itemsExtent] at enough
      obtain ⟨fuel, rfl⟩ : ∃ less, fuel = less + 1 := ⟨fuel - 1, by omega⟩
      rw [List.forall_mem_cons] at each
      obtain ⟨itemBack, laterBack⟩ := each
      have itemEnough : item.extent ≤ fuel := by omega
      have laterEnough : itemsExtent items ≤ fuel := by omega
      rw [readItems]
      cases items with
      | nil =>
          have read := itemBack itemEnough (endsNumber_cons 93 (by decide) rest)
          rw [Value.compactItems, read]
          simp only [skipBlanks_cons 93 rfl, List.reverse_cons]
      | cons next items =>
          have read := itemBack itemEnough
            (endsNumber_cons 44 (by decide) (Value.compactItems (next :: items) ++ 93 :: rest))
          have later := induction (List.cons_ne_nil next items) laterBack laterEnough (item :: done)
          rw [compactItems_cons_cons, List.append_assoc, List.cons_append, read]
          simp only [skipBlanks_cons 44 rfl, later, List.reverse_cons, List.append_assoc,
            List.singleton_append]

theorem readMembers_compact {depth : Nat} {members : List (Bytes × Value)}
    (nonempty : members ≠ []) (names : ∀ member ∈ members, member.1.validUtf8 = true)
    (each : ∀ member ∈ members, ReadsBack depth member.2) {fuel : Nat}
    (enough : membersExtent members ≤ fuel) (done : List (Bytes × Value)) (rest : Bytes) :
    readMembers fuel depth done (Value.compactMembers members ++ 125 :: rest) =
      some (.object (done.reverse ++ members), rest) := by
  induction members generalizing fuel done with
  | nil => exact absurd rfl nonempty
  | cons member members induction =>
      obtain ⟨name, value⟩ := member
      rw [membersExtent] at enough
      obtain ⟨fuel, rfl⟩ : ∃ less, fuel = less + 1 := ⟨fuel - 1, by omega⟩
      rw [List.forall_mem_cons] at each names
      obtain ⟨valueBack, laterBack⟩ := each
      obtain ⟨valid, laterValid⟩ := names
      have valueEnough : value.extent ≤ fuel := by omega
      have laterEnough : membersExtent members ≤ fuel := by omega
      rw [readMembers]
      cases members with
      | nil =>
          have literal := readString_quote valid (58 :: (value.compact ++ 125 :: rest))
          have read := valueBack valueEnough (endsNumber_cons 125 (by decide) rest)
          rw [Value.compactMembers, quote]
          simp only [List.cons_append, List.append_assoc, List.nil_append]
          simp only [skipBlanks_cons 34 rfl, literal, skipBlanks_cons 58 rfl, read,
            skipBlanks_cons 125 rfl, List.reverse_cons]
      | cons next members =>
          have read := valueBack valueEnough
            (endsNumber_cons 44 (by decide) (Value.compactMembers (next :: members) ++ 125 :: rest))
          have literal := readString_quote valid
            (58 :: (value.compact ++ 44 :: (Value.compactMembers (next :: members) ++ 125 :: rest)))
          have later := induction (List.cons_ne_nil next members) laterValid laterBack laterEnough
            ((name, value) :: done)
          rw [compactMembers_cons_cons, quote]
          simp only [List.cons_append, List.append_assoc, List.nil_append]
          simp only [skipBlanks_cons 34 rfl, literal, skipBlanks_cons 58 rfl, read,
            skipBlanks_cons 44 rfl, later, List.reverse_cons, List.append_assoc,
            List.singleton_append]

theorem readsBack_array {depth : Nat} (shallow : depth < maxDepth) {items : List Value}
    {room : Nat} (writable : ∀ item ∈ items, item.Writable room)
    (each : ∀ item ∈ items, ReadsBack (depth + 1) item) : ReadsBack depth (.array items) := by
  apply readsBack_of_step
  intro fuel rest enough ends
  rw [Value.extent] at enough
  rw [Value.compact, List.append_assoc, List.singleton_append, List.cons_append, readValue,
    skipBlanks_cons 91 rfl]
  simp only [shallow, if_true]
  cases items with
  | nil => rfl
  | cons item items =>
      have read := readItems_compact (List.cons_ne_nil item items) each (show _ ≤ fuel by omega)
        [] rest
      obtain ⟨first, later, equality, visible, noEnd⟩ := exists_compactItems_eq_cons items
        (writable item List.mem_cons_self)
      rw [equality, List.cons_append] at read ⊢
      rw [skipBlanks_cons first visible]
      split
      · next same => exact absurd (List.cons.inj same).1 noEnd
      · exact read

theorem readsBack_object {depth : Nat} (shallow : depth < maxDepth)
    {members : List (Bytes × Value)} (names : ∀ member ∈ members, member.1.validUtf8 = true)
    (each : ∀ member ∈ members, ReadsBack (depth + 1) member.2) :
    ReadsBack depth (.object members) := by
  apply readsBack_of_step
  intro fuel rest enough ends
  rw [Value.extent] at enough
  rw [Value.compact, List.append_assoc, List.singleton_append, List.cons_append, readValue,
    skipBlanks_cons 123 rfl]
  simp only [shallow, if_true]
  cases members with
  | nil => rfl
  | cons member members =>
      have read := readMembers_compact (List.cons_ne_nil member members) names each
        (show _ ≤ fuel by omega) [] rest
      obtain ⟨later, equality⟩ := exists_compactMembers_eq_cons member members
      rw [equality, List.cons_append] at read ⊢
      rw [skipBlanks_cons 34 rfl]
      exact read

theorem Value.Writable.readsBack {room : Nat} {value : Value} (writable : Writable room value) :
    ∀ {depth}, depth + room ≤ maxDepth → ReadsBack depth value := by
  induction writable with
  | null =>
      intro depth fits
      exact readsBack_null depth
  | bool truth =>
      intro depth fits
      exact readsBack_bool depth truth
  | integer number =>
      intro depth fits
      exact readsBack_integer depth number
  | string valid =>
      intro depth fits
      exact readsBack_string valid depth
  | array items induction =>
      intro depth fits
      apply readsBack_array (by omega) items
      intro item member
      exact induction item member (by omega)
  | object names members induction =>
      intro depth fits
      apply readsBack_object (by omega) names
      intro member inside
      exact induction member inside (by omega)

theorem itemsExtent_le {items : List Value}
    (each : ∀ item ∈ items, item.extent ≤ item.compact.length) :
    itemsExtent items ≤ (Value.compactItems items).length + 1 := by
  induction items with
  | nil => exact Nat.zero_le _
  | cons item items induction =>
      rw [List.forall_mem_cons] at each
      have itemBound := each.1
      have laterBound := induction each.2
      rw [itemsExtent]
      cases items with
      | nil =>
          rw [Value.compactItems, itemsExtent]
          omega
      | cons next items =>
          rw [compactItems_cons_cons, List.length_append, List.length_cons]
          omega

theorem membersExtent_le {members : List (Bytes × Value)}
    (each : ∀ member ∈ members, member.2.extent ≤ member.2.compact.length) :
    membersExtent members ≤ (Value.compactMembers members).length + 1 := by
  induction members with
  | nil => exact Nat.zero_le _
  | cons member members induction =>
      obtain ⟨name, value⟩ := member
      rw [List.forall_mem_cons] at each
      have valueBound : value.extent ≤ value.compact.length := each.1
      have laterBound := induction each.2
      rw [membersExtent]
      cases members with
      | nil =>
          rw [Value.compactMembers, membersExtent, List.length_append, List.length_cons]
          omega
      | cons next members =>
          rw [compactMembers_cons_cons, List.length_append, List.length_append, List.length_cons,
            List.length_cons]
          omega

theorem Value.Writable.extent_le {room : Nat} {value : Value} (writable : Writable room value) :
    value.extent ≤ value.compact.length := by
  induction writable with
  | null => exact (null : Writable 0 _).length_compact_pos
  | bool truth => exact (bool truth : Writable 0 _).length_compact_pos
  | integer number => exact (integer number : Writable 0 _).length_compact_pos
  | string valid => exact (string valid : Writable 0 _).length_compact_pos
  | array items induction =>
      have bound := itemsExtent_le induction
      simp only [Value.extent, Value.compact, List.length_cons, List.length_append]
      omega
  | object names members induction =>
      have bound := membersExtent_le induction
      simp only [Value.extent, Value.compact, List.length_cons, List.length_append]
      omega

/-- A document is read as the value it was written for. -/
theorem parse?_compact {room : Nat} {value : Value} (writable : value.Writable room)
    (fits : room ≤ maxDepth) : parse? value.compact = some value := by
  have enough : value.extent ≤ enoughFuel value.compact := by
    have bound := writable.extent_le
    unfold enoughFuel
    omega
  have read := writable.readsBack (Nat.zero_add room ▸ fits) enough endsNumber_nil
  rw [List.append_nil] at read
  rw [parse?, read?, read]
  rfl

end Json

end Reroute

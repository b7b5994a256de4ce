import Mathlib
import Reroute.SourceMap.Mappings

/-!
# Reading mappings back

A number whose magnitude is below 2^62 has a finite written form, and reading the form
gives the number back.  Mappings all of whose written differences are that small are
therefore written and read back unchanged: reader and writer carry the same cursor from
segment to segment.

Differences are small whenever the fields themselves lie between zero and 2^62, which is
how the maps of this library are made.
-/

namespace Reroute

namespace Vlq

/-- Numbers with a finite written form that needs no wrapping. -/
def Small (value : Int64) : Prop :=
  value.toInt.natAbs < 2 ^ 62

/-- The magnitude, doubled, with the sign in the lowest bit, as a natural number. -/
def codeOf (value : Int64) : Nat :=
  if value.toInt < 0 then 2 * value.toInt.natAbs + 1 else 2 * value.toInt.natAbs

def written (value : Int64) : Bytes :=
  digits (codeOf value)

theorem shiftLeft_one (word : Int64) : word <<< 1 = word + word := by
  have amount : (1 : Int64).toBitVec.smod 64 = 1#64 := by decide
  apply Int64.toBitVec_inj.mp
  rw [Int64.toBitVec_shiftLeft, amount, Int64.toBitVec_add]
  apply BitVec.eq_of_toNat_eq
  simp [Nat.shiftLeft_eq, Nat.mul_two]

theorem double_or_one (word : Int64) : (word + word) ||| 1 = word + word + 1 := by
  apply Int64.toBitVec_inj.mp
  apply BitVec.eq_of_toNat_eq
  have even : (word.toBitVec + word.toBitVec).toNat =
      2 ^ 1 * ((word.toBitVec + word.toBitVec).toNat / 2) := by
    rw [BitVec.toNat_add]
    omega
  have bound := (word.toBitVec + word.toBitVec).isLt
  simp only [Int64.toBitVec_or, Int64.toBitVec_add, Int64.toBitVec_one, BitVec.toNat_or]
  rw [BitVec.toNat_add _ (1#64), show (1#64).toNat = 1 from rfl, even,
    ← Nat.two_pow_add_eq_or_of_lt (by decide : 1 < 2 ^ 1)]
  omega

theorem toInt_shiftRight_one (word : Int64) : (word >>> 1).toInt = word.toInt / 2 := by
  have amount : (1 : Int64).toBitVec.smod 64 = 1#64 := by decide
  rw [← Int64.toInt_toBitVec, Int64.toBitVec_shiftRight, amount]
  simp [BitVec.sshiftRight', BitVec.toInt_sshiftRight, Int.shiftRight_eq_div_pow]

theorem ofNat_and_one (code : Nat) :
    (Int64.ofNat code &&& 1 == 1) = decide (code % 2 = 1) := by
  rw [Bool.eq_iff_iff]
  simp only [beq_iff_eq, decide_eq_true_eq, ← Int64.toBitVec_inj, Int64.toBitVec_and,
    ← BitVec.toNat_inj, BitVec.toNat_and]
  simp

theorem codeOf_lt {value : Int64} (small : Small value) : codeOf value < 2 ^ 63 := by
  unfold Small at small
  unfold codeOf
  split <;> omega

theorem signed_eq_ofNat {value : Int64} (small : Small value) :
    signed value = Int64.ofNat (codeOf value) := by
  unfold Small at small
  have negated : (-value).toInt = -value.toInt := by
    rw [Int64.toInt_neg, Int.bmod_eq_of_le (by omega) (by omega)]
  rw [signed, shiftLeft_one, shiftLeft_one, double_or_one]
  apply Int64.toInt_inj.mp
  rw [Int64.toInt_ofNat_of_lt (codeOf_lt small), codeOf]
  by_cases negative : value.toInt < 0
  · have doubled : (-value + -value).toInt = -value.toInt + -value.toInt := by
      rw [Int64.toInt_add, negated, Int.bmod_eq_of_le (by omega) (by omega)]
    rw [if_pos (Int64.lt_iff_toInt_lt.mpr negative), if_pos negative, Int64.toInt_add,
      doubled, Int64.toInt_one, Int.bmod_eq_of_le (by omega) (by omega)]
    omega
  · rw [if_neg (fun less => negative (Int64.lt_iff_toInt_lt.mp less)), if_neg negative,
      Int64.toInt_add, Int.bmod_eq_of_le (by omega) (by omega)]
    omega

/-- The sign and the magnitude of a code are those of the number it was made for. -/
theorem unsigned_codeOf {value : Int64} (small : Small value) :
    unsigned (codeOf value) = value := by
  have bound := codeOf_lt small
  unfold Small at small
  have half : (Int64.ofNat (codeOf value) >>> 1).toInt = value.toInt.natAbs := by
    rw [toInt_shiftRight_one, Int64.toInt_ofNat_of_lt bound, codeOf]
    split <;> omega
  apply Int64.toInt_inj.mp
  simp only [unsigned, ofNat_and_one, decide_eq_true_eq]
  by_cases negative : value.toInt < 0
  · rw [if_pos (by rw [codeOf, if_pos negative]; omega), Int64.toInt_neg, half,
      Int.bmod_eq_of_le (by omega) (by omega)]
    omega
  · rw [if_neg (by rw [codeOf, if_neg negative]; omega), half]
    omega

theorem encode?_eq_written {value : Int64} (small : Small value) :
    encode? value = some (written value) := by
  have bound := codeOf_lt small
  have nonnegative : ¬Int64.ofNat (codeOf value) < 0 := by
    rw [Int64.lt_iff_toInt_lt, Int64.toInt_ofNat_of_lt bound, Int64.toInt_zero]
    omega
  have restored : (Int64.ofNat (codeOf value)).toNatClampNeg = codeOf value := by
    rw [← Int64.toNat_toInt, Int64.toInt_ofNat_of_lt bound, Int.toNat_natCast]
  rw [encode?, signed_eq_ofNat small, if_neg nonnegative, restored, written]

end Vlq

namespace Base64

theorem value?_digit : ∀ value < 64, value? (digit value) = some value := by
  decide

theorem digit_ne_separator : ∀ value < 64, digit value ≠ 59 ∧ digit value ≠ 44 := by
  decide

end Base64

namespace Vlq

theorem digits_of_lt {code : Nat} (last : code < radix) :
    digits code = [Base64.digit code] := by
  rw [digits, if_pos last]

theorem digits_of_le {code : Nat} (more : radix ≤ code) :
    digits code = Base64.digit (code % radix + radix) :: digits (code / radix) := by
  rw [digits, if_neg (Nat.not_lt.mpr more)]

end Vlq

namespace Mappings

namespace Reader

theorem run_cons_of_step {reader next : Reader} {byte : UInt8} (rest : Bytes)
    (stepped : reader.step byte = .ok next) : reader.run (byte :: rest) = next.run rest := by
  rw [run, stepped]

theorem digit_last (reader : Reader) (number : Pending) {code : Nat}
    (last : code < Vlq.radix) :
    reader.digit number (Base64.digit code) =
      .ok { reader with
            offset := reader.offset + 1
            number := none
            fields :=
              Vlq.unsigned (number.code + code * Vlq.radix ^ number.digits)
                :: reader.fields } := by
  have value := Base64.value?_digit code (Nat.lt_trans last (by decide))
  simp only [digit, value, if_pos last, Nat.mod_eq_of_lt last]
  rfl

theorem digit_more (reader : Reader) (number : Pending) {payload : Nat}
    (low : payload < Vlq.radix) (room : number.digits + 1 < Vlq.maxDigits) :
    reader.digit number (Base64.digit (payload + Vlq.radix)) =
      .ok { reader with
            offset := reader.offset + 1
            number :=
              some ⟨number.code + payload * Vlq.radix ^ number.digits, number.digits + 1⟩ } := by
  have value := Base64.value?_digit (payload + Vlq.radix) (by unfold Vlq.radix at *; omega)
  have high : ¬payload + Vlq.radix < Vlq.radix := by omega
  have payloadOnly : (payload + Vlq.radix) % Vlq.radix = payload := by
    rw [Nat.add_mod_right, Nat.mod_eq_of_lt low]
  simp only [digit, value, if_neg high, if_pos room, payloadOnly]
  rfl

/-- The digits of a code complete a number of which some digits may have been read.  The
first digit is taken by whatever step the reader is in; the others go to the number. -/
theorem run_digits (reader : Reader) (number : Pending) (code : Nat)
    (enters : ∀ value < 64,
      reader.step (Base64.digit value) = reader.digit number (Base64.digit value))
    (short : number.digits < Vlq.maxDigits)
    (fits : code < Vlq.radix ^ (Vlq.maxDigits - number.digits)) :
    ∃ offset, ∀ rest,
      reader.run (Vlq.digits code ++ rest) =
        Reader.run
          { reader with
            offset := offset
            number := none
            fields :=
              Vlq.unsigned (number.code + code * Vlq.radix ^ number.digits)
                :: reader.fields }
          rest := by
  induction code using Nat.strong_induction_on generalizing reader number with
  | h code induction =>
      by_cases last : code < Vlq.radix
      · refine ⟨reader.offset + 1, fun rest => ?_⟩
        have stepped := digit_last reader number last
        rw [← enters code (Nat.lt_trans last (by decide))] at stepped
        rw [Vlq.digits_of_lt last, List.singleton_append, run_cons_of_step rest stepped]
      · have more : Vlq.radix ≤ code := Nat.le_of_not_lt last
        have low : code % Vlq.radix < Vlq.radix := Nat.mod_lt _ (by decide)
        have room : number.digits + 1 < Vlq.maxDigits := by
          by_contra full
          have exponent : Vlq.maxDigits - number.digits = 1 := by omega
          rw [exponent, Nat.pow_one] at fits
          omega
        have stepped := digit_more reader number low room
        rw [← enters _ (by unfold Vlq.radix at *; omega)] at stepped
        have positive : 0 < code := Nat.lt_of_lt_of_le (by decide) more
        have smaller : code / Vlq.radix < code := Nat.div_lt_self positive (by decide)
        have quotientFits :
            code / Vlq.radix < Vlq.radix ^ (Vlq.maxDigits - (number.digits + 1)) := by
          rw [Nat.div_lt_iff_lt_mul (by decide), ← Nat.pow_succ]
          have exponent :
              (Vlq.maxDigits - (number.digits + 1)).succ = Vlq.maxDigits - number.digits := by
            omega
          rwa [exponent]
        obtain ⟨offset, continued⟩ :=
          induction (code / Vlq.radix) smaller
            { reader with
              offset := reader.offset + 1
              number :=
                some ⟨number.code + code % Vlq.radix * Vlq.radix ^ number.digits,
                  number.digits + 1⟩ }
            ⟨number.code + code % Vlq.radix * Vlq.radix ^ number.digits, number.digits + 1⟩
            (fun _ _ => rfl) room quotientFits
        refine ⟨offset, fun rest => ?_⟩
        have recombined :
            number.code + code % Vlq.radix * Vlq.radix ^ number.digits
                + code / Vlq.radix * Vlq.radix ^ (number.digits + 1) =
              number.code + code * Vlq.radix ^ number.digits := by
          conv_rhs => rw [← Nat.mod_add_div code Vlq.radix]
          ring
        rw [Vlq.digits_of_le more, List.cons_append, run_cons_of_step _ stepped, continued,
          recombined]

theorem step_digit {reader : Reader} (idle : reader.number = none)
    (room : reader.fields.length < 5) {value : Nat} (low : value < 64) :
    reader.step (Base64.digit value) = reader.digit ⟨0, 0⟩ (Base64.digit value) := by
  obtain ⟨notLine, notPiece⟩ := Base64.digit_ne_separator value low
  have notFull : ¬reader.fields.length = 5 := by omega
  simp [step, idle, notLine, notPiece, notFull]

/-- A small number is read as one more field. -/
theorem run_written (reader : Reader) {value : Int64} (small : Vlq.Small value)
    (idle : reader.number = none) (room : reader.fields.length < 5) :
    ∃ offset, ∀ rest,
      reader.run (Vlq.written value ++ rest) =
        Reader.run
          { reader with offset := offset, number := none, fields := value :: reader.fields }
          rest := by
  have fits : Vlq.codeOf value < Vlq.radix ^ (Vlq.maxDigits - 0) :=
    Nat.lt_trans (Vlq.codeOf_lt small) (by decide)
  obtain ⟨offset, continued⟩ :=
    run_digits reader ⟨0, 0⟩ (Vlq.codeOf value)
      (fun value low => step_digit idle room low) (by decide) fits
  refine ⟨offset, fun rest => ?_⟩
  rw [Vlq.written, continued, Nat.zero_add, Nat.pow_zero, Nat.mul_one,
    Vlq.unsigned_codeOf small]

theorem run_flatMap_written (reader : Reader) {values : List Int64}
    (small : ∀ value ∈ values, Vlq.Small value)
    (idle : reader.number = none) (room : reader.fields.length + values.length ≤ 5) :
    ∃ offset, ∀ rest,
      reader.run (values.flatMap Vlq.written ++ rest) =
        Reader.run
          { reader with
            offset := offset
            number := none
            fields := values.reverse ++ reader.fields }
          rest := by
  induction values generalizing reader with
  | nil =>
      refine ⟨reader.offset, fun rest => ?_⟩
      cases reader
      cases idle
      rfl
  | cons value values induction =>
      rw [List.length_cons] at room
      obtain ⟨offset, read⟩ :=
        run_written reader (small value (by simp)) idle (by omega)
      obtain ⟨last, continued⟩ :=
        induction { reader with offset := offset, number := none, fields := value :: reader.fields }
          (fun other member => small other (List.mem_cons_of_mem value member)) rfl
          (by simp only [List.length_cons]; omega)
      refine ⟨last, fun rest => ?_⟩
      rw [List.flatMap_cons, List.append_assoc, read, continued]
      simp

/-- The reader behind a segment, when the differences to the segment have been read. -/
def behind (reader : Reader) (segment : Segment) : Reader :=
  { reader with
    fields := []
    cursor := reader.cursor.after segment
    segments := segment :: reader.segments }

theorem add_sub_restores (base value : Int64) : base + (value - base) = value := by
  rw [Int64.add_comm, Int64.sub_add_cancel]

theorem closePiece_differences (reader : Reader) (segment : Segment)
    (fields : reader.fields = (reader.cursor.differences segment).reverse) :
    reader.closePiece = .ok (reader.behind segment) := by
  obtain ⟨column, source, line, sourceColumn, name⟩ := segment
  by_cases nameless : name = Segment.noName
  · simp [closePiece, fields, Cursor.differences, Cursor.after, behind, nameless,
      add_sub_restores]
  · simp [closePiece, fields, Cursor.differences, Cursor.after, behind, nameless,
      add_sub_restores]

end Reader

theorem length_differences_le (cursor : Cursor) (segment : Segment) :
    (cursor.differences segment).length ≤ 5 := by
  unfold Cursor.differences
  split <;> simp

/-- The differences of the segments of a line, from a cursor on. -/
def pieceDifferences (cursor : Cursor) : List Segment → List (List Int64)
  | [] => []
  | segment :: segments =>
      cursor.differences segment :: pieceDifferences (cursor.after segment) segments

/-- One step of collecting the differences of a line, latest first. -/
def noteDifferences (state : List (List Int64) × Cursor) (segment : Segment) :
    List (List Int64) × Cursor :=
  (state.2.differences segment :: state.1, state.2.after segment)

theorem foldl_noteDifferences (line : List Segment) (done : List (List Int64))
    (cursor : Cursor) :
    line.foldl noteDifferences (done, cursor) =
      ((pieceDifferences cursor line).reverse ++ done, line.foldl Cursor.after cursor) := by
  induction line generalizing done cursor with
  | nil => rfl
  | cons segment line induction =>
      rw [List.foldl_cons, noteDifferences, induction]
      simp [pieceDifferences]

theorem lineDifferences_eq (cursor : Cursor) (line : List Segment) :
    lineDifferences cursor line =
      (pieceDifferences cursor line, line.foldl Cursor.after cursor) := by
  change ((line.foldl noteDifferences ([], cursor)).1.reverse,
    (line.foldl noteDifferences ([], cursor)).2) = _
  simp [foldl_noteDifferences]

/-- The differences of lines, from a cursor on. -/
def differencesFrom (cursor : Cursor) : Mappings → List (List (List Int64))
  | [] => []
  | line :: lines =>
      pieceDifferences cursor.nextLine line
        :: differencesFrom (line.foldl Cursor.after cursor.nextLine) lines

def noteLine (state : List (List (List Int64)) × Cursor) (line : List Segment) :
    List (List (List Int64)) × Cursor :=
  ((lineDifferences state.2.nextLine line).1 :: state.1,
    (lineDifferences state.2.nextLine line).2)

theorem foldl_noteLine (lines : Mappings) (done : List (List (List Int64)))
    (cursor : Cursor) :
    (lines.foldl noteLine (done, cursor)).1 =
      (differencesFrom cursor lines).reverse ++ done := by
  induction lines generalizing done cursor with
  | nil => rfl
  | cons line lines induction =>
      rw [List.foldl_cons, noteLine, induction, lineDifferences_eq]
      simp [differencesFrom]

theorem allDifferences_eq (lines : Mappings) :
    allDifferences lines = differencesFrom Cursor.start lines := by
  change (lines.foldl noteLine ([], Cursor.start)).1.reverse = _
  simp [foldl_noteLine]

/-- Every difference that is written for the lines is small. -/
def SmallDifferences (lines : Mappings) : Prop :=
  ∀ pieces ∈ allDifferences lines, ∀ differences ∈ pieces, ∀ value ∈ differences,
    Vlq.Small value

theorem mapM_eq_some_map {α β : Type} {partialMap : α → Option β} {totalMap : α → β}
    {items : List α} (defined : ∀ item ∈ items, partialMap item = some (totalMap item)) :
    items.mapM partialMap = some (items.map totalMap) := by
  induction items with
  | nil => rfl
  | cons item items induction =>
      rw [List.mapM_cons, defined item (by simp),
        induction (fun other member => defined other (List.mem_cons_of_mem item member))]
      rfl

/-- The written form of the differences of a line. -/
def writtenLine (pieces : List (List Int64)) : Bytes :=
  Bytes.join (utf8 ",") (pieces.map fun differences => differences.flatMap Vlq.written)

theorem encodePiece?_eq {differences : List Int64}
    (small : ∀ value ∈ differences, Vlq.Small value) :
    encodePiece? differences = some (differences.flatMap Vlq.written) := by
  rw [encodePiece?,
    mapM_eq_some_map fun value member => Vlq.encode?_eq_written (small value member)]
  rfl

theorem encodeLine?_eq {pieces : List (List Int64)}
    (small : ∀ differences ∈ pieces, ∀ value ∈ differences, Vlq.Small value) :
    encodeLine? pieces = some (writtenLine pieces) := by
  rw [encodeLine?,
    mapM_eq_some_map fun differences member => encodePiece?_eq (small differences member)]
  rfl

/-- Small differences are written, line by line. -/
theorem encode?_eq {lines : Mappings} (small : SmallDifferences lines) :
    encode? lines = some (Bytes.join (utf8 ";") ((allDifferences lines).map writtenLine)) := by
  rw [encode?, mapM_eq_some_map fun pieces member => encodeLine?_eq (small pieces member)]
  rfl

theorem utf8_comma : utf8 "," = [44] := rfl

theorem utf8_semicolon : utf8 ";" = [59] := rfl

theorem join_cons_cons (separator first second : Bytes) (parts : List Bytes) :
    Bytes.join separator (first :: second :: parts) =
      first ++ (separator ++ Bytes.join separator (second :: parts)) := by
  simp [Bytes.join]

namespace Reader

/-- The reader has no number and no piece open. -/
def Clear (reader : Reader) : Prop :=
  reader.number = none ∧ reader.fields = []

/-- What reading the written form of a line leads to, up to the closing of its last
piece. -/
structure ReachesLine (reader last : Reader) (line : List Segment) : Prop where
  idle : last.number = none
  closes : ∃ closed, last.closePiece = .ok closed ∧
    closed.cursor = line.foldl Cursor.after reader.cursor ∧
    closed.segments = line.reverse ++ reader.segments ∧
    closed.lines = reader.lines ∧ closed.Clear

theorem run_line (reader : Reader) (line : List Segment) (clear : reader.Clear)
    (small : ∀ differences ∈ pieceDifferences reader.cursor line, ∀ value ∈ differences,
      Vlq.Small value) :
    ∃ last,
      (∀ rest,
        reader.run (writtenLine (pieceDifferences reader.cursor line) ++ rest) =
          last.run rest) ∧
      reader.ReachesLine last line := by
  induction line generalizing reader with
  | nil =>
      refine ⟨reader, fun rest => rfl, clear.1, reader, ?_, rfl, rfl, rfl, clear⟩
      simp [closePiece, clear.2]
  | cons segment line induction =>
      have differencesSmall : ∀ value ∈ reader.cursor.differences segment, Vlq.Small value :=
        small _ (by simp [pieceDifferences])
      obtain ⟨offset, read⟩ :=
        run_flatMap_written reader differencesSmall clear.1
          (by simpa [clear.2] using length_differences_le reader.cursor segment)
      let opened : Reader :=
        { reader with
          offset := offset
          number := none
          fields := (reader.cursor.differences segment).reverse ++ reader.fields }
      have closed : opened.closePiece = .ok (opened.behind segment) :=
        closePiece_differences opened segment (by simp [opened, clear.2])
      cases line with
      | nil =>
          refine ⟨opened, fun rest => ?_, rfl, opened.behind segment, closed, rfl, rfl, rfl,
            rfl, rfl⟩
          simpa [writtenLine, pieceDifferences, Bytes.join] using read rest
      | cons second line =>
          let next : Reader := { opened.behind segment with offset := opened.offset + 1 }
          have stepped : opened.step 44 = .ok next := by
            have idle : opened.number = none := rfl
            simp [step, idle, closed, next]
          obtain ⟨last, continued, reaches⟩ :=
            induction next ⟨rfl, rfl⟩
              (fun differences member => small differences (List.mem_cons_of_mem _ member))
          obtain ⟨final, closes, cursor, segments, lines, finalClear⟩ := reaches.closes
          refine ⟨last, fun rest => ?_, reaches.idle, final, closes, cursor, ?_, lines,
            finalClear⟩
          · rw [← continued rest, ← run_cons_of_step _ stepped, ← read]
            simp [writtenLine, pieceDifferences, join_cons_cons, utf8_comma, next, opened, behind]
          · rw [segments]
            simp [next, opened, behind]

/-- Reading the written form of lines adds these lines. -/
theorem run_lines (reader : Reader) {lines : Mappings} (nonempty : lines ≠ []) (cursor : Cursor)
    (clear : reader.Clear) (fresh : reader.segments = [])
    (starts : reader.cursor = cursor.nextLine)
    (small : ∀ pieces ∈ differencesFrom cursor lines, ∀ differences ∈ pieces,
      ∀ value ∈ differences, Vlq.Small value) :
    reader.run (Bytes.join (utf8 ";") ((differencesFrom cursor lines).map writtenLine)) =
      .ok (reader.lines.reverse ++ lines) := by
  induction lines generalizing reader cursor with
  | nil => exact absurd rfl nonempty
  | cons line lines induction =>
      obtain ⟨last, read, reaches⟩ :=
        run_line reader line clear (by
          rw [starts]
          exact small _ (by simp [differencesFrom]))
      obtain ⟨closed, closes, closedCursor, segments, closedLines, closedClear⟩ := reaches.closes
      rw [fresh, List.append_nil] at segments
      cases lines with
      | nil =>
          have finished : last.run [] = .ok (reader.lines.reverse ++ [line]) := by
            simp [run, finish, reaches.idle, closes, closeLine, segments, closedLines]
          rw [← finished, ← read, starts]
          simp [differencesFrom, Bytes.join]
      | cons second lines =>
          let next : Reader := { closed.closeLine with offset := last.offset + 1 }
          have stepped : last.step 59 = .ok next := by
            simp [step, reaches.idle, closes, next]
          have continued :=
            induction next (by simp) (line.foldl Cursor.after cursor.nextLine)
              ⟨closedClear.1, closedClear.2⟩ rfl (by simp [next, closeLine, closedCursor, starts])
              (fun pieces member => small pieces (List.mem_cons_of_mem _ member))
          have nextLines : next.lines = line :: reader.lines := by
            simp [next, closeLine, segments, closedLines]
          rw [nextLines, List.reverse_cons, List.append_assoc] at continued
          rw [show line :: second :: lines = [line] ++ (second :: lines) from rfl, ← continued,
            ← run_cons_of_step _ stepped, ← read, starts]
          simp [differencesFrom, join_cons_cons, utf8_semicolon]

end Reader

/-- Mappings with small differences are read back as they were written. -/
theorem decode_encode_of_small {lines : Mappings} (nonempty : lines ≠ [])
    (small : SmallDifferences lines) : decode (encode lines) = .ok lines := by
  rw [encode, encode?_eq small, Option.getD_some, allDifferences_eq, decode]
  unfold SmallDifferences at small
  rw [allDifferences_eq] at small
  exact Reader.run_lines .start nonempty .start ⟨rfl, rfl⟩ rfl rfl small

/-- A field that leaves room for the difference to any other such field. -/
def Modest (field : Int64) : Prop :=
  0 ≤ field.toInt ∧ field.toInt < 2 ^ 62

theorem small_sub {left right : Int64} (leftModest : Modest left)
    (rightModest : Modest right) : Vlq.Small (left - right) := by
  unfold Modest at leftModest rightModest
  have difference : (left - right).toInt = left.toInt - right.toInt := by
    rw [Int64.toInt_sub, Int.bmod_eq_of_le (by omega) (by omega)]
  unfold Vlq.Small
  omega

/-- All fields of a segment are modest, where it has them. -/
structure ModestSegment (segment : Segment) : Prop where
  generatedColumn : Modest segment.generatedColumn
  sourceIndex : Modest segment.sourceIndex
  sourceLine : Modest segment.sourceLine
  sourceColumn : Modest segment.sourceColumn
  nameIndex : segment.nameIndex ≠ Segment.noName → Modest segment.nameIndex

structure ModestCursor (cursor : Cursor) : Prop where
  generatedColumn : Modest cursor.generatedColumn
  sourceIndex : Modest cursor.sourceIndex
  sourceLine : Modest cursor.sourceLine
  sourceColumn : Modest cursor.sourceColumn
  nameIndex : Modest cursor.nameIndex

theorem modest_zero : Modest 0 := by
  constructor <;> decide

theorem modest_ofNat {value : Nat} (small : value < 2 ^ 62) : Modest (Int64.ofNat value) := by
  unfold Modest
  rw [Int64.toInt_ofNat_of_lt (by omega)]
  omega

theorem modestCursor_start : ModestCursor .start :=
  ⟨modest_zero, modest_zero, modest_zero, modest_zero, modest_zero⟩

theorem ModestCursor.nextLine {cursor : Cursor} (modest : ModestCursor cursor) :
    ModestCursor cursor.nextLine :=
  { modest with generatedColumn := modest_zero }

theorem ModestCursor.after {cursor : Cursor} {segment : Segment}
    (modest : ModestCursor cursor) (segmentModest : ModestSegment segment) :
    ModestCursor (cursor.after segment) where
  generatedColumn := segmentModest.generatedColumn
  sourceIndex := segmentModest.sourceIndex
  sourceLine := segmentModest.sourceLine
  sourceColumn := segmentModest.sourceColumn
  nameIndex := by
    by_cases nameless : segment.nameIndex = Segment.noName
    · simpa [Cursor.after, nameless] using modest.nameIndex
    · simpa [Cursor.after, nameless] using segmentModest.nameIndex nameless

theorem ModestCursor.foldl_after {cursor : Cursor} {line : List Segment}
    (modest : ModestCursor cursor) (lineModest : ∀ segment ∈ line, ModestSegment segment) :
    ModestCursor (line.foldl Cursor.after cursor) := by
  induction line generalizing cursor with
  | nil => exact modest
  | cons segment line induction =>
      exact induction (modest.after (lineModest segment (by simp)))
        (fun other member => lineModest other (List.mem_cons_of_mem _ member))

theorem ModestCursor.small_differences {cursor : Cursor} {segment : Segment}
    (modest : ModestCursor cursor) (segmentModest : ModestSegment segment) :
    ∀ value ∈ cursor.differences segment, Vlq.Small value := by
  have columnSmall := small_sub segmentModest.generatedColumn modest.generatedColumn
  have sourceSmall := small_sub segmentModest.sourceIndex modest.sourceIndex
  have lineSmall := small_sub segmentModest.sourceLine modest.sourceLine
  have sourceColumnSmall := small_sub segmentModest.sourceColumn modest.sourceColumn
  intro value member
  by_cases nameless : segment.nameIndex = Segment.noName
  · simp only [Cursor.differences, nameless, beq_self_eq_true, if_true, List.append_nil,
      List.mem_cons, List.not_mem_nil, or_false] at member
    rcases member with rfl | rfl | rfl | rfl <;> assumption
  · have nameSmall := small_sub (segmentModest.nameIndex nameless) modest.nameIndex
    simp only [Cursor.differences, beq_eq_false_iff_ne.mpr nameless, List.mem_append,
      List.mem_cons, List.not_mem_nil, or_false] at member
    rcases member with (rfl | rfl | rfl | rfl) | named
    · assumption
    · assumption
    · assumption
    · assumption
    · obtain rfl : value = segment.nameIndex - cursor.nameIndex := by simpa using named
      exact nameSmall

theorem ModestCursor.small_pieceDifferences {cursor : Cursor} {line : List Segment}
    (modest : ModestCursor cursor) (lineModest : ∀ segment ∈ line, ModestSegment segment) :
    ∀ differences ∈ pieceDifferences cursor line, ∀ value ∈ differences, Vlq.Small value := by
  induction line generalizing cursor with
  | nil => simp [pieceDifferences]
  | cons segment line induction =>
      intro differences member
      have segmentModest := lineModest segment (by simp)
      rcases List.mem_cons.mp member with rfl | later
      · exact modest.small_differences segmentModest
      · exact induction (modest.after segmentModest)
          (fun other otherMember => lineModest other (List.mem_cons_of_mem _ otherMember))
          differences later

theorem ModestCursor.small_differencesFrom {cursor : Cursor} {lines : Mappings}
    (modest : ModestCursor cursor)
    (linesModest : ∀ line ∈ lines, ∀ segment ∈ line, ModestSegment segment) :
    ∀ pieces ∈ differencesFrom cursor lines, ∀ differences ∈ pieces,
      ∀ value ∈ differences, Vlq.Small value := by
  induction lines generalizing cursor with
  | nil => simp [differencesFrom]
  | cons line lines induction =>
      intro pieces member
      have lineModest := linesModest line (by simp)
      rcases List.mem_cons.mp member with rfl | later
      · exact modest.nextLine.small_pieceDifferences lineModest
      · exact induction (modest.nextLine.foldl_after lineModest)
          (fun other otherMember => linesModest other (List.mem_cons_of_mem _ otherMember))
          pieces later

theorem smallDifferences_of_modest {lines : Mappings}
    (modest : ∀ line ∈ lines, ∀ segment ∈ line, ModestSegment segment) :
    SmallDifferences lines := by
  unfold SmallDifferences
  rw [allDifferences_eq]
  exact modestCursor_start.small_differencesFrom modest

/-- Mappings whose fields are modest are read back as they were written. -/
theorem decode_encode_of_modest {lines : Mappings} (nonempty : lines ≠ [])
    (modest : ∀ line ∈ lines, ∀ segment ∈ line, ModestSegment segment) :
    decode (encode lines) = .ok lines :=
  decode_encode_of_small nonempty (smallDifferences_of_modest modest)

/-- Writing mappings whose fields are modest comes to an end. -/
theorem exists_encode?_of_modest {lines : Mappings}
    (modest : ∀ line ∈ lines, ∀ segment ∈ line, ModestSegment segment) :
    ∃ text, encode? lines = some text :=
  ⟨_, encode?_eq (smallDifferences_of_modest modest)⟩

/-- The mappings have the same segments on every line, though one may end with more empty
lines. -/
def SameLines (left right : Mappings) : Prop :=
  ∀ line, left.getD line [] = right.getD line []

/-- Modest mappings are read back, though nothing is read back as one empty line. -/
theorem exists_sameLines_of_modest {lines : Mappings}
    (modest : ∀ line ∈ lines, ∀ segment ∈ line, ModestSegment segment) :
    ∃ read, decode (encode lines) = .ok read ∧ SameLines read lines := by
  by_cases empty : lines = []
  · subst empty
    refine ⟨[[]], rfl, ?_⟩
    intro line
    cases line with
    | zero => rfl
    | succ line => rfl
  · exact ⟨lines, decode_encode_of_modest empty modest, fun line => rfl⟩

end Mappings

end Reroute

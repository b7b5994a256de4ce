import Mathlib
import Reroute.Proofs.SourceMap.RoundTrip

/-!
# What the written form of mappings may be

A text is cut at semicolons into lines and each line at commas into pieces.  It is the
written form of mappings exactly when every piece that is not empty spells one, four or
five numbers.  The fields of a segment are then sums of numbers: the generated column over
the pieces of its line, the other fields over all pieces so far that have them.

The reader passes over the bytes once.  Between two pieces it stands where the pieces
behind it put it, and inside a piece it holds the numbers that are complete and the digits
of one that is not.
-/

namespace Reroute

/-- The digits in the order of their values. -/
def Base64.alphabet : Bytes :=
  utf8 "ABCDEFGHIJKLMNOPQRSTUVWXYZabcdefghijklmnopqrstuvwxyz0123456789+/"

/-- The value of a digit is its place in the alphabet. -/
@[simp] theorem Base64.idxOf?_alphabet (byte : UInt8) : alphabet.idxOf? byte = value? byte := by
  have all : ∀ code < 256, alphabet.idxOf? code.toUInt8 = value? code.toUInt8 := by
    decide +kernel
  simpa using all byte.toNat byte.toNat_lt

theorem Base64.idxOf?_alphabet_digit (value : Nat) (low : value < 64) :
    alphabet.idxOf? (digit value) = some value :=
  (idxOf?_alphabet _).trans (value?_digit value low)

theorem Base64.ne_separator_of_idxOf? {byte : UInt8} {value : Nat}
    (found : alphabet.idxOf? byte = some value) : byte ≠ 59 ∧ byte ≠ 44 := by
  rw [idxOf?_alphabet] at found
  constructor
  · rintro rfl
    cases found
  · rintro rfl
    cases found

namespace Vlq

/-- A digit that says that more digits follow. -/
def Continues (byte : UInt8) : Prop :=
  ∃ value, Base64.alphabet.idxOf? byte = some value ∧ radix ≤ value

/-- A digit that says that it is the last. -/
def Ends (byte : UInt8) : Prop :=
  ∃ value, Base64.alphabet.idxOf? byte = some value ∧ value < radix

/-- A number as it may be spelled, not only as it is written: the last digits may be
empty of payload. -/
def Spelling (text : Bytes) : Prop :=
  ∃ front last, text = front ++ [last] ∧ front.length < maxDigits ∧
    (∀ byte ∈ front, Continues byte) ∧ Ends last

def payload (byte : UInt8) : Nat :=
  (Base64.alphabet.idxOf? byte).getD 0 % radix

/-- The payloads of digits put together, least significant first. -/
def spelledCode (text : Bytes) : Nat :=
  Nat.ofDigits radix (text.map payload)

/-- The number that digits spell: a word whose lowest bit is the sign of what is above. -/
def spelledNumber (text : Bytes) : Int :=
  let word := Int.bmod (spelledCode text) (2 ^ 64)
  if spelledCode text % 2 = 1 then -(word / 2) else word / 2

@[simp] theorem spelledCode_nil : spelledCode [] = 0 := rfl

theorem spelledCode_append (front : Bytes) (byte : UInt8) :
    spelledCode (front ++ [byte]) = spelledCode front + payload byte * radix ^ front.length := by
  simp [spelledCode, Nat.ofDigits_append, Nat.mul_comm]

theorem Continues.ne_separator {byte : UInt8} (continues : Continues byte) :
    byte ≠ 59 ∧ byte ≠ 44 := by
  obtain ⟨value, found, -⟩ := continues
  exact Base64.ne_separator_of_idxOf? found

theorem Ends.ne_separator {byte : UInt8} (ends : Ends byte) : byte ≠ 59 ∧ byte ≠ 44 := by
  obtain ⟨value, found, -⟩ := ends
  exact Base64.ne_separator_of_idxOf? found

theorem Spelling.ne_nil {text : Bytes} (spelling : Spelling text) : text ≠ [] := by
  obtain ⟨front, last, rfl, -⟩ := spelling
  simp

/-- The reader of numbers computes the number that digits spell. -/
theorem unsigned_spelledCode (text : Bytes) :
    unsigned (spelledCode text) = Int64.ofInt (spelledNumber text) := by
  have half : (Int64.ofNat (spelledCode text) >>> 1).toInt =
      Int.bmod (spelledCode text) (2 ^ 64) / 2 := by
    rw [toInt_shiftRight_one, Int64.toInt_ofNat']
    rfl
  rw [unsigned, spelledNumber]
  simp only [ofNat_and_one, decide_eq_true_eq]
  split
  · rw [Int64.ofInt_neg, ← half, Int64.ofInt_toInt]
  · rw [← half, Int64.ofInt_toInt]

end Vlq

namespace Bytes

theorem splitOn_ne_nil (separator : UInt8) (text : Bytes) : splitOn separator text ≠ [] := by
  simp [splitOn]

theorem splitOn_cons_self (separator : UInt8) (text : Bytes) :
    splitOn separator (separator :: text) = [] :: splitOn separator text := by
  simp [splitOn]

theorem splitOn_cons_of_ne {separator byte : UInt8} (different : byte ≠ separator)
    (text : Bytes) :
    ∃ part parts, splitOn separator text = part :: parts ∧
      splitOn separator (byte :: text) = (byte :: part) :: parts := by
  refine ⟨_, _, rfl, ?_⟩
  simp [splitOn, different]

theorem join_splitOn (separator : UInt8) (text : Bytes) :
    join [separator] (splitOn separator text) = text := by
  induction text with
  | nil => rfl
  | cons byte text induction =>
      by_cases found : byte = separator
      · subst found
        obtain ⟨part, parts, split⟩ := List.exists_cons_of_ne_nil (splitOn_ne_nil byte text)
        rw [split] at induction
        rw [splitOn_cons_self, split, Mappings.join_cons_cons, induction]
        rfl
      · obtain ⟨part, parts, split, consSplit⟩ := splitOn_cons_of_ne found text
        rw [split] at induction
        rw [consSplit, ← induction]
        cases parts with
        | nil => rfl
        | cons second parts => rw [Mappings.join_cons_cons, Mappings.join_cons_cons]; rfl

/-- A part holds bytes of the text other than the separator. -/
theorem of_mem_splitOn {separator byte : UInt8} {text part : Bytes}
    (member : part ∈ splitOn separator text) (inside : byte ∈ part) :
    byte ≠ separator ∧ byte ∈ text := by
  induction text generalizing part with
  | nil =>
      obtain rfl : part = [] := by simpa [splitOn] using member
      simp at inside
  | cons first text induction =>
      by_cases found : first = separator
      · subst found
        rw [splitOn_cons_self] at member
        rcases List.mem_cons.mp member with rfl | later
        · simp at inside
        · obtain ⟨different, known⟩ := induction later inside
          exact ⟨different, List.mem_cons_of_mem _ known⟩
      · obtain ⟨part, parts, split, consSplit⟩ := splitOn_cons_of_ne found text
        rw [split] at induction
        rw [consSplit] at member
        rcases List.mem_cons.mp member with rfl | later
        · rcases List.mem_cons.mp inside with rfl | behind
          · exact ⟨found, List.mem_cons_self⟩
          · obtain ⟨different, known⟩ := induction List.mem_cons_self behind
            exact ⟨different, List.mem_cons_of_mem _ known⟩
        · obtain ⟨different, known⟩ := induction (List.mem_cons_of_mem _ later) inside
          exact ⟨different, List.mem_cons_of_mem _ known⟩

end Bytes

namespace Mappings

/-- The piece spells the numbers: none when it is empty, and else one, four or five. -/
def Spells (piece : Bytes) (numbers : List Int) : Prop :=
  ∃ numerals : List Bytes, piece = numerals.flatten ∧
    (∀ numeral ∈ numerals, Vlq.Spelling numeral) ∧ numbers = numerals.map Vlq.spelledNumber ∧
    (piece ≠ [] → numerals.length = 1 ∨ numerals.length = 4 ∨ numerals.length = 5)

/-- The text of a line spells the numbers of its pieces. -/
def SpellsLine (part : Bytes) (line : List (List Int)) : Prop :=
  List.Forall₂ Spells (Bytes.splitOn 44 part) line

/-- The text spells the numbers of the pieces of its lines. -/
def Reads (text : Bytes) (reading : List (List (List Int))) : Prop :=
  List.Forall₂ SpellsLine (Bytes.splitOn 59 text) reading

/-- The sum of the numbers at an index over the pieces that have one there. -/
def total (index : Nat) (pieces : List (List Int)) : Int64 :=
  Int64.ofInt (pieces.filterMap fun piece => piece[index]?).sum

/-- The sums of all fields: of the generated column over the pieces of the line, and of the
others over the pieces of the lines above as well. -/
def totals (above front : List (List Int)) : Cursor :=
  { generatedColumn := total 0 front
    sourceIndex := total 1 (above ++ front)
    sourceLine := total 2 (above ++ front)
    sourceColumn := total 3 (above ++ front)
    nameIndex := total 4 (above ++ front) }

/-- The cursor moved by the numbers of a piece, as far as it has them. -/
def Cursor.moved (cursor : Cursor) (piece : List Int) : Cursor :=
  { generatedColumn := cursor.generatedColumn + Int64.ofInt (piece[0]?.getD 0)
    sourceIndex := cursor.sourceIndex + Int64.ofInt (piece[1]?.getD 0)
    sourceLine := cursor.sourceLine + Int64.ofInt (piece[2]?.getD 0)
    sourceColumn := cursor.sourceColumn + Int64.ofInt (piece[3]?.getD 0)
    nameIndex := cursor.nameIndex + Int64.ofInt (piece[4]?.getD 0) }

theorem total_append (index : Nat) (pieces : List (List Int)) (piece : List Int) :
    total index (pieces ++ [piece]) = total index pieces + Int64.ofInt (piece[index]?.getD 0) := by
  rw [total, List.filterMap_append, List.sum_append, Int64.ofInt_add, total]
  cases found : piece[index]? with
  | none => simp [found]
  | some number => simp [found]

theorem totals_append (above front : List (List Int)) (piece : List Int) :
    totals above (front ++ [piece]) = (totals above front).moved piece := by
  simp only [totals, Cursor.moved, ← List.append_assoc, total_append]

/-- The segment that a piece makes when the sums up to it are given. -/
def segment? (sums : Cursor) (piece : List Int) : Option Segment :=
  if 4 ≤ piece.length then
    some
      { generatedColumn := sums.generatedColumn
        sourceIndex := sums.sourceIndex
        sourceLine := sums.sourceLine
        sourceColumn := sums.sourceColumn
        nameIndex := if piece.length = 5 then sums.nameIndex else Segment.noName }
  else none

/-- The segments of the pieces of a line behind those in front. -/
def placedFrom (above front : List (List Int)) : List (List Int) → List Segment
  | [] => []
  | piece :: pieces =>
      (segment? (totals above (front ++ [piece])) piece).toList
        ++ placedFrom above (front ++ [piece]) pieces

theorem placedFrom_append (above front pieces : List (List Int)) (piece : List Int) :
    placedFrom above front (pieces ++ [piece]) =
      placedFrom above front pieces
        ++ (segment? (totals above (front ++ (pieces ++ [piece]))) piece).toList := by
  induction pieces generalizing front with
  | nil => simp [placedFrom]
  | cons first pieces induction => simp [placedFrom, induction]

/-- The segments of every line, below the pieces of the lines above. -/
def placed (above : List (List Int)) : List (List (List Int)) → Mappings
  | [] => []
  | line :: lines => placedFrom above [] line :: placed (above ++ line) lines

theorem placed_append (above : List (List Int)) (lines : List (List (List Int)))
    (line : List (List Int)) :
    placed above (lines ++ [line]) =
      placed above lines ++ [placedFrom (above ++ lines.flatten) [] line] := by
  induction lines generalizing above with
  | nil => simp [placed]
  | cons first lines induction => simp [placed, induction]

namespace Reader

/-- Take bytes without ending the text. -/
def advance (reader : Reader) (text : Bytes) : Except Error Reader :=
  text.foldlM step reader

theorem advance_append_eq_ok_iff {reader last : Reader} {front back : Bytes} :
    reader.advance (front ++ back) = .ok last ↔
      ∃ between, reader.advance front = .ok between ∧ between.advance back = .ok last := by
  rw [advance, List.foldlM_append]
  change (reader.advance front >>= fun between => between.advance back) = .ok last ↔ _
  cases reader.advance front with
  | error error => simp [bind, Except.bind]
  | ok between => simp [bind, Except.bind]

theorem advance_cons_eq_ok_iff {reader last : Reader} {byte : UInt8} {text : Bytes} :
    reader.advance (byte :: text) = .ok last ↔
      ∃ next, reader.step byte = .ok next ∧ next.advance text = .ok last := by
  rw [advance, List.foldlM_cons]
  change (reader.step byte >>= fun next => next.advance text) = .ok last ↔ _
  cases reader.step byte with
  | error error => simp [bind, Except.bind]
  | ok next => simp [bind, Except.bind]

theorem advance_singleton (reader : Reader) (byte : UInt8) :
    reader.advance [byte] = reader.step byte := by
  rw [advance, List.foldlM_cons]
  cases reader.step byte with
  | error error => rfl
  | ok next => rfl

theorem step_semicolon (reader : Reader) :
    reader.step 59 =
      match reader.number with
      | some _ => .error (.character 59 reader.offset)
      | none =>
          match reader.closePiece with
          | .ok closed => .ok { closed.closeLine with offset := reader.offset + 1 }
          | .error error => .error error := by
  rw [step]
  cases reader.number with
  | some number => rfl
  | none => rfl

theorem step_comma (reader : Reader) :
    reader.step 44 =
      match reader.number with
      | some _ => .error (.character 44 reader.offset)
      | none =>
          match reader.closePiece with
          | .ok closed => .ok { closed with offset := reader.offset + 1 }
          | .error error => .error error := by
  rw [step]
  cases reader.number with
  | some number => rfl
  | none => rfl

/-- The end of a text closes the last line as a semicolon would. -/
theorem run_eq_ok_iff {reader : Reader} {text : Bytes} {lines : Mappings} :
    reader.run text = .ok lines ↔
      ∃ last, reader.advance (text ++ [59]) = .ok last ∧ lines = last.lines.reverse := by
  induction text generalizing reader with
  | nil =>
      rw [run, finish, List.nil_append, advance_singleton, step_semicolon]
      cases reader.number with
      | some number => simp
      | none =>
          cases reader.closePiece with
          | error error => simp
          | ok closed => simp [eq_comm]
  | cons byte text induction =>
      rw [run, List.cons_append]
      simp only [advance_cons_eq_ok_iff]
      cases reader.step byte with
      | error error => simp
      | ok next => simpa using induction

/-- The reader has read lines and, of the line it is on, some pieces. -/
structure Stands (reader : Reader) (read : List (List (List Int))) (front : List (List Int)) :
    Prop where
  number : reader.number = none
  fields : reader.fields = []
  cursor : reader.cursor = totals read.flatten front
  segments : reader.segments = (placedFrom read.flatten [] front).reverse
  lines : reader.lines = (placed [] read).reverse

/-- The reader behind complete numbers and the first digits of one more. -/
def holding (reader : Reader) (numerals : List Bytes) (pending : Bytes) : Reader :=
  { reader with
    offset := reader.offset + numerals.flatten.length + pending.length
    number :=
      if pending.isEmpty then none else some ⟨Vlq.spelledCode pending, pending.length⟩
    fields := (numerals.map fun numeral => Vlq.unsigned (Vlq.spelledCode numeral)).reverse }

theorem digit_holding_eq_ok_iff {reader next : Reader} {numerals : List Bytes}
    {pending : Bytes} {byte : UInt8} :
    (reader.holding numerals pending).digit ⟨Vlq.spelledCode pending, pending.length⟩ byte =
        .ok next ↔
      (Vlq.Continues byte ∧ pending.length + 1 < Vlq.maxDigits ∧
          next = reader.holding numerals (pending ++ [byte])) ∨
        (Vlq.Ends byte ∧ next = reader.holding (numerals ++ [pending ++ [byte]]) []) := by
  cases found : Base64.value? byte with
  | none => simp [digit, Vlq.Continues, Vlq.Ends, found]
  | some value =>
      have code : Vlq.spelledCode pending + value % Vlq.radix * Vlq.radix ^ pending.length =
          Vlq.spelledCode (pending ++ [byte]) := by
        rw [Vlq.spelledCode_append, Vlq.payload, Base64.idxOf?_alphabet, found, Option.getD_some]
      simp only [digit, found, Nat.pow_eq, code]
      by_cases last : value < Vlq.radix
      · have ended : reader.holding (numerals ++ [pending ++ [byte]]) [] =
            { reader.holding numerals pending with
              offset := (reader.holding numerals pending).offset + 1
              number := none
              fields :=
                Vlq.unsigned (Vlq.spelledCode (pending ++ [byte]))
                  :: (reader.holding numerals pending).fields } := by
          simp [holding, Nat.add_assoc]
        simp [Vlq.Continues, Vlq.Ends, found, last, ended, eq_comm]
      · have continued : reader.holding numerals (pending ++ [byte]) =
            { reader.holding numerals pending with
              offset := (reader.holding numerals pending).offset + 1
              number := some ⟨Vlq.spelledCode (pending ++ [byte]), pending.length + 1⟩ } := by
          simp [holding, Nat.add_assoc]
        by_cases room : pending.length + 1 < Vlq.maxDigits
        · simp [Vlq.Continues, Vlq.Ends, found, last, room, continued, eq_comm,
            Nat.le_of_not_lt last]
        · simp [Vlq.Ends, found, last, room]

/-- What the reader can do with a byte inside a piece. -/
theorem step_holding_eq_ok_iff {reader next : Reader} {numerals : List Bytes} {pending : Bytes}
    {byte : UInt8} (inside : byte ≠ 59 ∧ byte ≠ 44) :
    (reader.holding numerals pending).step byte = .ok next ↔
      (pending = [] → numerals.length ≠ 5) ∧
        ((Vlq.Continues byte ∧ pending.length + 1 < Vlq.maxDigits ∧
            next = reader.holding numerals (pending ++ [byte])) ∨
          (Vlq.Ends byte ∧ next = reader.holding (numerals ++ [pending ++ [byte]]) [])) := by
  rw [← digit_holding_eq_ok_iff]
  cases pending with
  | cons first pending => simp [step, holding]
  | nil =>
      by_cases full : numerals.length = 5
      · simp [step, holding, inside, full]
      · simp [step, holding, inside, full]

theorem holding_nil {reader : Reader} (clear : reader.Clear) : reader.holding [] [] = reader := by
  obtain ⟨idle, fields⟩ := clear
  cases reader
  cases idle
  cases fields
  rfl

/-- Inside a piece the reader holds the numbers and digits that were read. -/
theorem exists_holding_of_advance {reader next : Reader} (clear : reader.Clear) {piece : Bytes}
    (inside : ∀ byte ∈ piece, byte ≠ 59 ∧ byte ≠ 44) (advanced : reader.advance piece = .ok next) :
    ∃ numerals pending, piece = numerals.flatten ++ pending ∧
      (∀ numeral ∈ numerals, Vlq.Spelling numeral) ∧
      (∀ byte ∈ pending, Vlq.Continues byte) ∧ pending.length < Vlq.maxDigits ∧
      next = reader.holding numerals pending := by
  induction piece using List.reverseRecOn generalizing next with
  | nil =>
      cases advanced
      exact ⟨[], [], rfl, by simp, by simp, by decide, (holding_nil clear).symm⟩
  | append_singleton piece byte induction =>
      obtain ⟨between, front, last⟩ := advance_append_eq_ok_iff.mp advanced
      obtain ⟨numerals, pending, rfl, spelled, continued, short, rfl⟩ :=
        induction (fun other member => inside other (List.mem_append_left _ member)) front
      rw [advance_singleton, step_holding_eq_ok_iff (inside byte (by simp))] at last
      rcases last with ⟨-, ⟨continues, room, rfl⟩ | ⟨ends, rfl⟩⟩
      · refine ⟨numerals, pending ++ [byte], by simp, spelled, ?_, by simpa using room, rfl⟩
        intro other member
        rcases List.mem_append.mp member with earlier | new
        · exact continued other earlier
        · obtain rfl : other = byte := by simpa using new
          exact continues
      · refine ⟨numerals ++ [pending ++ [byte]], [], by simp, ?_, by simp, by decide, rfl⟩
        intro numeral member
        rcases List.mem_append.mp member with earlier | new
        · exact spelled numeral earlier
        · obtain rfl : numeral = pending ++ [byte] := by simpa using new
          exact ⟨pending, byte, rfl, short, continued, ends⟩

theorem advance_continued (reader : Reader) {numerals : List Bytes} (room : numerals.length ≠ 5)
    {digits : Bytes} (continued : ∀ byte ∈ digits, Vlq.Continues byte)
    (short : digits.length < Vlq.maxDigits) :
    (reader.holding numerals []).advance digits = .ok (reader.holding numerals digits) := by
  induction digits using List.reverseRecOn with
  | nil => rfl
  | append_singleton digits byte induction =>
      have continues := continued byte (by simp)
      rw [List.length_append, List.length_singleton] at short
      rw [advance_append_eq_ok_iff]
      refine ⟨_, induction (fun other member => continued other (List.mem_append_left _ member))
        (by omega), ?_⟩
      rw [advance_singleton, step_holding_eq_ok_iff continues.ne_separator]
      exact ⟨fun _ => room, .inl ⟨continues, short, rfl⟩⟩

/-- Numbers that may be spelled are read one after the other, up to five of them. -/
theorem advance_flatten {reader : Reader} (clear : reader.Clear) {numerals : List Bytes}
    (spelled : ∀ numeral ∈ numerals, Vlq.Spelling numeral) (few : numerals.length ≤ 5) :
    reader.advance numerals.flatten = .ok (reader.holding numerals []) := by
  induction numerals using List.reverseRecOn with
  | nil => rw [holding_nil clear]; rfl
  | append_singleton numerals numeral induction =>
      obtain ⟨digits, last, rfl, short, continued, ends⟩ := spelled numeral (by simp)
      rw [List.length_append, List.length_singleton] at few
      have room : numerals.length ≠ 5 := by omega
      have before := induction
        (fun other member => spelled other (List.mem_append_left _ member)) (by omega)
      have between := advance_continued reader room continued short
      rw [List.flatten_append, List.flatten_singleton, ← List.append_assoc,
        advance_append_eq_ok_iff]
      refine ⟨_, advance_append_eq_ok_iff.mpr ⟨_, before, between⟩, ?_⟩
      rw [advance_singleton, step_holding_eq_ok_iff ends.ne_separator]
      exact ⟨fun _ => room, .inr ⟨ends, rfl⟩⟩

/-- The reader behind a piece that spells numbers. -/
def behindPiece (reader : Reader) (numbers : List Int) : Reader :=
  { reader with
    fields := []
    cursor := reader.cursor.moved numbers
    segments := (segment? (reader.cursor.moved numbers) numbers).toList ++ reader.segments }

/-- A piece can be closed behind none, one, four or five numbers. -/
theorem closePiece_eq_ok_iff {reader closed : Reader} {numbers : List Int}
    (fields : reader.fields = (numbers.map Int64.ofInt).reverse) :
    reader.closePiece = .ok closed ↔
      (numbers.length = 0 ∨ numbers.length = 1 ∨ numbers.length = 4 ∨ numbers.length = 5) ∧
        closed = reader.behindPiece numbers := by
  have read : reader.fields.reverse = numbers.map Int64.ofInt := by
    rw [fields, List.reverse_reverse]
  rw [closePiece]
  simp only [read]
  rcases numbers with
    _ | ⟨column, _ | ⟨source, _ | ⟨line, _ | ⟨sourceColumn, _ | ⟨name, _ | ⟨more, rest⟩⟩⟩⟩⟩⟩
  · have same : reader.behindPiece [] = reader := by
      cases reader
      cases fields
      simp [behindPiece, Cursor.moved, segment?]
    simp [same, eq_comm]
  · simp [behindPiece, Cursor.moved, segment?, eq_comm]
  · simp
  · simp
  · simp [behindPiece, Cursor.moved, segment?, eq_comm]
  · simp [behindPiece, Cursor.moved, segment?, eq_comm]
  · simp

namespace Stands

variable {reader : Reader} {read : List (List (List Int))} {front : List (List Int)}

theorem clear (stands : reader.Stands read front) : reader.Clear :=
  ⟨stands.number, stands.fields⟩

theorem behindPiece (stands : reader.Stands read front) (numbers : List Int) :
    (reader.behindPiece numbers).Stands read (front ++ [numbers]) where
  number := stands.number
  fields := rfl
  cursor := by
    rw [totals_append, ← stands.cursor]
    rfl
  segments := by
    rw [placedFrom_append, List.nil_append, totals_append, ← stands.cursor, List.reverse_append,
      ← stands.segments, Reader.behindPiece]
    cases segment? (reader.cursor.moved numbers) numbers with
    | none => rfl
    | some segment => rfl
  lines := stands.lines

theorem closeLine (stands : reader.Stands read front) :
    reader.closeLine.Stands (read ++ [front]) [] where
  number := stands.number
  fields := stands.fields
  cursor := by
    rw [Reader.closeLine, stands.cursor]
    simp [totals, Cursor.nextLine, total]
  segments := rfl
  lines := by
    rw [Reader.closeLine, placed_append, stands.segments, stands.lines]
    simp

/-- Where the reader stands does not depend on how many bytes it has counted. -/
theorem offset (stands : reader.Stands read front) (offset : Nat) :
    Reader.Stands { reader with offset := offset } read front :=
  ⟨stands.number, stands.fields, stands.cursor, stands.segments, stands.lines⟩

end Stands

theorem fields_holding (reader : Reader) (numerals : List Bytes) (pending : Bytes) :
    (reader.holding numerals pending).fields =
      ((numerals.map Vlq.spelledNumber).map Int64.ofInt).reverse := by
  simp [holding, Vlq.unsigned_spelledCode]

/-- A separator can only be taken where a piece can be closed. -/
theorem closePiece_of_step {reader next : Reader} {separator : UInt8}
    (separates : separator = 59 ∨ separator = 44) (stepped : reader.step separator = .ok next) :
    reader.number = none ∧ ∃ closed, reader.closePiece = .ok closed := by
  rcases separates with rfl | rfl
  · rw [step_semicolon] at stepped
    split at stepped
    · cases stepped
    · next idle =>
        split at stepped
        · next closed closes => exact ⟨idle, closed, closes⟩
        · cases stepped
  · rw [step_comma] at stepped
    split at stepped
    · cases stepped
    · next idle =>
        split at stepped
        · next closed closes => exact ⟨idle, closed, closes⟩
        · cases stepped

/-- A piece that is read up to a separator spells numbers. -/
theorem exists_spells_of_advance {reader next : Reader} (clear : reader.Clear) {piece : Bytes}
    (inside : ∀ byte ∈ piece, byte ≠ 59 ∧ byte ≠ 44) {separator : UInt8}
    (separates : separator = 59 ∨ separator = 44)
    (advanced : reader.advance (piece ++ [separator]) = .ok next) :
    ∃ numbers, Spells piece numbers := by
  obtain ⟨opened, pieceRead, separated⟩ := advance_append_eq_ok_iff.mp advanced
  obtain ⟨numerals, pending, rfl, spelled, -, -, rfl⟩ :=
    exists_holding_of_advance clear inside pieceRead
  rw [advance_singleton] at separated
  obtain ⟨idle, closed, closes⟩ := closePiece_of_step separates separated
  obtain rfl : pending = [] := by
    cases pending with
    | nil => rfl
    | cons first pending => cases idle
  rw [closePiece_eq_ok_iff (fields_holding reader numerals []), List.length_map] at closes
  refine ⟨numerals.map Vlq.spelledNumber, numerals, by simp, spelled, rfl, ?_⟩
  intro nonempty
  rcases closes.1 with none | some
  · rw [List.length_eq_zero_iff] at none
    simp [none] at nonempty
  · exact some

/-- A piece that spells numbers is read and can be closed. -/
theorem Stands.piece {reader : Reader} {read : List (List (List Int))} {front : List (List Int)}
    (stands : reader.Stands read front) {piece : Bytes} {numbers : List Int}
    (spells : Spells piece numbers) :
    ∃ opened closed, reader.advance piece = .ok opened ∧ opened.number = none ∧
      opened.closePiece = .ok closed ∧ closed.Stands read (front ++ [numbers]) := by
  obtain ⟨numerals, rfl, spelled, rfl, count⟩ := spells
  have counted : numerals.length = 0 ∨ numerals.length = 1 ∨ numerals.length = 4 ∨
      numerals.length = 5 := by
    cases numerals with
    | nil => exact .inl rfl
    | cons numeral numerals =>
        right
        apply count
        simp [(spelled numeral (by simp)).ne_nil]
  refine ⟨reader.holding numerals [], _, advance_flatten stands.clear spelled (by omega), rfl,
    (closePiece_eq_ok_iff (fields_holding reader numerals [])).mpr
      ⟨by simpa using counted, rfl⟩, ?_⟩
  have same : (reader.holding numerals []).behindPiece (numerals.map Vlq.spelledNumber) =
      { reader.behindPiece (numerals.map Vlq.spelledNumber) with
        offset := (reader.holding numerals []).offset } := by
    simp [holding, Reader.behindPiece, stands.number]
  rw [same]
  exact (stands.behindPiece _).offset _

theorem Stands.comma {reader : Reader} {read : List (List (List Int))} {front : List (List Int)}
    (stands : reader.Stands read front) {piece : Bytes} {numbers : List Int}
    (spells : Spells piece numbers) :
    ∃ next, reader.advance (piece ++ [44]) = .ok next ∧ next.Stands read (front ++ [numbers]) := by
  obtain ⟨opened, closed, advanced, idle, closes, closedStands⟩ := stands.piece spells
  refine ⟨_, advance_append_eq_ok_iff.mpr ⟨opened, advanced, ?_⟩,
    closedStands.offset (opened.offset + 1)⟩
  rw [advance_singleton, step_comma, idle, closes]

theorem Stands.semicolon {reader : Reader} {read : List (List (List Int))}
    {front : List (List Int)} (stands : reader.Stands read front) {piece : Bytes}
    {numbers : List Int} (spells : Spells piece numbers) :
    ∃ next, reader.advance (piece ++ [59]) = .ok next ∧
      next.Stands (read ++ [front ++ [numbers]]) [] := by
  obtain ⟨opened, closed, advanced, idle, closes, closedStands⟩ := stands.piece spells
  refine ⟨_, advance_append_eq_ok_iff.mpr ⟨opened, advanced, ?_⟩,
    closedStands.closeLine.offset (opened.offset + 1)⟩
  rw [advance_singleton, step_semicolon, idle, closes]

/-- Items between separators are read one by one when the reader can pass any of them, up
to a separator and up to the end. -/
theorem advance_join {α : Type} {Means : Bytes → α → Prop}
    (At Behind : List α → Reader → Prop) {separator stop : UInt8}
    (passes : ∀ {done reader item value}, At done reader → Means item value →
      ∃ next, reader.advance (item ++ [separator]) = .ok next ∧ At (done ++ [value]) next)
    (stops : ∀ {done reader item value}, At done reader → Means item value →
      ∃ next, reader.advance (item ++ [stop]) = .ok next ∧ Behind (done ++ [value]) next)
    {items : List Bytes} (nonempty : items ≠ []) {values : List α}
    (means : List.Forall₂ Means items values) {done : List α} {reader : Reader}
    (starts : At done reader) :
    ∃ next, reader.advance (Bytes.join [separator] items ++ [stop]) = .ok next ∧
      Behind (done ++ values) next := by
  induction means generalizing reader done with
  | nil => exact absurd rfl nonempty
  | @cons item value items values first means induction =>
      cases means with
      | nil =>
          have single : Bytes.join [separator] [item] = item := by simp [Bytes.join]
          rw [single]
          exact stops starts first
      | cons second means =>
          obtain ⟨between, passed, reached⟩ := passes starts first
          obtain ⟨next, rest, behind⟩ := induction (by simp) reached
          refine ⟨next, ?_, by simpa using behind⟩
          rw [join_cons_cons, ← List.append_assoc, List.append_assoc, advance_append_eq_ok_iff]
          exact ⟨between, passed, rest⟩

/-- Items between separators that were read all mean something. -/
theorem exists_of_advance_join {α : Type} {Means : Bytes → α → Prop}
    (At : List α → Reader → Prop) {separator stop : UInt8}
    (passes : ∀ {done reader item value}, At done reader → Means item value →
      ∃ next, reader.advance (item ++ [separator]) = .ok next ∧ At (done ++ [value]) next)
    {items : List Bytes}
    (meant : ∀ item ∈ items, ∀ byte, byte = stop ∨ byte = separator → ∀ {done reader next},
      At done reader → reader.advance (item ++ [byte]) = .ok next → ∃ value, Means item value)
    {done : List α} {reader next : Reader} (starts : At done reader)
    (advanced : reader.advance (Bytes.join [separator] items ++ [stop]) = .ok next) :
    ∃ values, List.Forall₂ Means items values := by
  induction items generalizing reader done with
  | nil => exact ⟨[], .nil⟩
  | cons item items induction =>
      have firstMeant := meant item (by simp)
      cases items with
      | nil =>
          have single : Bytes.join [separator] [item] = item := by simp [Bytes.join]
          rw [single] at advanced
          obtain ⟨value, means⟩ := firstMeant stop (.inl rfl) starts advanced
          exact ⟨[value], .cons means .nil⟩
      | cons second items =>
          rw [join_cons_cons, ← List.append_assoc, List.append_assoc,
            advance_append_eq_ok_iff] at advanced
          obtain ⟨between, passed, rest⟩ := advanced
          obtain ⟨value, means⟩ := firstMeant separator (.inr rfl) starts passed
          -- Reading is determined, so the reader is where the meaning of the item puts it.
          obtain ⟨same, samePassed, reached⟩ := passes starts means
          obtain rfl : same = between := Except.ok.inj (samePassed.symm.trans passed)
          obtain ⟨values, later⟩ :=
            induction (fun other member => meant other (List.mem_cons_of_mem _ member)) reached
              rest
          exact ⟨value :: values, .cons means later⟩

theorem Stands.line {reader : Reader} {read : List (List (List Int))}
    (stands : reader.Stands read []) {part : Bytes} {line : List (List Int)}
    (spells : SpellsLine part line) :
    ∃ next, reader.advance (part ++ [59]) = .ok next ∧ next.Stands (read ++ [line]) [] := by
  have advanced :=
    advance_join (fun front reader => reader.Stands read front)
      (fun line reader => reader.Stands (read ++ [line]) [])
      (fun here means => here.comma means) (fun here means => here.semicolon means)
      (Bytes.splitOn_ne_nil 44 part) spells stands
  rwa [Bytes.join_splitOn] at advanced

/-- A line that is read up to its end spells the numbers of its pieces. -/
theorem Stands.exists_line {reader next : Reader} {read : List (List (List Int))}
    (stands : reader.Stands read []) {part : Bytes} (inside : 59 ∉ part)
    (advanced : reader.advance (part ++ [59]) = .ok next) :
    ∃ line, SpellsLine part line := by
  rw [← Bytes.join_splitOn 44 part] at advanced
  refine exists_of_advance_join (fun front reader => reader.Stands read front)
    (fun here means => here.comma means) ?_ stands advanced
  intro piece member separator separates front reader next pieceStands pieceRead
  refine exists_spells_of_advance pieceStands.clear ?_ separates pieceRead
  intro byte byteMember
  obtain ⟨different, known⟩ := Bytes.of_mem_splitOn member byteMember
  exact ⟨fun equality => inside (equality ▸ known), different⟩

end Reader

theorem decode_eq_ok_iff {text : Bytes} {lines : Mappings} :
    decode text = .ok lines ↔ ∃ reading, Reads text reading ∧ lines = placed [] reading := by
  have start : Reader.start.Stands [] [] := ⟨rfl, rfl, rfl, rfl, rfl⟩
  have passed {reading} (reads : Reads text reading) :=
    Reader.advance_join (fun read reader => reader.Stands read [])
      (fun read reader => reader.Stands read []) (fun here means => here.line means)
      (fun here means => here.line means) (Bytes.splitOn_ne_nil 59 text) reads start
  rw [Bytes.join_splitOn] at passed
  rw [decode, Reader.run_eq_ok_iff]
  constructor
  · rintro ⟨last, advanced, rfl⟩
    have found : ∃ reading, Reads text reading := by
      rw [← Bytes.join_splitOn 59 text] at advanced
      refine Reader.exists_of_advance_join (fun read reader => reader.Stands read [])
        (fun here means => here.line means) ?_ start advanced
      intro part member separator separates read reader next stands partRead
      obtain rfl : separator = 59 := by simpa using separates
      refine stands.exists_line ?_ partRead
      intro separatorMember
      exact (Bytes.of_mem_splitOn member separatorMember).1 rfl
    obtain ⟨reading, reads⟩ := found
    obtain ⟨same, sameAdvanced, stands⟩ := passed reads
    obtain rfl : same = last := Except.ok.inj (sameAdvanced.symm.trans advanced)
    exact ⟨reading, reads, by simp [stands.lines]⟩
  · rintro ⟨reading, reads, rfl⟩
    obtain ⟨last, advanced, stands⟩ := passed reads
    exact ⟨last, advanced, by simp [stands.lines]⟩

theorem exists_forall₂_iff {α β : Type} {Related : α → β → Prop} {items : List α} :
    (∃ values, List.Forall₂ Related items values) ↔
      ∀ item ∈ items, ∃ value, Related item value := by
  induction items with
  | nil => exact ⟨fun _ => by simp, fun _ => ⟨[], .nil⟩⟩
  | cons item items induction =>
      rw [List.forall_mem_cons, ← induction]
      constructor
      · rintro ⟨values, related⟩
        cases related with
        | cons first later => exact ⟨⟨_, first⟩, _, later⟩
      · rintro ⟨⟨value, first⟩, values, later⟩
        exact ⟨value :: values, .cons first later⟩

/-- Every piece that is not empty is made of one, four or five numbers. -/
def Grammatical (text : Bytes) : Prop :=
  ∀ part ∈ Bytes.splitOn 59 text, ∀ piece ∈ Bytes.splitOn 44 part, piece ≠ [] →
    ∃ numerals : List Bytes, piece = numerals.flatten ∧
      (∀ numeral ∈ numerals, Vlq.Spelling numeral) ∧
      (numerals.length = 1 ∨ numerals.length = 4 ∨ numerals.length = 5)

theorem exists_spells_iff {piece : Bytes} :
    (∃ numbers, Spells piece numbers) ↔
      (piece ≠ [] → ∃ numerals : List Bytes, piece = numerals.flatten ∧
        (∀ numeral ∈ numerals, Vlq.Spelling numeral) ∧
        (numerals.length = 1 ∨ numerals.length = 4 ∨ numerals.length = 5)) := by
  constructor
  · rintro ⟨numbers, numerals, flat, spelled, -, count⟩ nonempty
    exact ⟨numerals, flat, spelled, count nonempty⟩
  · intro numeralsOf
    by_cases empty : piece = []
    · exact ⟨[], [], by simpa using empty, by simp, rfl, fun nonempty => absurd empty nonempty⟩
    · obtain ⟨numerals, flat, spelled, count⟩ := numeralsOf empty
      exact ⟨_, numerals, flat, spelled, rfl, fun _ => count⟩

theorem exists_reads_iff {text : Bytes} : (∃ reading, Reads text reading) ↔ Grammatical text := by
  unfold Reads SpellsLine Grammatical
  simp only [exists_forall₂_iff, exists_spells_iff]

/-- A text is read exactly when it is grammatical, and what is read are the sums of its
numbers. -/
theorem decode_sums (text : Bytes) :
    ((∃ lines, decode text = .ok lines) ↔ Grammatical text) ∧
      ∀ lines, decode text = .ok lines ↔
        ∃ reading, Reads text reading ∧ lines = placed [] reading := by
  refine ⟨?_, fun lines => decode_eq_ok_iff⟩
  rw [← exists_reads_iff]
  constructor
  · rintro ⟨lines, decoded⟩
    obtain ⟨reading, reads, -⟩ := decode_eq_ok_iff.mp decoded
    exact ⟨reading, reads⟩
  · rintro ⟨reading, reads⟩
    exact ⟨_, decode_eq_ok_iff.mpr ⟨reading, reads, rfl⟩⟩

end Mappings

end Reroute

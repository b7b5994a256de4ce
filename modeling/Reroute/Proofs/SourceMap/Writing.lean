import Mathlib
import Reroute.Proofs.SourceMap.Grammar

/-!
# When writing mappings ends

The digits of a number are written in a loop that shifts a word to the right until nothing is
left of it.  A word that is not negative runs out of bits; a negative one is shifted for ever,
since its sign keeps coming in.  The word is the magnitude of the number, doubled, so the loop
ends for magnitudes below 2^62 and for the least number, whose magnitude doubles to zero.

What was written is always read back, but the least number is read back as zero.  Mappings
are therefore read back as they were exactly when all differences that were written for them
are small.
-/

namespace Reroute

namespace Vlq

/-- The digit of the lowest bits of a word, marked when bits are left above them. -/
def lowDigit (word : Int64) : Int64 :=
  if (0 : Int64) < word >>> 5 then (word &&& 31) ||| 32 else word &&& 31

/-- The digits that the loop has written for a word when it ends. -/
inductive Emits : Int64 → Bytes → Prop where
  | last {word : Int64} :
      word >>> 5 = 0 → Emits word [Base64.digit (lowDigit word).toNatClampNeg]
  | more {word : Int64} {rest : Bytes} :
      word >>> 5 ≠ 0 → Emits (word >>> 5) rest →
      Emits word (Base64.digit (lowDigit word).toNatClampNeg :: rest)

theorem toInt_shiftRight_five (word : Int64) : (word >>> 5).toInt = word.toInt / 32 := by
  have amount : (5 : Int64).toBitVec.smod 64 = 5#64 := by decide
  rw [← Int64.toInt_toBitVec, Int64.toBitVec_shiftRight, amount]
  simp [BitVec.sshiftRight', BitVec.toInt_sshiftRight, Int.shiftRight_eq_div_pow]

theorem shiftRight_ofNat {code : Nat} (small : code < 2 ^ 63) :
    Int64.ofNat code >>> 5 = Int64.ofNat (code / radix) := by
  apply Int64.toInt_inj.mp
  rw [toInt_shiftRight_five, Int64.toInt_ofNat_of_lt small,
    Int64.toInt_ofNat_of_lt (Nat.lt_of_le_of_lt (Nat.div_le_self _ _) small)]
  rfl

theorem and_ofNat (code : Nat) : Int64.ofNat code &&& 31 = Int64.ofNat (code % radix) := by
  apply Int64.toBitVec_inj.mp
  apply BitVec.eq_of_toNat_eq
  simp only [Int64.toBitVec_and, BitVec.toNat_and, Int64.toBitVec_ofNat', BitVec.toNat_ofNat]
  rw [show (31 : Int64).toBitVec.toNat = 2 ^ 5 - 1 from rfl, Nat.and_two_pow_sub_one_eq_mod]
  simp only [radix]
  omega

theorem or_ofNat {payload : Nat} (low : payload < radix) :
    Int64.ofNat payload ||| 32 = Int64.ofNat (payload + radix) := by
  unfold radix at low ⊢
  interval_cases payload <;> rfl

theorem ofNat_eq_zero_iff {code : Nat} (small : code < 2 ^ 63) :
    Int64.ofNat code = 0 ↔ code = 0 := by
  rw [← Int64.toInt_inj, Int64.toInt_ofNat_of_lt small, Int64.toInt_zero]
  omega

theorem ofNat_pos_iff {code : Nat} (small : code < 2 ^ 63) :
    0 < Int64.ofNat code ↔ 0 < code := by
  rw [Int64.lt_iff_toInt_lt, Int64.toInt_ofNat_of_lt small, Int64.toInt_zero]
  omega

theorem lowDigit_ofNat {code : Nat} (small : code < 2 ^ 63) :
    (lowDigit (Int64.ofNat code)).toNatClampNeg =
      if code < radix then code else code % radix + radix := by
  have low : code % radix < radix := Nat.mod_lt _ (by decide)
  have quotientSmall : code / radix < 2 ^ 63 :=
    Nat.lt_of_le_of_lt (Nat.div_le_self _ _) small
  have restored {value : Nat} (valueSmall : value < 2 ^ 63) :
      (Int64.ofNat value).toNatClampNeg = value := by
    rw [← Int64.toNat_toInt, Int64.toInt_ofNat_of_lt valueSmall, Int.toNat_natCast]
  by_cases last : code < radix
  · have done : ¬(0 : Int64) < Int64.ofNat code >>> 5 := by
      rw [shiftRight_ofNat small, Nat.div_eq_of_lt last]
      decide
    rw [lowDigit, if_neg done, if_pos last, and_ofNat, Nat.mod_eq_of_lt last, restored small]
  · have left : (0 : Int64) < Int64.ofNat code >>> 5 := by
      rw [shiftRight_ofNat small, ofNat_pos_iff quotientSmall]
      exact Nat.div_pos (Nat.le_of_not_lt last) (by decide)
    rw [lowDigit, if_pos left, if_neg last, and_ofNat, or_ofNat low, restored]
    unfold radix at low ⊢
    omega

theorem emits_digits {code : Nat} (small : code < 2 ^ 63) :
    Emits (Int64.ofNat code) (digits code) := by
  -- A turn of the loop divides the code by the radix, as long as its word is not negative.
  induction code using Nat.strong_induction_on with
  | h code induction =>
      have shifted := shiftRight_ofNat small
      have quotientSmall : code / radix < 2 ^ 63 :=
        Nat.lt_of_le_of_lt (Nat.div_le_self _ _) small
      have digit := lowDigit_ofNat small
      by_cases last : code < radix
      · have done : Int64.ofNat code >>> 5 = 0 := by
          rw [shifted, Nat.div_eq_of_lt last]
          rfl
        have emitted := Emits.last done
        rwa [digit, if_pos last, ← digits_of_lt last] at emitted
      · have more : radix ≤ code := Nat.le_of_not_lt last
        have smaller : code / radix < code :=
          Nat.div_lt_self (Nat.lt_of_lt_of_le (by decide) more) (by decide)
        have left : Int64.ofNat code >>> 5 ≠ 0 := by
          rw [shifted, Ne, ofNat_eq_zero_iff quotientSmall]
          exact Nat.ne_of_gt (Nat.div_pos more (by decide))
        have rest := induction _ smaller quotientSmall
        rw [← shifted] at rest
        have emitted := Emits.more left rest
        rwa [digit, if_neg last, ← digits_of_le more] at emitted

theorem Emits.nonnegative {word : Int64} {text : Bytes} (emits : Emits word text) :
    0 ≤ word.toInt := by
  -- Shifting keeps the sign, and the last word before zero is not negative.
  induction emits with
  | @last word done =>
      have quotient := toInt_shiftRight_five word
      rw [done, Int64.toInt_zero] at quotient
      omega
  | @more word rest _ _ induction =>
      rw [toInt_shiftRight_five] at induction
      omega

theorem Emits.unique {word : Int64} {left right : Bytes} (leftEmits : Emits word left)
    (rightEmits : Emits word right) : left = right := by
  induction leftEmits generalizing right with
  | last done =>
      cases rightEmits with
      | last => rfl
      | more left => exact absurd done left
  | more left _ induction =>
      cases rightEmits with
      | last done => exact absurd done left
      | more _ rest => rw [induction rest]

/-- The digits of a number are those that the loop ends with, and a number has none exactly
when the loop does not end. -/
theorem encode?_eq_some_iff {value : Int64} {text : Bytes} :
    encode? value = some text ↔ Emits (signed value) text := by
  have emitted (nonnegative : 0 ≤ (signed value).toInt) :
      Emits (signed value) (digits (signed value).toNatClampNeg) := by
    have bound := Int64.toInt_lt (signed value)
    have word : Int64.ofNat (signed value).toNatClampNeg = signed value := by
      apply Int64.toInt_inj.mp
      rw [Int64.toInt_ofNat_of_lt (by rw [← Int64.toNat_toInt]; omega), ← Int64.toNat_toInt]
      omega
    have loop := emits_digits (show (signed value).toNatClampNeg < 2 ^ 63 by
      rw [← Int64.toNat_toInt]
      omega)
    rwa [word] at loop
  unfold encode?
  by_cases negative : signed value < 0
  · simp only [if_pos negative]
    constructor
    · intro found
      cases found
    · intro emits
      rw [Int64.lt_iff_toInt_lt, Int64.toInt_zero] at negative
      exact absurd emits.nonnegative (by omega)
  · simp only [if_neg negative, Option.some.injEq]
    rw [Int64.lt_iff_toInt_lt, Int64.toInt_zero, Int.not_lt] at negative
    constructor
    · rintro rfl
      exact emitted negative
    · intro emits
      exact (emitted negative).unique emits

/-- The loop ends for small numbers and for the least one. -/
def Writable (value : Int64) : Prop :=
  Small value ∨ value = Int64.minValue

def readBack (value : Int64) : Int64 :=
  if value = Int64.minValue then 0 else value

theorem toInt_double_of_wide {word : Int64} (wide : 2 ^ 62 ≤ word.toInt) :
    (word + word).toInt = word.toInt + word.toInt - 2 ^ 64 := by
  have upper := Int64.toInt_lt word
  rw [Int64.toInt_add, Int.bmod_def]
  split <;> omega

/-- The magnitude of a wide number doubles into the sign. -/
theorem toInt_signed_of_wide {value : Int64} (wide : ¬Small value)
    (notLeast : value ≠ Int64.minValue) : (signed value).toInt < 0 := by
  have lower := Int64.le_toInt value
  have upper := Int64.toInt_lt value
  have least : value.toInt ≠ -2 ^ 63 := by
    intro equality
    exact notLeast (Int64.toInt_inj.mp equality)
  unfold Small at wide
  rw [signed, shiftLeft_one, shiftLeft_one, double_or_one]
  by_cases negative : value.toInt < 0
  · have negated : (-value).toInt = -value.toInt := by
      rw [Int64.toInt_neg, Int.bmod_eq_of_le (by omega) (by omega)]
    have doubled := @toInt_double_of_wide (-value) (by omega)
    rw [if_pos (Int64.lt_iff_toInt_lt.mpr negative), Int64.toInt_add, doubled, Int64.toInt_one,
      Int.bmod_eq_of_le (by omega) (by omega)]
    omega
  · have doubled := @toInt_double_of_wide value (by omega)
    rw [if_neg (fun less => negative (Int64.lt_iff_toInt_lt.mp less)), doubled]
    omega

theorem exists_encode?_iff {value : Int64} :
    (∃ text, encode? value = some text) ↔ Writable value := by
  constructor
  · rintro ⟨text, written⟩
    by_contra unwritable
    rw [Writable, not_or] at unwritable
    have negative := toInt_signed_of_wide unwritable.1 unwritable.2
    have nonnegative := (encode?_eq_some_iff.mp written).nonnegative
    omega
  · rintro (small | rfl)
    · exact ⟨_, encode?_eq_written small⟩
    · exact ⟨digits 1, rfl⟩

theorem spelledCode_cons (byte : UInt8) (text : Bytes) :
    spelledCode (byte :: text) = payload byte + radix * spelledCode text := by
  simp [spelledCode, Nat.ofDigits_cons]

theorem spells_digits {count code : Nat} (fits : code < radix ^ (count + 1)) :
    (∃ front last, digits code = front ++ [last] ∧ front.length ≤ count ∧
        (∀ byte ∈ front, Continues byte) ∧ Ends last) ∧
      spelledCode (digits code) = code := by
  induction code using Nat.strong_induction_on generalizing count with
  | h code induction =>
      by_cases last : code < radix
      · have value := Base64.idxOf?_alphabet_digit code (Nat.lt_trans last (by decide))
        rw [digits_of_lt last]
        refine ⟨⟨[], _, rfl, Nat.zero_le _, by simp, code, value, last⟩, ?_⟩
        rw [spelledCode_cons, payload, value, Option.getD_some, Nat.mod_eq_of_lt last]
        rfl
      · have more : radix ≤ code := Nat.le_of_not_lt last
        obtain _ | count := count
        · rw [Nat.zero_add, Nat.pow_one] at fits
          exact absurd fits last
        have smaller : code / radix < code :=
          Nat.div_lt_self (Nat.lt_of_lt_of_le (by decide) more) (by decide)
        have quotientFits : code / radix < radix ^ (count + 1) := by
          rwa [Nat.div_lt_iff_lt_mul (by decide), ← Nat.pow_succ]
        obtain ⟨⟨front, final, split, short, continues, ends⟩, spelled⟩ :=
          induction _ smaller quotientFits
        have low : code % radix < radix := Nat.mod_lt _ (by decide)
        have value :=
          Base64.idxOf?_alphabet_digit (code % radix + radix) (by unfold radix at *; omega)
        have continued : Continues (Base64.digit (code % radix + radix)) :=
          ⟨_, value, Nat.le_add_left _ _⟩
        rw [digits_of_le more]
        refine ⟨⟨_ :: front, final, by rw [split]; rfl, ?_, ?_, ends⟩, ?_⟩
        · rw [List.length_cons]
          exact Nat.succ_le_succ short
        · rw [List.forall_mem_cons]
          exact ⟨continued, continues⟩
        · rw [spelledCode_cons, spelled, payload, value, Option.getD_some, Nat.add_mod_right,
            Nat.mod_eq_of_lt low, Nat.mod_add_div]

theorem Small.ne_minValue {value : Int64} (small : Small value) : value ≠ Int64.minValue := by
  rintro rfl
  exact absurd small (by unfold Small; decide)

theorem unsigned_signed {value : Int64} (writable : Writable value) :
    unsigned (signed value).toNatClampNeg = readBack value := by
  rcases writable with small | rfl
  · have code : (signed value).toNatClampNeg = codeOf value := by
      rw [signed_eq_ofNat small, ← Int64.toNat_toInt, Int64.toInt_ofNat_of_lt (codeOf_lt small),
        Int.toNat_natCast]
    rw [code, unsigned_codeOf small, readBack, if_neg small.ne_minValue]
  · decide

/-- What is written for a number is one numeral, and spells what is read back. -/
theorem spelling_of_encode? {value : Int64} {text : Bytes} (written : encode? value = some text) :
    Spelling text ∧ Int64.ofInt (spelledNumber text) = readBack value := by
  have writable := exists_encode?_iff.mp ⟨text, written⟩
  unfold encode? at written
  simp only at written
  split at written
  · cases written
  · cases written
    have upper := Int64.toInt_lt (signed value)
    have fits : (signed value).toNatClampNeg < radix ^ (12 + 1) := by
      rw [← Int64.toNat_toInt]
      unfold radix
      omega
    obtain ⟨⟨front, last, split, short, continues, ends⟩, spelled⟩ := spells_digits fits
    refine ⟨⟨front, last, split, Nat.lt_succ_of_le short, continues, ends⟩, ?_⟩
    rw [← unsigned_spelledCode, spelled, unsigned_signed writable]

theorem readBack_eq_self_iff {value : Int64} (writable : Writable value) :
    readBack value = value ↔ Small value := by
  unfold readBack
  rcases writable with small | rfl
  · simp [small.ne_minValue, small]
  · simp only [if_true]
    constructor
    · intro zero
      exact absurd zero (by decide)
    · intro small
      exact absurd rfl small.ne_minValue

end Vlq

namespace Mappings

/-- Writing numbers one behind the other ends with a text. -/
def WritesPiece (differences : List Int64) (text : Bytes) : Prop :=
  ∃ parts, List.Forall₂ (fun value part => Vlq.Emits (Vlq.signed value) part) differences parts ∧
    parts.flatten = text

def WritesLine (pieces : List (List Int64)) (text : Bytes) : Prop :=
  ∃ parts, List.Forall₂ WritesPiece pieces parts ∧ Bytes.join (utf8 ",") parts = text

/-- Writing the differences of mappings ends with a text. -/
def Writes (lines : Mappings) (text : Bytes) : Prop :=
  ∃ parts, List.Forall₂ WritesLine (allDifferences lines) parts ∧
    Bytes.join (utf8 ";") parts = text

theorem mapM_eq_some_iff {α β : Type} {partialMap : α → Option β} {items : List α}
    {results : List β} :
    items.mapM partialMap = some results ↔
      List.Forall₂ (fun item result => partialMap item = some result) items results := by
  induction items generalizing results with
  | nil => simp [eq_comm]
  | cons item items induction =>
      rw [List.mapM_cons, List.forall₂_cons_left_iff]
      cases found : partialMap item with
      | none => simp
      | some result =>
          cases rest : items.mapM partialMap with
          | none => simp [← induction, rest]
          | some others => simp [← induction, rest, eq_comm]

theorem encodePiece?_eq_some_iff {differences : List Int64} {text : Bytes} :
    encodePiece? differences = some text ↔ WritesPiece differences text := by
  simp only [encodePiece?, Option.map_eq_some_iff, mapM_eq_some_iff, Vlq.encode?_eq_some_iff,
    WritesPiece]

theorem encodeLine?_eq_some_iff {pieces : List (List Int64)} {text : Bytes} :
    encodeLine? pieces = some text ↔ WritesLine pieces text := by
  simp only [encodeLine?, Option.map_eq_some_iff, mapM_eq_some_iff, encodePiece?_eq_some_iff,
    WritesLine]

/-- The written form of mappings is the text that writing ends with. -/
theorem encode?_eq_some_iff {lines : Mappings} {text : Bytes} :
    encode? lines = some text ↔ Writes lines text := by
  simp only [encode?, Option.map_eq_some_iff, mapM_eq_some_iff, encodeLine?_eq_some_iff, Writes]

theorem Writes.encode_eq {lines : Mappings} {text : Bytes} (writes : Writes lines text) :
    encode lines = text := by
  rw [encode, encode?_eq_some_iff.mpr writes, Option.getD_some]

/-- Writing ends when it ends for every difference. -/
theorem exists_writes_iff {lines : Mappings} :
    (∃ text, Writes lines text) ↔
      ∀ pieces ∈ allDifferences lines, ∀ differences ∈ pieces, ∀ value ∈ differences,
        Vlq.Writable value := by
  have joined {α : Type} {Related : α → Bytes → Prop} {items : List α} {glue : List Bytes → Bytes} :
      (∃ text parts, List.Forall₂ Related items parts ∧ glue parts = text) ↔
        ∀ item ∈ items, ∃ part, Related item part := by
    rw [← exists_forall₂_iff]
    constructor
    · rintro ⟨text, parts, related, -⟩
      exact ⟨parts, related⟩
    · rintro ⟨parts, related⟩
      exact ⟨_, parts, related, rfl⟩
  simp only [Writes, WritesLine, WritesPiece, joined, ← Vlq.encode?_eq_some_iff,
    Vlq.exists_encode?_iff]

/-- The text of a line always has a first piece: where none was written, an empty one is
read. -/
def orBlank {α : Type} (items : List (List α)) : List (List α) :=
  if items = [] then [[]] else items

theorem orBlank_ne_nil {α : Type} (items : List (List α)) : orBlank items ≠ [] := by
  unfold orBlank
  split
  · exact List.cons_ne_nil _ _
  · assumption

theorem join_orBlank (separator : Bytes) (parts : List Bytes) :
    Bytes.join separator (orBlank parts) = Bytes.join separator parts := by
  cases parts with
  | nil => simp [orBlank, Bytes.join]
  | cons part parts => rfl

theorem forall₂_orBlank {α β : Type} {Related : List α → List β → Prop} (blank : Related [] [])
    {left : List (List α)} {right : List (List β)} (related : List.Forall₂ Related left right) :
    List.Forall₂ Related (orBlank left) (orBlank right) := by
  cases related with
  | nil => exact .cons blank .nil
  | cons first rest => exact .cons first rest

theorem exists_forall₂_of_forall₂ {α β γ : Type} {Related : α → β → Prop} (Left : α → γ → Prop)
    (Right : β → γ → Prop) {left : List α} {right : List β}
    (related : List.Forall₂ Related left right)
    (between : ∀ a ∈ left, ∀ b, Related a b → ∃ c, Left a c ∧ Right b c) :
    ∃ values, List.Forall₂ Left left values ∧ List.Forall₂ Right right values := by
  induction related with
  | nil => exact ⟨[], .nil, .nil⟩
  | cons first rest induction =>
      obtain ⟨value, leftFirst, rightFirst⟩ := between _ List.mem_cons_self _ first
      obtain ⟨values, leftRest, rightRest⟩ :=
        induction fun a member => between a (List.mem_cons_of_mem _ member)
      exact ⟨value :: values, .cons leftFirst leftRest, .cons rightFirst rightRest⟩

/-- Numbers that are read where differences were written. -/
def Meant (differences : List Int64) (numbers : List Int) : Prop :=
  numbers.map Int64.ofInt = differences.map Vlq.readBack

def MeantLine (pieces : List (List Int64)) (line : List (List Int)) : Prop :=
  List.Forall₂ Meant (orBlank pieces) line

theorem WritesPiece.exists_spells {differences : List Int64} {text : Bytes}
    (writes : WritesPiece differences text)
    (count : differences.length = 0 ∨ differences.length = 4 ∨ differences.length = 5) :
    ∃ numbers, Meant differences numbers ∧ Spells text numbers := by
  obtain ⟨parts, emitted, rfl⟩ := writes
  have length := emitted.length_eq
  have spelled : (∀ part ∈ parts, Vlq.Spelling part) ∧
      parts.map (fun part => Int64.ofInt (Vlq.spelledNumber part)) =
        differences.map Vlq.readBack := by
    clear count length
    induction emitted with
    | nil => simp
    | cons first rest induction =>
        obtain ⟨spelling, number⟩ := Vlq.spelling_of_encode? (Vlq.encode?_eq_some_iff.mpr first)
        exact ⟨List.forall_mem_cons.mpr ⟨spelling, induction.1⟩,
          by rw [List.map_cons, List.map_cons, number, induction.2]⟩
  refine ⟨parts.map Vlq.spelledNumber, ?_, parts, rfl, spelled.1, rfl, ?_⟩
  · rw [Meant, List.map_map]
    exact spelled.2
  · intro nonempty
    rcases count with none | some
    · obtain rfl : parts = [] := List.length_eq_zero_iff.mp (length.symm.trans none)
      exact absurd rfl nonempty
    · exact .inr (length ▸ some)

theorem length_differences (cursor : Cursor) (segment : Segment) :
    (cursor.differences segment).length =
      if segment.nameIndex = Segment.noName then 4 else 5 := by
  by_cases nameless : segment.nameIndex = Segment.noName
  · simp [Cursor.differences, nameless]
  · simp [Cursor.differences, nameless]

theorem length_of_mem_pieceDifferences {cursor : Cursor} {line : List Segment}
    {differences : List Int64} (member : differences ∈ pieceDifferences cursor line) :
    differences.length = 4 ∨ differences.length = 5 := by
  induction line generalizing cursor with
  | nil => simp [pieceDifferences] at member
  | cons segment line induction =>
      rcases List.mem_cons.mp member with rfl | later
      · rw [length_differences]
        split
        · exact .inl rfl
        · exact .inr rfl
      · exact induction later

theorem length_of_mem_differencesFrom {cursor : Cursor} {lines : Mappings}
    {pieces : List (List Int64)} (member : pieces ∈ differencesFrom cursor lines)
    {differences : List Int64} (inside : differences ∈ pieces) :
    differences.length = 4 ∨ differences.length = 5 := by
  induction lines generalizing cursor with
  | nil => simp [differencesFrom] at member
  | cons line lines induction =>
      rcases List.mem_cons.mp member with rfl | later
      · exact length_of_mem_pieceDifferences inside
      · exact induction later

/-- The text of a line that was written, with the pieces that are read of it. -/
def PartsLine (part : Bytes) (line : List (List Int)) : Prop :=
  ∃ items, items ≠ [] ∧ Bytes.join [44] items = part ∧ List.Forall₂ Spells items line

theorem WritesLine.exists_parts {pieces : List (List Int64)} {text : Bytes}
    (writes : WritesLine pieces text)
    (counts : ∀ differences ∈ pieces, differences.length = 4 ∨ differences.length = 5) :
    ∃ line, MeantLine pieces line ∧ PartsLine text line := by
  obtain ⟨parts, written, rfl⟩ := writes
  have blank : WritesPiece [] [] := ⟨[], .nil, rfl⟩
  obtain ⟨line, meant, spells⟩ :=
    exists_forall₂_of_forall₂ Meant Spells (forall₂_orBlank blank written) (by
      intro differences member part writesPart
      apply writesPart.exists_spells
      unfold orBlank at member
      split at member
      · rw [List.mem_singleton.mp member]
        exact .inl rfl
      · exact .inr (counts differences member))
  exact ⟨line, meant, orBlank parts, orBlank_ne_nil parts, join_orBlank _ parts, spells⟩

theorem Reader.Stands.parts {reader : Reader} {read : List (List (List Int))}
    (stands : reader.Stands read []) {part : Bytes} {line : List (List Int)}
    (parts : PartsLine part line) :
    ∃ next, reader.advance (part ++ [59]) = .ok next ∧ next.Stands (read ++ [line]) [] := by
  obtain ⟨items, nonempty, rfl, spells⟩ := parts
  exact Reader.advance_join (fun front reader => reader.Stands read front)
    (fun line reader => reader.Stands (read ++ [line]) [])
    (fun here means => here.comma means) (fun here means => here.semicolon means)
    nonempty spells stands

theorem length_differencesFrom (cursor : Cursor) (lines : Mappings) :
    (differencesFrom cursor lines).length = lines.length := by
  induction lines generalizing cursor with
  | nil => rfl
  | cons line lines induction =>
      rw [differencesFrom, List.length_cons, List.length_cons, induction]

/-- What was written is read as the sums of what is read back of the differences. -/
theorem Writes.exists_decode {lines : Mappings} {text : Bytes} (writes : Writes lines text)
    (nonempty : lines ≠ []) :
    ∃ reading, List.Forall₂ MeantLine (allDifferences lines) reading ∧
      decode text = .ok (placed [] reading) := by
  obtain ⟨parts, written, rfl⟩ := writes
  have partsNonempty : parts ≠ [] := by
    rintro rfl
    have none := written.length_eq
    rw [allDifferences_eq, length_differencesFrom, List.length_nil, List.length_eq_zero_iff] at none
    exact nonempty none
  obtain ⟨reading, meant, spelled⟩ :=
    exists_forall₂_of_forall₂ MeantLine PartsLine written (by
      intro pieces member part writesPart
      apply writesPart.exists_parts
      intro differences inside
      rw [allDifferences_eq] at member
      exact length_of_mem_differencesFrom member inside)
  have start : Reader.start.Stands [] [] := ⟨rfl, rfl, rfl, rfl, rfl⟩
  obtain ⟨last, advanced, stands⟩ :=
    Reader.advance_join (fun read reader => reader.Stands read [])
      (fun read reader => reader.Stands read []) (fun here means => here.parts means)
      (fun here means => here.parts means) partsNonempty spelled start
  refine ⟨reading, meant, ?_⟩
  rw [decode, Reader.run_eq_ok_iff]
  exact ⟨last, advanced, by simp [stands.lines]⟩

theorem forall_mem_differences_iff {Holds : Int64 → Prop} {cursor : Cursor} {segment : Segment} :
    (∀ value ∈ cursor.differences segment, Holds value) ↔
      Holds (segment.generatedColumn - cursor.generatedColumn) ∧
      Holds (segment.sourceIndex - cursor.sourceIndex) ∧
      Holds (segment.sourceLine - cursor.sourceLine) ∧
      Holds (segment.sourceColumn - cursor.sourceColumn) ∧
      (segment.nameIndex ≠ Segment.noName → Holds (segment.nameIndex - cursor.nameIndex)) := by
  by_cases nameless : segment.nameIndex = Segment.noName
  · simp [Cursor.differences, nameless]
  · simp [Cursor.differences, nameless]

theorem Meant.length_eq {differences : List Int64} {numbers : List Int}
    (meant : Meant differences numbers) : numbers.length = differences.length := by
  have same := congrArg List.length meant
  rwa [List.length_map, List.length_map] at same

theorem Meant.getD {differences : List Int64} {numbers : List Int}
    (meant : Meant differences numbers) (index : Nat) :
    Int64.ofInt (numbers[index]?.getD 0) = Vlq.readBack (differences[index]?.getD 0) := by
  have same := congrArg (fun values => values[index]?) meant
  simp only [List.getElem?_map] at same
  cases number : numbers[index]? with
  | none =>
      cases difference : differences[index]? with
      | none => rfl
      | some value => simp [number, difference] at same
  | some value =>
      cases difference : differences[index]? with
      | none => simp [number, difference] at same
      | some value => simpa [number, difference] using same

/-- Where the segment is read that was written, all its differences are read back. -/
theorem Meant.restored {cursor : Cursor} {segment : Segment} {numbers : List Int}
    (meant : Meant (cursor.differences segment) numbers)
    (read : segment? (cursor.moved numbers) numbers = some segment) :
    (∀ value ∈ cursor.differences segment, Vlq.readBack value = value) ∧
      cursor.moved numbers = cursor.after segment := by
  have same {last value number : Int64} (sum : last + number = value)
      (means : number = Vlq.readBack (value - last)) :
      Vlq.readBack (value - last) = value - last := by
    rw [Int64.eq_sub_iff_add_eq, Int64.add_comm, ← means]
    exact sum
  have length := meant.length_eq
  rw [length_differences] at length
  have enough : 4 ≤ numbers.length := by
    rw [length]
    split <;> decide
  rw [segment?, if_pos enough, Option.some.injEq] at read
  have column := congrArg Segment.generatedColumn read
  have source := congrArg Segment.sourceIndex read
  have line := congrArg Segment.sourceLine read
  have sourceColumn := congrArg Segment.sourceColumn read
  have name := congrArg Segment.nameIndex read
  -- The name alone may be missing, and then the cursor keeps the last one.
  have nameMoved : (cursor.moved numbers).nameIndex = (cursor.after segment).nameIndex := by
    by_cases nameless : segment.nameIndex = Segment.noName
    · rw [if_pos nameless] at length
      have missing : numbers[4]? = none := List.getElem?_eq_none (Nat.le_of_eq length)
      simp [Cursor.moved, Cursor.after, nameless, missing]
    · rw [if_neg nameless] at length
      simpa [length, Cursor.after, nameless] using name
  constructor
  · rw [forall_mem_differences_iff]
    refine ⟨same column (meant.getD 0), same source (meant.getD 1), same line (meant.getD 2),
      same sourceColumn (meant.getD 3), fun named => ?_⟩
    have means := meant.getD 4
    have difference : (cursor.differences segment)[4]?.getD 0 =
        segment.nameIndex - cursor.nameIndex := by
      simp [Cursor.differences, named]
    rw [difference] at means
    refine same (nameMoved.trans ?_) means
    simp [Cursor.after, named]
  · exact (Cursor.mk.injEq ..).mpr ⟨column, source, line, sourceColumn, nameMoved⟩

theorem forall₂_meant_restored {above front : List (List Int)} {line : List Segment}
    {numbers : List (List Int)}
    (meant : List.Forall₂ Meant (pieceDifferences (totals above front) line) numbers)
    (read : placedFrom above front numbers = line) :
    (∀ differences ∈ pieceDifferences (totals above front) line, ∀ value ∈ differences,
        Vlq.readBack value = value) ∧
      totals above (front ++ numbers) = line.foldl Cursor.after (totals above front) := by
  induction line generalizing front numbers with
  | nil =>
      cases meant
      simp [pieceDifferences]
  | cons segment line induction =>
      obtain ⟨piece, rest, first, later, rfl⟩ := List.forall₂_cons_left_iff.mp meant
      have segmentRead : segment? (totals above (front ++ [piece])) piece = some segment ∧
          placedFrom above (front ++ [piece]) rest = line := by
        have length := first.length_eq
        rw [length_differences] at length
        have enough : 4 ≤ piece.length := by
          rw [length]
          split <;> decide
        rw [placedFrom, segment?, if_pos enough] at read
        rw [segment?, if_pos enough]
        simpa using read
      rw [totals_append] at segmentRead
      obtain ⟨firstRestored, moved⟩ := first.restored segmentRead.1
      rw [← moved, ← totals_append] at later
      obtain ⟨laterRestored, behind⟩ := induction later segmentRead.2
      rw [totals_append, moved] at laterRestored behind
      constructor
      · rw [pieceDifferences, List.forall_mem_cons]
        exact ⟨firstRestored, laterRestored⟩
      · rw [List.foldl_cons, ← behind, List.append_assoc, List.singleton_append]

theorem totals_nil (above line : List (List Int)) :
    totals (above ++ line) [] = (totals above line).nextLine := by
  simp [totals, Cursor.nextLine, total]

theorem MeantLine.restored {above : List (List Int)} {line : List Segment}
    {numbers : List (List Int)}
    (meant : MeantLine (pieceDifferences (totals above []) line) numbers)
    (read : placedFrom above [] numbers = line) :
    (∀ differences ∈ pieceDifferences (totals above []) line, ∀ value ∈ differences,
        Vlq.readBack value = value) ∧
      totals above numbers = line.foldl Cursor.after (totals above []) := by
  cases line with
  | nil =>
      obtain ⟨piece, rest, first, later, rfl⟩ := List.forall₂_cons_left_iff.mp meant
      obtain rfl : piece = [] := List.length_eq_zero_iff.mp first.length_eq
      cases later
      simp [pieceDifferences, totals, total]
  | cons segment line => exact forall₂_meant_restored meant read

theorem forall₂_meantLine_restored {above : List (List Int)} {cursor : Cursor} {lines : Mappings}
    {reading : List (List (List Int))} (starts : totals above [] = cursor.nextLine)
    (meant : List.Forall₂ MeantLine (differencesFrom cursor lines) reading)
    (read : placed above reading = lines) :
    ∀ pieces ∈ differencesFrom cursor lines, ∀ differences ∈ pieces, ∀ value ∈ differences,
      Vlq.readBack value = value := by
  induction lines generalizing above cursor reading with
  | nil => simp [differencesFrom]
  | cons line lines induction =>
      obtain ⟨numbers, rest, first, later, rfl⟩ := List.forall₂_cons_left_iff.mp meant
      rw [placed, List.cons.injEq] at read
      rw [← starts] at first
      obtain ⟨firstRestored, behind⟩ := first.restored read.1
      rw [starts] at firstRestored behind
      rw [differencesFrom, List.forall_mem_cons]
      refine ⟨firstRestored, induction ?_ later read.2⟩
      rw [totals_nil, behind]

theorem length_placed (above : List (List Int)) (reading : List (List (List Int))) :
    (placed above reading).length = reading.length := by
  induction reading generalizing above with
  | nil => rfl
  | cons line reading induction => rw [placed, List.length_cons, List.length_cons, induction]

theorem SameLines.eq_of_length {left right : Mappings} (same : SameLines left right)
    (length : left.length = right.length) : left = right := by
  apply List.ext_getElem length
  intro line leftBound rightBound
  have equality := same line
  rwa [List.getD_eq_getElem _ _ leftBound, List.getD_eq_getElem _ _ rightBound] at equality

/-- Mappings that were written are read back exactly when all their differences are small. -/
theorem Writes.restored_iff {lines : Mappings} {text : Bytes} (writes : Writes lines text) :
    ∃ read, decode text = .ok read ∧ (SameLines read lines ↔ SmallDifferences lines) := by
  by_cases empty : lines = []
  · subst empty
    obtain ⟨read, decoded, same⟩ := @exists_sameLines_of_modest [] (by simp)
    rw [writes.encode_eq] at decoded
    exact ⟨read, decoded, by simp [same, SmallDifferences, allDifferences]⟩
  · obtain ⟨reading, meant, decoded⟩ := writes.exists_decode empty
    refine ⟨_, decoded, ?_⟩
    constructor
    · intro same
      have length : (placed [] reading).length = lines.length := by
        rw [length_placed, ← meant.length_eq, allDifferences_eq, length_differencesFrom]
      have writable := exists_writes_iff.mp ⟨text, writes⟩
      rw [SmallDifferences]
      rw [allDifferences_eq] at meant writable ⊢
      -- A difference that is not small was read as zero, so some segment is another one.
      have restored := forall₂_meantLine_restored rfl meant (same.eq_of_length length)
      intro pieces member differences inside value valueMember
      rw [← Vlq.readBack_eq_self_iff (writable pieces member differences inside value valueMember)]
      exact restored pieces member differences inside value valueMember
    · intro small
      have read := decode_encode_of_small empty small
      rw [writes.encode_eq, decoded, Except.ok.injEq] at read
      rw [read]
      exact fun line => rfl

end Mappings

end Reroute

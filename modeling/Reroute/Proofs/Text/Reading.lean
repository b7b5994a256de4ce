import Mathlib
import Reroute.Text.Rune

/-!
# Reading loses nothing and can be cut

The runes of a text spell the text, and reading can be cut wherever a rune ends: the
runes of a head of the text are a head of its runes.  Two texts that are put together
are read one after the other unless the second starts with a byte that only continues
a character.  A text that is valid UTF-8 starts with no such byte and leaves no character
unfinished, so it is read the same way wherever it stands.
-/

namespace Reroute

namespace Rune

/-- The shortest forms of characters: a first byte, the bytes behind it, and the
character they spell. -/
inductive Spells (first : UInt8) : Bytes → Char → Prop where
  | one : first.toNat < 0x80 → Spells first [] (Char.ofNat first.toNat)
  | two {second : UInt8} :
      0xC2 ≤ first.toNat → first.toNat < 0xE0 → continues second = true →
      Spells first [second] (Char.ofNat (first.toNat % 32 * 64 + payload second))
  | three {second third : UInt8} :
      0xE0 ≤ first.toNat → first.toNat < 0xF0 →
      (first.toNat = 0xE0 → 0xA0 ≤ second.toNat) →
      (first.toNat = 0xED → second.toNat ≤ 0x9F) →
      continues second = true → continues third = true →
      Spells first [second, third]
        (Char.ofNat ((first.toNat % 16 * 64 + payload second) * 64 + payload third))
  | four {second third fourth : UInt8} :
      0xF0 ≤ first.toNat → first.toNat < 0xF5 →
      (first.toNat = 0xF0 → 0x90 ≤ second.toNat) →
      (first.toNat = 0xF4 → second.toNat ≤ 0x8F) →
      continues second = true → continues third = true → continues fourth = true →
      Spells first [second, third, fourth]
        (Char.ofNat
          (((first.toNat % 8 * 64 + payload second) * 64 + payload third) * 64
            + payload fourth))

theorem continues_iff (byte : UInt8) :
    continues byte = true ↔ 0x80 ≤ byte.toNat ∧ byte.toNat ≤ 0xBF := by
  simp [continues]

/-- Every byte behind the first one of a character continues it. -/
theorem Spells.continues_of_mem
    {first : UInt8} {inner : Bytes} {value : Char}
    (spells : Spells first inner value) :
    ∀ byte ∈ inner, continues byte = true := by
  cases spells <;> simp_all

theorem Spells.not_continues
    {first : UInt8} {inner : Bytes} {value : Char}
    (spells : Spells first inner value) : continues first = false := by
  rw [Bool.eq_false_iff, Ne, continues_iff]
  cases spells <;> omega

theorem spells_of_character?
    {first : UInt8} {rest : Bytes} {value : Char} {width : Nat}
    (read : character? first rest = some (value, width)) :
    ∃ inner tail, rest = inner ++ tail ∧ inner.length = width ∧
      Spells first inner value := by
  simp only [character?, Bool.and_eq_true, decide_eq_true_eq, beq_iff_eq] at read
  split at read
  · cases read
    exact ⟨[], rest, rfl, rfl, .one (by omega)⟩
  split at read
  · cases read
  split at read
  · split at read
    · next second tail =>
        split at read
        · next continued =>
            cases read
            exact ⟨[second], tail, rfl, rfl, .two (by omega) (by omega) continued⟩
        · cases read
    · cases read
  split at read
  · split at read
    · next second third tail =>
        rw [Option.ite_none_right_eq_some] at read
        obtain ⟨⟨⟨least, greatest⟩, continued⟩, equality⟩ := read
        cases equality
        refine ⟨[second, third], tail, rfl, rfl,
          .three (by omega) (by omega) ?_ ?_ ?_ continued⟩
        · grind
        · grind
        · rw [continues_iff]
          grind
    · cases read
  split at read
  · split at read
    · next second third fourth tail =>
        rw [Option.ite_none_right_eq_some] at read
        obtain ⟨⟨⟨⟨least, greatest⟩, continued⟩, ended⟩, equality⟩ := read
        cases equality
        refine ⟨[second, third, fourth], tail, rfl, rfl,
          .four (by omega) (by omega) ?_ ?_ ?_ continued ended⟩
        · grind
        · grind
        · rw [continues_iff]
          grind
    · cases read
  · cases read

theorem character?_of_spells
    {first : UInt8} {inner : Bytes} {value : Char} (tail : Bytes)
    (spells : Spells first inner value) :
    character? first (inner ++ tail) = some (value, inner.length) := by
  cases spells with
  | one low => simp [character?, low]
  | two low high continued =>
      simp [character?, continued, high, show ¬first.toNat < 128 by omega,
        show ¬first.toNat < 194 by omega]
  | three low high least greatest continued ended =>
      rw [continues_iff] at continued
      simp only [character?, List.cons_append, List.nil_append, ended]
      rw [if_neg (by omega), if_neg (by omega), if_neg (by omega), if_pos high, if_pos]
      · rfl
      · grind
  | four low high least greatest continued third fourth =>
      rw [continues_iff] at continued
      simp only [character?, List.cons_append, List.nil_append, third, fourth]
      rw [if_neg (by omega), if_neg (by omega), if_neg (by omega), if_neg (by omega),
        if_pos high, if_pos]
      · rfl
      · grind

theorem toNat_ofNat_of_valid {code : Nat} (valid : code.isValidChar) :
    (Char.ofNat code).val.toNat = code := by
  simp [Char.ofNat, valid, Char.ofNatAux, UInt32.toNat]

theorem ofNat_eq_of_toNat (byte : UInt8) {code : Nat} (equality : code = byte.toNat) :
    UInt8.ofNat code = byte := by
  subst equality
  simp

/-- A character that is read is written with the bytes it was read from. -/
theorem Spells.encode
    {first : UInt8} {inner : Bytes} {value : Char}
    (spells : Spells first inner value) :
    String.utf8EncodeChar value = first :: inner := by
  cases spells with
  | one low =>
      rw [String.utf8EncodeChar, toNat_ofNat_of_valid (Or.inl (by omega)), if_pos (by omega),
        ofNat_eq_of_toNat first rfl]
  | @two second low high continued =>
      rw [continues_iff] at continued
      have secondPayload : payload second = second.toNat % 64 := rfl
      rw [String.utf8EncodeChar, toNat_ofNat_of_valid (Or.inl (by omega)),
        if_neg (by omega), if_pos (by omega)]
      rw [ofNat_eq_of_toNat first (by omega),
        ofNat_eq_of_toNat second (by omega)]
  | @three second third low high least greatest continued ended =>
      rw [continues_iff] at continued ended
      have secondPayload : payload second = second.toNat % 64 := rfl
      have thirdPayload : payload third = third.toNat % 64 := rfl
      have valid :
          ((first.toNat % 16 * 64 + payload second) * 64 + payload third).isValidChar := by
        rw [Nat.isValidChar]
        omega
      rw [String.utf8EncodeChar, toNat_ofNat_of_valid valid]
      rw [if_neg (by omega), if_neg (by omega), if_pos (by omega)]
      rw [ofNat_eq_of_toNat first (by omega),
        ofNat_eq_of_toNat second (by omega),
        ofNat_eq_of_toNat third (by omega)]
  | @four second third fourth low high least greatest continued thirdContinued ended =>
      rw [continues_iff] at continued thirdContinued ended
      have secondPayload : payload second = second.toNat % 64 := rfl
      have thirdPayload : payload third = third.toNat % 64 := rfl
      have fourthPayload : payload fourth = fourth.toNat % 64 := rfl
      have valid :
          (((first.toNat % 8 * 64 + payload second) * 64 + payload third) * 64
            + payload fourth).isValidChar := by
        rw [Nat.isValidChar]
        omega
      rw [String.utf8EncodeChar, toNat_ofNat_of_valid valid]
      rw [if_neg (by omega), if_neg (by omega), if_neg (by omega)]
      rw [ofNat_eq_of_toNat first (by omega),
        ofNat_eq_of_toNat second (by omega),
        ofNat_eq_of_toNat third (by omega),
        ofNat_eq_of_toNat fourth (by omega)]

theorem character?_append
    {first : UInt8} {rest : Bytes} {value : Char} {width : Nat} (tail : Bytes)
    (read : character? first rest = some (value, width)) :
    character? first (rest ++ tail) = some (value, width) := by
  obtain ⟨inner, after, rfl, rfl, spells⟩ := spells_of_character? read
  rw [List.append_assoc]
  exact character?_of_spells _ spells

/-- The text does not go on with a character that began before it. -/
def StartsFresh (text : Bytes) : Prop :=
  ∀ byte ∈ text.head?, continues byte = false

theorem character?_append_eq_none
    {first : UInt8} {rest tail : Bytes} (fresh : StartsFresh tail)
    (unread : character? first rest = none) :
    character? first (rest ++ tail) = none := by
  cases read : character? first (rest ++ tail) with
  | none => rfl
  | some found =>
      obtain ⟨inner, after, equality, -, spells⟩ := spells_of_character? read
      rcases List.append_eq_append_iff.mp equality with
        ⟨middle, innerEquality, tailEquality⟩ | ⟨middle, restEquality, -⟩
      · cases middle with
        | nil =>
            rw [List.append_nil] at innerEquality
            subst innerEquality
            have again := character?_of_spells [] spells
            rw [List.append_nil, unread] at again
            cases again
        | cons byte middle =>
            -- The character would take in the first byte of the tail.
            have continued : continues byte = true :=
              spells.continues_of_mem byte (by simp [innerEquality])
            have stops : continues byte = false := fresh byte (by simp [tailEquality])
            rw [continued] at stops
            cases stops
      · rw [restEquality, character?_of_spells middle spells] at unread
        cases unread

theorem next_of_spells
    {first : UInt8} {inner : Bytes} {value : Char} (tail : Bytes)
    (spells : Spells first inner value) :
    next first (inner ++ tail) = (.char value, tail) := by
  simp [next, character?_of_spells tail spells]

theorem next_of_unread
    {first : UInt8} {rest : Bytes} (unread : character? first rest = none) :
    next first rest = (.stray first, rest) := by
  simp [next, unread]

/-- A rune and the text after it are the text that was read. -/
theorem bytes_append_next (first : UInt8) (rest : Bytes) :
    (next first rest).1.bytes ++ (next first rest).2 = first :: rest := by
  cases read : character? first rest with
  | none => simp [next_of_unread read, bytes]
  | some found =>
      obtain ⟨inner, after, rfl, -, spells⟩ := spells_of_character? read
      simp [next_of_spells after spells, bytes, spells.encode]

/-- A rune that starts a text also starts the text that goes on, if it goes on fresh. -/
theorem next_append
    (first : UInt8) (rest : Bytes) {tail : Bytes} (fresh : StartsFresh tail) :
    next first (rest ++ tail) =
      ((next first rest).1, (next first rest).2 ++ tail) := by
  cases read : character? first rest with
  | none =>
      rw [next_of_unread read, next_of_unread (character?_append_eq_none fresh read)]
  | some found =>
      obtain ⟨inner, after, rfl, -, spells⟩ := spells_of_character? read
      rw [next_of_spells after spells, List.append_assoc, next_of_spells _ spells]

/-- To prove something of every text, prove it of a text whose first rune is followed
by one it is known of. -/
theorem textInduction {motive : Bytes → Prop} (nil : motive [])
    (step : ∀ first rest, motive (next first rest).2 → motive (first :: rest)) :
    ∀ text, motive text
  | [] => nil
  | first :: rest => step first rest (textInduction nil step (next first rest).2)
termination_by text => text.length
decreasing_by
  have := next_length_le first rest
  simp only [List.length_cons]
  omega

theorem readAll_eq (text : Bytes) (done : List Rune) :
    readAll text done = done.reverse ++ readAll text [] := by
  induction text using textInduction generalizing done with
  | nil => simp [readAll]
  | step first rest induction =>
      rw [readAll, induction, readAll, induction [(next first rest).1]]
      simp

@[simp] theorem length_bytes (rune : Rune) : rune.bytes.length = rune.size := by
  cases rune <;> simp [bytes, size]

theorem size_pos (rune : Rune) : 0 < rune.size := by
  cases rune with
  | char value => exact Char.utf8Size_pos value
  | stray byte => exact Nat.one_pos

theorem units_pos (rune : Rune) : 0 < rune.units := by
  cases rune with
  | char value =>
      simp only [units]
      split <;> omega
  | stray byte => exact Nat.one_pos

theorem units_le_size (rune : Rune) : rune.units ≤ rune.size := by
  cases rune with
  | stray byte => exact Nat.le_refl 1
  | char value =>
      simp only [units, size]
      split
      · exact Char.utf8Size_pos value
      · next wide =>
          have four : value.utf8Size = 4 := by
            rw [Char.utf8Size_eq_four_iff, UInt32.lt_iff_toNat_lt]
            have : value.toNat = value.val.toNat := rfl
            simp only [UInt32.reduceToNat]
            omega
          omega

end Rune

namespace Bytes

open Rune

@[simp] theorem runes_nil : runes [] = [] := by
  simp [runes, readAll]

theorem runes_cons (first : UInt8) (rest : Bytes) :
    runes (first :: rest) = (next first rest).1 :: runes (next first rest).2 := by
  rw [runes, readAll, readAll_eq]
  rfl

@[simp] theorem flatMap_bytes_runes (text : Bytes) :
    (runes text).flatMap Rune.bytes = text := by
  induction text using textInduction with
  | nil => simp
  | step first rest induction =>
      rw [runes_cons, List.flatMap_cons, induction, bytes_append_next]

/-- Texts are read one after the other when the second goes on fresh. -/
theorem runes_append (text : Bytes) {tail : Bytes} (fresh : StartsFresh tail) :
    runes (text ++ tail) = runes text ++ runes tail := by
  induction text using textInduction with
  | nil => simp
  | step first rest induction =>
      rw [List.cons_append, runes_cons, next_append first rest fresh, induction, runes_cons,
        List.cons_append]

/-- Reading can be cut where a rune ends: the bytes of the first runes read as these
runes. -/
theorem runes_flatMap_bytes {text : Bytes} {before after : List Rune}
    (split : runes text = before ++ after) :
    runes (before.flatMap Rune.bytes) = before := by
  induction text using textInduction generalizing before with
  | nil =>
      rw [runes_nil] at split
      have empty : before = [] := (List.append_eq_nil_iff.mp split.symm).1
      simp [empty]
  | step first rest induction =>
      cases before with
      | nil => simp
      | cons rune before =>
          rw [runes_cons, List.cons_append, List.cons.injEq] at split
          obtain ⟨rfl, split⟩ := split
          have restored := induction split
          have tailEquality :
              (next first rest).2 =
                before.flatMap Rune.bytes ++ after.flatMap Rune.bytes := by
            rw [← List.flatMap_append, ← split, flatMap_bytes_runes]
          rw [List.flatMap_cons]
          cases read : character? first rest with
          | none =>
              rw [next_of_unread read] at tailEquality ⊢
              have unread : character? first (before.flatMap Rune.bytes) = none := by
                cases headRead : character? first (before.flatMap Rune.bytes) with
                | none => rfl
                | some found =>
                    have extended :=
                      character?_append (after.flatMap Rune.bytes) headRead
                    rw [← tailEquality, read] at extended
                    cases extended
              rw [Rune.bytes, List.singleton_append, runes_cons, next_of_unread unread,
                restored]
          | some found =>
              obtain ⟨inner, tail, rfl, -, spells⟩ := spells_of_character? read
              rw [next_of_spells tail spells, Rune.bytes, spells.encode, List.cons_append,
                runes_cons, next_of_spells _ spells, restored]

/-- Whatever follows the text is read as if it stood alone. -/
def Complete (text : Bytes) : Prop :=
  ∀ tail, runes (text ++ tail) = runes text ++ runes tail

theorem complete_nil : Complete [] := by
  intro tail
  simp

theorem complete_of_valid {text : Bytes} (valid : validUtf8 text = true) :
    Complete text := by
  intro tail
  induction text using textInduction with
  | nil => simp
  | step first rest induction =>
      rw [validUtf8, runes_cons, List.all_cons, Bool.and_eq_true] at valid
      cases read : character? first rest with
      | none => simp [next_of_unread read] at valid
      | some found =>
          obtain ⟨inner, after, rfl, -, spells⟩ := spells_of_character? read
          rw [next_of_spells after spells] at valid induction
          rw [List.cons_append, List.append_assoc, runes_cons, next_of_spells _ spells,
            runes_cons, next_of_spells _ spells, induction valid.2, List.cons_append]

theorem startsFresh_of_valid {text : Bytes} (valid : validUtf8 text = true) :
    StartsFresh text := by
  cases text with
  | nil => simp [StartsFresh]
  | cons first rest =>
      rw [validUtf8, runes_cons, List.all_cons, Bool.and_eq_true] at valid
      cases read : character? first rest with
      | none => simp [next_of_unread read] at valid
      | some found =>
          obtain ⟨inner, after, rfl, -, spells⟩ := spells_of_character? read
          simpa [StartsFresh] using spells.not_continues

theorem startsFresh_append {text : Bytes} (fresh : StartsFresh text) (nonempty : text ≠ [])
    (tail : Bytes) : StartsFresh (text ++ tail) := by
  cases text with
  | nil => exact absurd rfl nonempty
  | cons byte text => simpa [StartsFresh] using fresh

/-- A text that ends with a valid one is complete, whatever stands in front. -/
theorem complete_append {text : Bytes} (front : Bytes) (nonempty : text ≠ [])
    (valid : validUtf8 text = true) : Complete (front ++ text) := by
  intro tail
  have fresh := startsFresh_of_valid valid
  rw [List.append_assoc, runes_append front (startsFresh_append fresh nonempty tail),
    complete_of_valid valid tail, runes_append front fresh, List.append_assoc]

/-- A byte below 128 is a character of its own, whatever stands around it. -/
theorem runes_append_ascii (text : Bytes) {byte : UInt8} (low : byte.toNat < 0x80)
    (tail : Bytes) :
    runes (text ++ byte :: tail) = runes text ++ .char (Char.ofNat byte.toNat) :: runes tail := by
  have spells : Spells byte [] (Char.ofNat byte.toNat) := .one low
  have read : runes (byte :: tail) = .char (Char.ofNat byte.toNat) :: runes tail := by
    simpa [runes_cons] using congrArg (fun read => read.1 :: runes read.2)
      (next_of_spells tail spells)
  have fresh : StartsFresh (byte :: tail) := by
    intro first member
    obtain rfl : byte = first := by simpa using member
    exact spells.not_continues
  rw [runes_append text fresh, read]

/-- A line break separates what is read before it from what is read behind it. -/
theorem runes_append_newline (text tail : Bytes) :
    runes (text ++ newline :: tail) = runes text ++ .char '\n' :: runes tail :=
  runes_append_ascii text (by decide) tail

theorem char_mem_runes_of_mem {text : Bytes} {byte : UInt8} (low : byte.toNat < 0x80)
    (member : byte ∈ text) : .char (Char.ofNat byte.toNat) ∈ runes text := by
  obtain ⟨front, tail, rfl⟩ := List.append_of_mem member
  rw [runes_append_ascii front low tail]
  simp

theorem newline_not_mem_runes {text : Bytes} (visible : newline ∉ text) :
    .char '\n' ∉ runes text := by
  intro member
  apply visible
  rw [← flatMap_bytes_runes text, List.mem_flatMap]
  exact ⟨.char '\n', member, by decide⟩

/-- A text is one line, or it ends with a line behind a line break. -/
theorem exists_lastLine (text : Bytes) :
    newline ∉ text ∨
      ∃ front line, text = front ++ newline :: line ∧ newline ∉ line := by
  induction text with
  | nil => simp
  | cons byte text induction =>
      rcases induction with visible | ⟨front, line, rfl, visible⟩
      · by_cases broken : byte = newline
        · right
          exact ⟨[], text, by simp [broken], visible⟩
        · left
          simpa [visible] using Ne.symm broken
      · right
        exact ⟨byte :: front, line, rfl, visible⟩

theorem count_newline_runes (text : Bytes) :
    (runes text).count (.char '\n') = text.count newline := by
  rcases exists_lastLine text with visible | ⟨front, line, rfl, visible⟩
  · rw [List.count_eq_zero.mpr visible,
      List.count_eq_zero.mpr (newline_not_mem_runes visible)]
  · have frontCount := count_newline_runes front
    rw [runes_append_newline]
    simp [frontCount, List.count_eq_zero.mpr visible,
      List.count_eq_zero.mpr (newline_not_mem_runes visible)]
termination_by text.length

theorem foldl_units (runes : List Rune) (start : Nat) :
    runes.foldl (fun total rune => total + rune.units) start =
      start + (runes.map Rune.units).sum := by
  induction runes generalizing start with
  | nil => simp
  | cons rune runes induction =>
      rw [List.foldl_cons, induction, List.map_cons, List.sum_cons, Nat.add_assoc]

theorem utf16Length_eq_sum (text : Bytes) :
    utf16Length text = ((runes text).map Rune.units).sum := by
  rw [utf16Length, foldl_units, Nat.zero_add]

theorem length_flatMap_bytes (runes : List Rune) :
    (runes.flatMap Rune.bytes).length = (runes.map Rune.size).sum := by
  simp [List.length_flatMap]

theorem length_eq_sum (text : Bytes) :
    text.length = ((runes text).map Rune.size).sum := by
  rw [← length_flatMap_bytes, flatMap_bytes_runes]

end Bytes

end Reroute

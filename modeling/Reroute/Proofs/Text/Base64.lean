import Mathlib
import Reroute.Proofs.SourceMap.RoundTrip
import Reroute.Proofs.Text.Reading

/-!
# Base64 loses nothing

What is written in padded digits is read back, whatever the length of the text.  Groups of
three bytes are written one by one, so it is enough to know what one full group and the two
kinds of padded groups are read as.  Digits and padding are visible ASCII characters, and
reading does not pass over any of them as a line break.
-/

namespace Reroute

/-- A byte that stands for a visible ASCII character. -/
def Bytes.Visible (byte : UInt8) : Prop :=
  0x20 < byte.toNat ∧ byte.toNat < 0x7F

instance (byte : UInt8) : Decidable (Bytes.Visible byte) :=
  inferInstanceAs (Decidable (0x20 < byte.toNat ∧ byte.toNat < 0x7F))

namespace Base64

open Bytes

theorem visible_digit : ∀ value < 64, Visible (digit value) := by
  decide

theorem digit_ne_padding : ∀ value < 64, digit value ≠ padding := by
  decide

/-! ### One group -/

/-- The digits of a group of three bytes. -/
def group (a b c : UInt8) : Bytes :=
  let word := a.toNat * 65536 + b.toNat * 256 + c.toNat
  [digit (word / 262144), digit (word / 4096 % 64), digit (word / 64 % 64), digit (word % 64)]

theorem encodeOnto_eq (done : Bytes) : ∀ text, encodeOnto done text = done.reverse ++ encode text
  | [] => by simp [encode, encodeOnto]
  | [a] => by simp [encode, encodeOnto]
  | [a, b] => by simp [encode, encodeOnto]
  | a :: b :: c :: rest => by
      rw [encode, encodeOnto, encodeOnto, encodeOnto_eq _ rest, encodeOnto_eq _ rest]
      simp

theorem encode_cons_cons_cons (a b c : UInt8) (rest : Bytes) :
    encode (a :: b :: c :: rest) = group a b c ++ encode rest := by
  rw [encode, encodeOnto, encodeOnto_eq]
  rfl

theorem encode_singleton (a : UInt8) :
    encode [a] =
      [digit (a.toNat * 65536 / 262144), digit (a.toNat * 65536 / 4096 % 64),
        padding, padding] :=
  rfl

theorem encode_pair (a b : UInt8) :
    encode [a, b] =
      [digit ((a.toNat * 65536 + b.toNat * 256) / 262144),
        digit ((a.toNat * 65536 + b.toNat * 256) / 4096 % 64),
        digit ((a.toNat * 65536 + b.toNat * 256) / 64 % 64), padding] :=
  rfl

theorem decodeOnto_digits {first second third fourth : Nat} (firstLow : first < 64)
    (secondLow : second < 64) (thirdLow : third < 64) (fourthLow : fourth < 64)
    (done rest : Bytes) :
    decodeOnto done (digit first :: digit second :: digit third :: digit fourth :: rest) =
      decodeOnto
        ((third % 4 * 64 + fourth).toUInt8 :: (second % 16 * 16 + third / 4).toUInt8
          :: (first * 4 + second / 16).toUInt8 :: done) rest := by
  rw [decodeOnto]
  simp [value?_digit, digit_ne_padding, firstLow, secondLow, thirdLow, fourthLow]

theorem decodeOnto_padded {first second third : Nat} (firstLow : first < 64)
    (secondLow : second < 64) (thirdLow : third < 64) (done : Bytes) :
    decodeOnto done [digit first, digit second, digit third, padding] =
      some (done.reverse
        ++ [(first * 4 + second / 16).toUInt8, (second % 16 * 16 + third / 4).toUInt8]) := by
  simp [decodeOnto, value?_digit, digit_ne_padding, firstLow, secondLow, thirdLow]

theorem decodeOnto_paddedTwice {first second : Nat} (firstLow : first < 64)
    (secondLow : second < 64) (done : Bytes) :
    decodeOnto done [digit first, digit second, padding, padding] =
      some (done.reverse ++ [(first * 4 + second / 16).toUInt8]) := by
  simp [decodeOnto, value?_digit, firstLow, secondLow]

/-- Reading a group gives back its bytes. -/
theorem decodeOnto_group (a b c : UInt8) (done rest : Bytes) :
    decodeOnto done (group a b c ++ rest) = decodeOnto (c :: b :: a :: done) rest := by
  have aLow := a.toNat_lt
  have bLow := b.toNat_lt
  have cLow := c.toNat_lt
  rw [group]
  simp only [List.cons_append, List.nil_append]
  rw [decodeOnto_digits (by omega) (by omega) (by omega) (by omega)]
  congr
  · exact Rune.ofNat_eq_of_toNat c (by omega)
  · exact Rune.ofNat_eq_of_toNat b (by omega)
  · exact Rune.ofNat_eq_of_toNat a (by omega)

/-! ### Whole texts -/

theorem decodeOnto_encode (done : Bytes) :
    ∀ text, decodeOnto done (encode text) = some (done.reverse ++ text)
  | [] => by simp [encode, encodeOnto, decodeOnto]
  | [a] => by
      have aLow := a.toNat_lt
      rw [encode_singleton, decodeOnto_paddedTwice (by omega) (by omega), Nat.toUInt8_eq,
        Rune.ofNat_eq_of_toNat a (by omega)]
  | [a, b] => by
      have aLow := a.toNat_lt
      have bLow := b.toNat_lt
      rw [encode_pair, decodeOnto_padded (by omega) (by omega) (by omega), Nat.toUInt8_eq,
        Nat.toUInt8_eq, Rune.ofNat_eq_of_toNat a (by omega), Rune.ofNat_eq_of_toNat b (by omega)]
  | a :: b :: c :: rest => by
      rw [encode_cons_cons_cons, decodeOnto_group, decodeOnto_encode _ rest]
      simp

theorem visible_of_mem_encode : ∀ text, ∀ byte ∈ encode text, Visible byte
  | [] => by simp [encode, encodeOnto]
  | [a] => by
      have aLow := a.toNat_lt
      rw [encode_singleton]
      simp only [List.forall_mem_cons, List.not_mem_nil, false_imp_iff, implies_true, and_true]
      exact ⟨visible_digit _ (by omega), visible_digit _ (by omega), by decide, by decide⟩
  | [a, b] => by
      have aLow := a.toNat_lt
      have bLow := b.toNat_lt
      rw [encode_pair]
      simp only [List.forall_mem_cons, List.not_mem_nil, false_imp_iff, implies_true, and_true]
      exact ⟨visible_digit _ (by omega), visible_digit _ (by omega), visible_digit _ (by omega),
        by decide⟩
  | a :: b :: c :: rest => by
      have aLow := a.toNat_lt
      have bLow := b.toNat_lt
      have cLow := c.toNat_lt
      rw [encode_cons_cons_cons, group, List.forall_mem_append]
      refine ⟨?_, visible_of_mem_encode rest⟩
      simp only [List.forall_mem_cons, List.not_mem_nil, false_imp_iff, implies_true, and_true]
      exact ⟨visible_digit _ (by omega), visible_digit _ (by omega), visible_digit _ (by omega),
        visible_digit _ (by omega)⟩

/-- What was written is read back. -/
theorem decode?_encode (text : Bytes) : decode? (encode text) = some text := by
  have kept : (encode text).filter (fun byte => byte != 10 && byte != 13) = encode text := by
    rw [List.filter_eq_self]
    intro byte member
    have visible := visible_of_mem_encode text byte member
    rw [Bool.and_eq_true, bne_iff_ne, bne_iff_ne]
    constructor
    · rintro rfl
      exact absurd visible (by decide)
    · rintro rfl
      exact absurd visible (by decide)
  rw [decode?, kept, decodeOnto_encode]
  rfl

end Base64

end Reroute

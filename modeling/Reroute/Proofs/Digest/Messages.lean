import Mathlib
import Reroute.ChunkId

/-!
# What digests stand for

Digests are only as good as the messages they are taken of.  As far as digests of some
messages are equal for equal messages only, the identifier of a chunk stands for its
content, and the hexadecimal form of a digest stands for the digest and is ordered as it is.
-/

namespace Reroute

/-- Among these messages, only equal ones share a digest. -/
def DigestsApart (messages : List Bytes) : Prop :=
  ∀ left ∈ messages, ∀ right ∈ messages, sha1 left = sha1 right → left = right

instance (messages : List Bytes) : Decidable (DigestsApart messages) :=
  inferInstanceAs
    (Decidable (∀ left ∈ messages, ∀ right ∈ messages, sha1 left = sha1 right → left = right))

/-- A separator that occurs equally often in both fronts marks where two equal texts are
cut. -/
theorem Bytes.cut_at_counted {separator : UInt8} {left right leftTail rightTail : Bytes}
    (counts : left.count separator = right.count separator)
    (equality : left ++ separator :: leftTail = right ++ separator :: rightTail) :
    left = right ∧ leftTail = rightTail := by
  induction left generalizing right with
  | nil =>
      cases right with
      | nil => exact ⟨rfl, (List.cons.inj equality).2⟩
      | cons byte right =>
          obtain ⟨rfl, -⟩ := List.cons.inj equality
          simp at counts
  | cons byte left induction =>
      cases right with
      | nil =>
          obtain ⟨rfl, -⟩ := List.cons.inj equality
          simp at counts
      | cons other right =>
          obtain ⟨rfl, rest⟩ := List.cons.inj equality
          rw [List.count_cons, List.count_cons, Nat.add_right_cancel_iff] at counts
          obtain ⟨rfl, tails⟩ := induction counts rest
          exact ⟨rfl, tails⟩

/-- A separator that occurs in neither front marks where two equal texts are cut. -/
theorem Bytes.cut_at_separator {separator : UInt8} {left right leftTail rightTail : Bytes}
    (leftClear : separator ∉ left) (rightClear : separator ∉ right)
    (equality : left ++ separator :: leftTail = right ++ separator :: rightTail) :
    left = right ∧ leftTail = rightTail := by
  apply Bytes.cut_at_counted _ equality
  rw [List.count_eq_zero_of_not_mem leftClear, List.count_eq_zero_of_not_mem rightClear]

namespace Numeral

theorem digitsOf_eq_digits {base : Nat} (large : 2 ≤ base) (value : Nat) :
    digitsOf base value = Nat.digits base value := by
  induction value using Nat.strong_induction_on with
  | _ value induction =>
      rw [digitsOf]
      by_cases positive : 0 < value
      · rw [if_pos ⟨large, positive⟩, Nat.digits_def' large positive,
          induction _ (Nat.div_lt_self positive large)]
      · rw [if_neg (fun both => positive both.2), Nat.eq_zero_of_not_pos positive,
          Nat.digits_zero]

theorem digit_ne_zero {value : Nat} (small : value < 16) : digit value ≠ 0 := by
  interval_cases value <;> decide

theorem hexDigit?_digit {value : Nat} (small : value < 16) :
    hexDigit? (digit value) = some value := by
  interval_cases value <;> decide

theorem zero_not_mem_map_digit {digits : List Nat} (small : ∀ value ∈ digits, value < 16) :
    0 ∉ digits.map digit := by
  intro member
  obtain ⟨value, inside, equality⟩ := List.mem_map.mp member
  exact digit_ne_zero (small value inside) equality

theorem zero_not_mem_ofNat (value : Nat) : 0 ∉ ofNat value := by
  unfold ofNat
  split
  · decide
  · rw [List.mem_reverse, digitsOf_eq_digits (by decide)]
    apply zero_not_mem_map_digit
    intro digit member
    exact Nat.lt_trans (Nat.digits_lt_base (by decide) member) (by decide)

/-- The digits of a padded hexadecimal numeral, most significant first. -/
def paddedDigits (width value : Nat) : List Nat :=
  List.replicate (width - (Nat.digits 16 value).length) 0 ++ (Nat.digits 16 value).reverse

theorem hexPadded_eq (width value : Nat) :
    hexPadded digit width value = (paddedDigits width value).map digit := by
  simp [hexPadded, paddedDigits, digitsOf_eq_digits, digit]

theorem paddedDigits_lt {width value digit : Nat} (member : digit ∈ paddedDigits width value) :
    digit < 16 := by
  rcases List.mem_append.mp member with padding | proper
  · rw [(List.mem_replicate.mp padding).2]
    decide
  · exact Nat.digits_lt_base (by decide) (List.mem_reverse.mp proper)

theorem foldl_paddedDigits (width value : Nat) :
    (paddedDigits width value).foldl (fun total digit => total * 16 + digit) 0 = value := by
  have padding (count : Nat) :
      (List.replicate count 0).foldl (fun total digit => total * 16 + digit) 0 = 0 := by
    induction count with
    | zero => rfl
    | succ count induction => simpa [List.replicate_succ] using induction
  have proper : (Nat.digits 16 value).foldr (fun digit total => total * 16 + digit) 0 =
      Nat.ofDigits 16 (Nat.digits 16 value) := by
    rw [Nat.ofDigits_eq_foldr]
    congr 1
    funext digit total
    simp [Nat.add_comm, Nat.mul_comm]
  rw [paddedDigits, List.foldl_append, padding, List.foldl_reverse, proper, Nat.ofDigits_digits]

theorem length_paddedDigits {width value : Nat} (small : value < 16 ^ width) :
    (paddedDigits width value).length = width := by
  have fits := (Nat.digits_length_le_iff (by decide) value).mpr small
  simp only [paddedDigits, List.length_append, List.length_replicate, List.length_reverse]
  omega

theorem digit_lt_digit_iff {left right : Nat} (leftSmall : left < 16) (rightSmall : right < 16) :
    digit left < digit right ↔ left < right := by
  have all : ∀ left right : Fin 16, digit left < digit right ↔ left < right := by decide
  exact all ⟨left, leftSmall⟩ ⟨right, rightSmall⟩

/-- A smaller start gives a smaller number, whatever digits are read onto both. -/
theorem foldl_lt_foldl {left right : List Nat} (small : ∀ value ∈ left, value < 16)
    (size : left.length = right.length) {first second : Nat} (less : first < second) :
    left.foldl (fun total digit => total * 16 + digit) first <
      right.foldl (fun total digit => total * 16 + digit) second := by
  induction left generalizing right first second with
  | nil =>
      obtain rfl := List.length_eq_zero_iff.mp size.symm
      exact less
  | cons digit left induction =>
      cases right with
      | nil => simp at size
      | cons other right =>
          have bound := small digit List.mem_cons_self
          rw [List.foldl_cons, List.foldl_cons]
          apply induction (fun value member => small value (List.mem_cons_of_mem _ member))
          · simpa using size
          · omega

/-- Numerals of the same length are ordered as the numbers they stand for. -/
theorem map_digit_lt_iff {left right : List Nat} (leftSmall : ∀ value ∈ left, value < 16)
    (rightSmall : ∀ value ∈ right, value < 16) (size : left.length = right.length)
    (start : Nat) :
    left.map digit < right.map digit ↔
      left.foldl (fun total digit => total * 16 + digit) start <
        right.foldl (fun total digit => total * 16 + digit) start := by
  induction left generalizing right start with
  | nil =>
      obtain rfl := List.length_eq_zero_iff.mp size.symm
      simp
  | cons first left induction =>
      cases right with
      | nil => simp at size
      | cons second right =>
          simp only [List.forall_mem_cons] at leftSmall rightSmall
          simp only [List.length_cons, Nat.add_right_cancel_iff] at size
          rw [List.map_cons, List.map_cons, List.cons_lt_cons_iff,
            digit_lt_digit_iff leftSmall.1 rightSmall.1, List.foldl_cons, List.foldl_cons]
          rcases lt_trichotomy first second with less | rfl | greater
          · have reads := foldl_lt_foldl leftSmall.2 size
              (show start * 16 + first < start * 16 + second by omega)
            simp [less, reads]
          · simpa using induction leftSmall.2 rightSmall.2 size (start * 16 + first)
          · have reads := foldl_lt_foldl rightSmall.2 size.symm
              (show start * 16 + second < start * 16 + first by omega)
            have different : digit first ≠ digit second := by
              intro same
              have read := hexDigit?_digit leftSmall.1
              rw [same, hexDigit?_digit rightSmall.1, Option.some.injEq] at read
              omega
            simp [Nat.not_lt_of_gt greater, Nat.not_lt_of_gt reads, different]

end Numeral

namespace ChunkId

theorem readDigits_map_digit {digits : List Nat} (small : ∀ value ∈ digits, value < 16)
    (total : Nat) :
    readDigits total (digits.map Numeral.digit) =
      .ok (digits.foldl (fun total digit => total * 16 + digit) total) := by
  induction digits generalizing total with
  | nil => rfl
  | cons digit digits induction =>
      rw [List.map_cons, readDigits, Numeral.hexDigit?_digit (small digit (by simp))]
      exact induction (fun value member => small value (List.mem_cons_of_mem _ member)) _

/-- The message whose digest identifies a content. -/
def message (content : Bytes) : Bytes :=
  utf8 "blob " ++ Numeral.ofNat content.length ++ 0 :: content

theorem message_injective {left right : Bytes} (equality : message left = message right) :
    left = right := by
  unfold message at equality
  rw [List.append_assoc, List.append_assoc, List.append_cancel_left_eq] at equality
  exact (Bytes.cut_at_separator (Numeral.zero_not_mem_ofNat _) (Numeral.zero_not_mem_ofNat _)
    equality).2

theorem content_eq_of_ofContent_eq {messages : List Bytes} (apart : DigestsApart messages)
    {left right : Bytes} (leftHashed : message left ∈ messages)
    (rightHashed : message right ∈ messages) (equality : ofContent left = ofContent right) :
    left = right :=
  message_injective (apart _ leftHashed _ rightHashed equality)

end ChunkId

namespace Digest

theorem zero_not_mem_hex (digest : Digest) : 0 ∉ digest.hex := by
  rw [hex, Numeral.hexPadded_eq]
  exact Numeral.zero_not_mem_map_digit (fun value member => Numeral.paddedDigits_lt member)

theorem readDigits_hex (digest : Digest) :
    ChunkId.readDigits 0 digest.hex = .ok digest.value.toNat := by
  rw [hex, Numeral.hexPadded_eq,
    ChunkId.readDigits_map_digit (fun value member => Numeral.paddedDigits_lt member),
    Numeral.foldl_paddedDigits]

theorem hex_injective {left right : Digest} (equality : left.hex = right.hex) :
    left = right := by
  have read := readDigits_hex left
  rw [equality, readDigits_hex, Except.ok.injEq] at read
  exact congrArg Digest.mk (BitVec.eq_of_toNat_eq read.symm)

/-- Hexadecimal forms are ordered as the numbers they stand for. -/
theorem hex_lt_hex_iff (left right : Digest) :
    left.hex < right.hex ↔ left.value.toNat < right.value.toNat := by
  have size (digest : Digest) : (Numeral.paddedDigits 40 digest.value.toNat).length = 40 :=
    Numeral.length_paddedDigits digest.value.isLt
  rw [hex, hex, Numeral.hexPadded_eq, Numeral.hexPadded_eq,
    Numeral.map_digit_lt_iff (fun value member => Numeral.paddedDigits_lt member)
      (fun value member => Numeral.paddedDigits_lt member) ((size left).trans (size right).symm) 0,
    Numeral.foldl_paddedDigits, Numeral.foldl_paddedDigits]

end Digest

end Reroute

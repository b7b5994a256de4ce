import Mathlib
import Reroute.Proofs.Json.RoundTrip

/-!
# String literals

The grammar of string literals, with every choice of escapes: a character stands for itself or is
written by a letter, by its code unit or by two surrogate units behind a backslash.  A surrogate
unit that has no partner stands for U+FFFD.  A string is read exactly if it is spelled by this
grammar, as the content that it spells.
-/

namespace Reroute.Json

/-- The text starts with the escape of a code unit. -/
def UnitEscape (unit : Nat) (text rest : Bytes) : Prop :=
  ∃ a b c d, text = 92 :: 117 :: a :: b :: c :: d :: rest ∧ codeUnit? a b c d = some unit

/-- The text starts with escapes of code units that stand for a code point. -/
inductive CodeEscape : Nat → Bytes → Bytes → Prop where
  | unit {unit : Nat} {text rest : Bytes} :
      UnitEscape unit text rest → isHighSurrogate unit = false → isLowSurrogate unit = false →
      CodeEscape unit text rest
  | pair {high low : Nat} {text between rest : Bytes} :
      UnitEscape high text between → isHighSurrogate high = true →
      UnitEscape low between rest → isLowSurrogate low = true →
      CodeEscape ((high - 0xD800) * 1024 + (low - 0xDC00) + 0x10000) text rest
  | low {unit : Nat} {text rest : Bytes} :
      UnitEscape unit text rest → isLowSurrogate unit = true → CodeEscape 0xFFFD text rest
  | high {unit : Nat} {text rest : Bytes} :
      UnitEscape unit text rest → isHighSurrogate unit = true →
      (∀ other after, UnitEscape other rest after → isLowSurrogate other = false) →
      CodeEscape 0xFFFD text rest

/-- The text starts with the rest of a string literal, up to its closing quote, that spells a
content. -/
inductive Spells : Bytes → Bytes → Bytes → Prop where
  | close (rest : Bytes) : Spells (34 :: rest) [] rest
  | plain {byte : UInt8} {text content rest : Bytes} :
      0x20 ≤ byte.toNat → byte ≠ 34 → byte ≠ 92 → Spells text content rest →
      Spells (byte :: text) (byte :: content) rest
  | letter {letter byte : UInt8} {text content rest : Bytes} :
      unescape? letter = some byte → Spells text content rest →
      Spells (92 :: letter :: text) (byte :: content) rest
  | code {code : Nat} {text after content rest : Bytes} :
      CodeEscape code text after → Spells after content rest →
      Spells text (String.utf8EncodeChar (Char.ofNat code) ++ content) rest

/-- The text is a string literal of a content.  Stray bytes stand for U+FFFD. -/
def Literal (text content : Bytes) : Prop :=
  ∃ inside raw, text = 34 :: inside ∧ Spells inside raw [] ∧ content = sanitize raw

theorem not_isLowSurrogate {unit : Nat} (high : isHighSurrogate unit = true) :
    isLowSurrogate unit = false := by
  simp only [isHighSurrogate, isLowSurrogate, Bool.and_eq_true, Bool.and_eq_false_iff,
    decide_eq_true_eq, decide_eq_false_iff_not] at high ⊢
  omega

theorem unicodeEscape?_of_codeEscape {code : Nat} {text rest : Bytes}
    (escape : CodeEscape code text rest) :
    ∃ inside width, text = 92 :: 117 :: inside ∧ unicodeEscape? inside = some (code, width) ∧
      inside.drop width = rest := by
  cases escape with
  | unit unit high low =>
      obtain ⟨a, b, c, d, rfl, named⟩ := unit
      exact ⟨_, 4, rfl, by simp [unicodeEscape?, named, high, low], rfl⟩
  | pair first high second low =>
      obtain ⟨a, b, c, d, rfl, named⟩ := first
      obtain ⟨e, f, g, h, rfl, secondNamed⟩ := second
      exact ⟨_, 10, rfl, by simp [unicodeEscape?, named, high, secondNamed, low], rfl⟩
  | low unit low =>
      obtain ⟨a, b, c, d, rfl, named⟩ := unit
      have high : isHighSurrogate _ = false :=
        Bool.eq_false_iff.mpr fun high => Bool.eq_false_iff.mp (not_isLowSurrogate high) low
      exact ⟨_, 4, rfl, by simp [unicodeEscape?, named, high, low], rfl⟩
  | high unit high alone =>
      obtain ⟨a, b, c, d, rfl, named⟩ := unit
      refine ⟨_, 4, rfl, ?_, rfl⟩
      simp only [unicodeEscape?, named, high, if_true]
      split
      · next e f g h after =>
          cases second : codeUnit? e f g h with
          | none => rfl
          | some other =>
              have single := alone other after ⟨e, f, g, h, rfl, second⟩
              simp [single]
      · rfl

/-- Every escape of a code unit stands for a code point, alone or with the next one. -/
theorem exists_codeEscape {unit : Nat} {text rest : Bytes} (first : UnitEscape unit text rest) :
    ∃ code after, CodeEscape code text after := by
  by_cases high : isHighSurrogate unit = true
  · by_cases paired : ∃ other after, UnitEscape other rest after ∧ isLowSurrogate other = true
    · obtain ⟨other, after, second, low⟩ := paired
      exact ⟨_, after, .pair first high second low⟩
    · refine ⟨_, rest, .high first high ?_⟩
      intro other after second
      by_contra low
      exact paired ⟨other, after, second, Bool.eq_true_of_not_eq_false low⟩
  · by_cases low : isLowSurrogate unit = true
    · exact ⟨_, rest, .low first low⟩
    · exact ⟨unit, rest, .unit first (Bool.eq_false_iff.mpr high) (Bool.eq_false_iff.mpr low)⟩

theorem codeEscape_of_unicodeEscape? {code width : Nat} {inside : Bytes}
    (read : unicodeEscape? inside = some (code, width)) :
    CodeEscape code (92 :: 117 :: inside) (inside.drop width) := by
  obtain ⟨unit, rest, first⟩ : ∃ unit rest, UnitEscape unit (92 :: 117 :: inside) rest := by
    match inside with
    | a :: b :: c :: d :: rest =>
        cases named : codeUnit? a b c d with
        | none => simp [unicodeEscape?, named] at read
        | some unit => exact ⟨unit, rest, a, b, c, d, rfl, named⟩
    | [] | [_] | [_, _] | [_, _, _] => simp [unicodeEscape?] at read
  obtain ⟨other, after, escape⟩ := exists_codeEscape first
  obtain ⟨same, otherWidth, equality, otherRead, rfl⟩ := unicodeEscape?_of_codeEscape escape
  cases equality
  rw [read] at otherRead
  cases otherRead
  exact escape

theorem CodeEscape.exists_append {code : Nat} {text rest : Bytes}
    (escape : CodeEscape code text rest) : ∃ inside, text = inside ++ rest := by
  obtain ⟨inside, width, rfl, -, rfl⟩ := unicodeEscape?_of_codeEscape escape
  exact ⟨92 :: 117 :: inside.take width, by simp⟩

theorem Spells.exists_append {text content rest : Bytes} (spells : Spells text content rest) :
    ∃ inside, text = inside ++ 34 :: rest := by
  induction spells with
  | close rest => exact ⟨[], rfl⟩
  | plain visible quote backslash spells induction =>
      obtain ⟨inside, rfl⟩ := induction
      exact ⟨_ :: inside, rfl⟩
  | letter unescaped spells induction =>
      obtain ⟨inside, rfl⟩ := induction
      exact ⟨92 :: _ :: inside, rfl⟩
  | code escape spells induction =>
      obtain ⟨inside, rfl⟩ := induction
      obtain ⟨front, rfl⟩ := escape.exists_append
      exact ⟨front ++ inside, by rw [List.append_assoc]⟩

theorem Spells.ne_nil {text content rest : Bytes} (spells : Spells text content rest) :
    text ≠ [] := by
  obtain ⟨inside, rfl⟩ := spells.exists_append
  simp

theorem readString_of_spells {text content rest : Bytes} (spells : Spells text content rest)
    (done : Bytes) : readString done text = some (sanitize (done.reverse ++ content), rest) := by
  induction spells generalizing done with
  | close rest => simp [readString]
  | @plain byte text content rest visible quote backslash spells induction =>
      have plain : ∀ other ∈ [byte], 0x20 ≤ other.toNat ∧ other ≠ 34 ∧ other ≠ 92 := by
        simpa using ⟨visible, quote, backslash⟩
      have read := readString_plain plain done text
      rw [List.singleton_append] at read
      rw [read, induction]
      simp
  | letter unescaped spells induction =>
      rw [readString_letter _ _ unescaped, induction]
      simp
  | code escape spells induction =>
      obtain ⟨inside, width, rfl, read, rfl⟩ := unicodeEscape?_of_codeEscape escape
      rw [readString, read]
      simp only [induction, pushCode, List.reverse_append, List.reverse_reverse,
        List.append_assoc]

theorem exists_spells_of_readString {done text content rest : Bytes}
    (read : readString done text = some (content, rest)) :
    ∃ raw, Spells text raw rest ∧ content = sanitize (done.reverse ++ raw) := by
  fun_induction readString done text with
  | case1 => simp at read
  | case2 done rest =>
      cases read
      exact ⟨[], .close _, by rw [List.append_nil]⟩
  | case3 done rest code width escape induction =>
      obtain ⟨raw, spells, rfl⟩ := induction read
      refine ⟨_, .code (codeEscape_of_unicodeEscape? escape) spells, ?_⟩
      simp [pushCode]
  | case4 => simp at read
  | case5 done letter rest different byte unescaped induction =>
      obtain ⟨raw, spells, rfl⟩ := induction read
      refine ⟨_, .letter unescaped spells, ?_⟩
      simp
  | case6 => simp at read
  | case7 => simp at read
  | case8 done byte rest quote escape unescape plain induction =>
      obtain ⟨raw, spells, rfl⟩ := induction read
      refine ⟨byte :: raw, .plain (Nat.not_lt.mp plain) ?_ ?_ spells, ?_⟩
      · exact quote
      · rintro rfl
        cases rest with
        | nil => exact spells.ne_nil rfl
        | cons letter rest => exact unescape letter rest rfl rfl
      · simp

/-- A literal is read as the content it spells, and nothing else is read as a string. -/
theorem literal_iff {text content : Bytes} :
    Literal text content ↔ ∃ inside, text = 34 :: inside ∧
      readString [] inside = some (content, []) := by
  constructor
  · rintro ⟨inside, raw, rfl, spells, rfl⟩
    exact ⟨inside, rfl, readString_of_spells spells []⟩
  · rintro ⟨inside, rfl, read⟩
    obtain ⟨raw, spells, rfl⟩ := exists_spells_of_readString read
    exact ⟨inside, raw, rfl, spells, rfl⟩

theorem Literal.parse?_eq {text content : Bytes} (literal : Literal text content) :
    parse? text = some (.string content) := by
  obtain ⟨inside, rfl, read⟩ := literal_iff.mp literal
  rw [parse?, read?, enoughFuel, readValue, skipBlanks_cons 34 rfl]
  simp only [read]
  rfl

theorem Literal.ends {text content : Bytes} (literal : Literal text content) :
    text.head? = some 34 ∧ text.getLast? = some 34 := by
  obtain ⟨inside, raw, rfl, spells, -⟩ := literal
  obtain ⟨front, rfl⟩ := spells.exists_append
  exact ⟨rfl, List.getLast?_eq_some_iff.mpr ⟨34 :: front, rfl⟩⟩

end Reroute.Json

import Reroute.Text.Rune

/-!
# Expressions that match paths

Regular expressions with anchors and word boundaries.  Matching follows all readings of
an expression at once: a set of offsets goes in, and the offsets that can be reached by
matching the expression from one of them come out.  An expression matches a text if it
matches any stretch of it.
-/

namespace Reroute.Ignore

/-- Ranges of character codes, or everything outside of them. -/
structure CodeRanges where
  ranges : List (Nat × Nat)
  outside : Bool
  deriving DecidableEq, Repr

/-- The code is in one of the ranges, or in none if the outside is meant. -/
def CodeRanges.contains (codes : CodeRanges) (code : Nat) : Bool :=
  codes.outside != codes.ranges.any fun (low, high) => low ≤ code && code ≤ high

/-- A set of characters: a union of ranges, or everything outside of it. -/
structure CharacterSet where
  parts : List CodeRanges
  negated : Bool
  deriving DecidableEq, Repr

namespace CharacterSet

/-- The set has the character with a code. -/
def contains (set : CharacterSet) (code : Nat) : Bool :=
  set.negated != set.parts.any fun part => part.contains code

/-- The set of one character. -/
def single (code : Nat) : CharacterSet :=
  ⟨[⟨[(code, code)], false⟩], false⟩

/-- All characters but the newline. -/
def anyButNewline : CharacterSet :=
  ⟨[⟨[(10, 10)], false⟩], true⟩

end CharacterSet

/-- An expression. -/
inductive Expression where
  | empty
  | one (set : CharacterSet)
  | textStart
  | textEnd
  | wordBoundary
  | noWordBoundary
  | group (inner : Expression)
  | sequence (first second : Expression)
  | choice (left right : Expression)
  | repeated (inner : Expression) (least : Nat) (most : Option Nat)
  deriving Repr

/-- The ranges of the characters that words consist of. -/
def wordRanges : List (Nat × Nat) :=
  [(48, 57), (65, 90), (95, 95), (97, 122)]

/-- The character at an offset belongs to a word. -/
def isWordAt (text : Array Nat) (offset : Nat) : Bool :=
  match text[offset]? with
  | some code => CodeRanges.contains ⟨wordRanges, false⟩ code
  | none => false

/-- A word starts or ends at an offset. -/
def isBoundary (text : Array Nat) (offset : Nat) : Bool :=
  (0 < offset && isWordAt text (offset - 1)) != isWordAt text offset

/-- Offsets without repetition. -/
def unite (left right : List Nat) : List Nat :=
  left ++ right.filter fun offset => !left.contains offset

/-- Take a step a number of times. -/
def takeTimes (step : List Nat → List Nat) : Nat → List Nat → List Nat
  | 0, offsets => offsets
  | count + 1, offsets => takeTimes step count (step offsets)

/-- Take a step at most a number of times, as long as it leads anywhere new. -/
def takeUpTo (step : List Nat → List Nat) : Nat → List Nat → List Nat
  | 0, offsets => offsets
  | count + 1, offsets =>
      let reached := unite offsets (step offsets).eraseDups
      if reached.length == offsets.length then offsets else takeUpTo step count reached

namespace Expression

/-- The offsets that can be reached by matching an expression from one of the given ones.
Without an upper bound, repetition is followed until no new offset is reached, which takes
no more steps than there are offsets. -/
def reach (text : Array Nat) : Expression → List Nat → List Nat
  | .empty, offsets => offsets
  | .one set, offsets =>
      offsets.filterMap fun offset =>
        match text[offset]? with
        | some code => if set.contains code then some (offset + 1) else none
        | none => none
  | .textStart, offsets => offsets.filter fun offset => offset == 0
  | .textEnd, offsets => offsets.filter fun offset => offset == text.size
  | .wordBoundary, offsets => offsets.filter (isBoundary text)
  | .noWordBoundary, offsets => offsets.filter fun offset => !isBoundary text offset
  | .group inner, offsets => reach text inner offsets
  | .sequence first second, offsets => reach text second (reach text first offsets)
  | .choice left right, offsets => unite (reach text left offsets) (reach text right offsets)
  | .repeated inner least most, offsets =>
      let started := takeTimes (reach text inner) least offsets
      match most with
      | some most => takeUpTo (reach text inner) (most - least) started
      | none => takeUpTo (reach text inner) (text.size + 1) started

/-- The expression matches some stretch of a text. -/
def isFoundIn (expression : Expression) (text : Bytes) : Bool :=
  let codes := ((Bytes.chars text).map Char.toNat).toArray
  !(expression.reach codes (List.range (codes.size + 1))).isEmpty

/-- Nested bounded repetitions multiply to at most a limit. -/
def repeatsWithin : Nat → Expression → Bool
  | limit, .repeated inner least most =>
      match most.getD least with
      | 0 => most == some 0 || inner.repeatsWithin limit
      | count + 1 => count + 1 ≤ limit && inner.repeatsWithin (limit / (count + 1))
  | limit, .group inner => inner.repeatsWithin limit
  | limit, .sequence first second =>
      first.repeatsWithin limit && second.repeatsWithin limit
  | limit, .choice left right => left.repeatsWithin limit && right.repeatsWithin limit
  | _, _ => true

end Expression

end Reroute.Ignore

import Reroute.Ignore.Property
import Reroute.Ignore.Shape
import Reroute.Text.Numeral

/-!
# Reading expressions

The written form of expressions: `|` divides alternatives, parentheses group, brackets
hold sets, `*`, `+`, `?` and counts in braces repeat what stands before them, and the
backslash escapes.  Repetitions do not stack, and counts stay below a limit.
-/

namespace Reroute.Ignore

/-- The largest count of a repetition. -/
def mostRepeats : Nat := 1000

/-- The character is an octal digit. -/
def isOctal (character : Char) : Bool :=
  '0' ≤ character && character ≤ '7'

/-- The value of a hexadecimal digit. -/
def hexValue? (character : Char) : Option Nat :=
  if character.toNat < 128 then Numeral.hexDigit? character.toNat.toUInt8 else none

/-- Take at most a number of octal digits into a code. -/
def readOctal : Nat → Nat → List Char → Nat × List Char
  | 0, code, text => (code, text)
  | _, code, [] => (code, [])
  | count + 1, code, character :: rest =>
      if isOctal character then readOctal count (code * 8 + (character.toNat - 48)) rest
      else (code, character :: rest)

/-- Take hexadecimal digits up to a closing brace into a code, of which there has to be
at least one. -/
def readBraced (code : Nat) (found : Bool) : List Char → Option (Nat × List Char)
  | [] => none
  | '}' :: rest => if found then some (code, rest) else none
  | character :: rest =>
      match hexValue? character with
      | none => none
      | some value =>
          if code * 16 + value ≤ 0x10FFFF then readBraced (code * 16 + value) true rest
          else none

/-- The code of an escaped character, read from behind the backslash. -/
def readEscape : List Char → Option (Nat × List Char)
  | [] => none
  | 'a' :: rest => some (7, rest)
  | 'f' :: rest => some (12, rest)
  | 'n' :: rest => some (10, rest)
  | 'r' :: rest => some (13, rest)
  | 't' :: rest => some (9, rest)
  | 'v' :: rest => some (11, rest)
  | 'x' :: '{' :: rest => readBraced 0 false rest
  | 'x' :: first :: second :: rest =>
      match hexValue? first, hexValue? second with
      | some high, some low => some (high * 16 + low, rest)
      | _, _ => none
  | character :: rest =>
      if isOctal character then
        if character == '0' || (rest.head?.any isOctal) then
          some (readOctal 2 (character.toNat - 48) rest)
        else none
      else if character.toNat < 128 && !character.isAlphanum then
        some (character.toNat, rest)
      else none

/-- The ranges of a class that one letter names. -/
def letterRanges? (letter : Char) : Option (List (Nat × Nat)) :=
  match letter with
  | 'd' => some [(48, 57)]
  | 's' => some [(9, 10), (12, 13), (32, 32)]
  | 'w' => some wordRanges
  | _ => none

/-- The class that a letter behind a backslash names; a capital means the outside. -/
def letterClass? (letter : Char) : Option CodeRanges :=
  match letterRanges? letter with
  | some ranges => some ⟨ranges, false⟩
  | none =>
      if letter.isUpper then (letterRanges? letter.toLower).map fun ranges => ⟨ranges, true⟩
      else none

/-- A class behind a backslash, named by a letter or a property.  The outer result is
absent if no class starts here, the inner one if it has no such name. -/
def readClass? : List Char → Option (Option (CodeRanges × List Char))
  | [] => none
  | letter :: rest =>
      if letter == 'p' || letter == 'P' then some (Property.read (letter == 'P') rest)
      else (letterClass? letter).map fun codes => some (codes, rest)

/-- The ranges of a class that a word names. -/
def wordClass? (name : List Char) : Option (List (Nat × Nat)) :=
  match String.ofList name with
  | "alnum" => some [(48, 57), (65, 90), (97, 122)]
  | "alpha" => some [(65, 90), (97, 122)]
  | "ascii" => some [(0, 127)]
  | "blank" => some [(9, 9), (32, 32)]
  | "cntrl" => some [(0, 31), (127, 127)]
  | "digit" => some [(48, 57)]
  | "graph" => some [(33, 126)]
  | "lower" => some [(97, 122)]
  | "print" => some [(32, 126)]
  | "punct" => some [(33, 47), (58, 64), (91, 96), (123, 126)]
  | "space" => some [(9, 13), (32, 32)]
  | "upper" => some [(65, 90)]
  | "word" => some wordRanges
  | "xdigit" => some [(48, 57), (65, 70), (97, 102)]
  | _ => none

/-- The named class with a name that may start with a caret, which means the outside. -/
def namedClass? : List Char → Option CodeRanges
  | '^' :: name => (wordClass? name).map fun ranges => ⟨ranges, true⟩
  | name => (wordClass? name).map fun ranges => ⟨ranges, false⟩

/-- A text up to the first colon that a bracket follows, and what stands behind both. -/
def splitName (done : List Char) : List Char → Option (List Char × List Char)
  | [] => none
  | ':' :: ']' :: rest => some (done.reverse, rest)
  | character :: rest => splitName (character :: done) rest

/-- A character of a set. -/
def readMember : List Char → Option (Nat × List Char)
  | [] => none
  | '\\' :: rest => readEscape rest
  | character :: rest => some (character.toNat, rest)

/-- A character or a range of a set. -/
def readRange (text : List Char) : Option (CodeRanges × List Char) :=
  match readMember text with
  | none => none
  | some (low, rest) =>
      match rest with
      | '-' :: next :: more =>
          if next == ']' then some (⟨[(low, low)], false⟩, rest)
          else
            match readMember (next :: more) with
            | none => none
            | some (high, after) =>
                if high < low then none else some (⟨[(low, high)], false⟩, after)
      | _ => some (⟨[(low, low)], false⟩, rest)

/-- One part of a set: a named class, a class behind a backslash, a character or a
range. -/
def readPart (text : List Char) : Option (CodeRanges × List Char) :=
  match text with
  | '[' :: ':' :: rest =>
      match splitName [] rest with
      | some (name, after) => (namedClass? name).map fun codes => (codes, after)
      | none => readRange text
  | '\\' :: rest => (readClass? rest).getD (readRange text)
  | _ => readRange text

/-- The parts of a set up to its closing bracket, which may also be its first member. -/
def readParts : Nat → Bool → List CodeRanges → List Char →
    Option (List CodeRanges × List Char)
  | 0, _, _, _ => none
  | fuel + 1, isFirst, done, text =>
      match text with
      | [] => none
      | character :: rest =>
          if character == ']' && !isFirst then some (done.reverse, rest)
          else
            match readPart text with
            | none => none
            | some (part, after) => readParts fuel false (part :: done) after

/-- A set, read from behind its opening bracket. -/
def readSet (text : List Char) : Option (CharacterSet × List Char) :=
  let (negated, body) :=
    match text with
    | '^' :: body => (true, body)
    | _ => (false, text)
  (readParts (body.length + 1) true [] body).map fun (parts, rest) =>
    (⟨parts, negated⟩, rest)

/-- A count without superfluous zeros. -/
def readCount (text : List Char) : Option (Nat × List Char) :=
  let digits := text.takeWhile Char.isDigit
  let rest := text.dropWhile Char.isDigit
  if digits.isEmpty || (digits.length != 1 && digits.head? == some '0') then none
  else
    some (digits.foldl (fun total digit => total * 10 + (digit.toNat - 48)) 0, rest)

/-- The bounds of a repetition, read from behind the opening brace. -/
def readBounds (text : List Char) : Option (Nat × Option Nat × List Char) :=
  match readCount text with
  | none => none
  | some (least, '}' :: rest) => some (least, some least, rest)
  | some (least, ',' :: '}' :: rest) => some (least, none, rest)
  | some (least, ',' :: rest) =>
      match readCount rest with
      | some (most, '}' :: after) => some (least, some most, after)
      | _ => none
  | some _ => none

/-- The bounds are in order and below the limit. -/
def boundsAllowed (least : Nat) (most : Option Nat) : Bool :=
  least ≤ mostRepeats && most.all fun most => most ≤ mostRepeats && least ≤ most

def repeatLatest (least : Nat) (most : Option Nat) :
    List Expression → Option (List Expression)
  | [] => none
  | inner :: earlier =>
      let outcome := Expression.repeated inner least most
      if (2 ≤ least || most.any (2 ≤ ·)) && !outcome.repeatsWithin mostRepeats then none
      else some (outcome :: earlier)

/-- The literal text up to the mark that ends it, and what stands behind the mark. -/
def splitLiteral (done : List Char) : List Char → List Char × List Char
  | [] => (done.reverse, [])
  | '\\' :: 'E' :: rest => (done.reverse, rest)
  | character :: rest => splitLiteral (character :: done) rest

/-- The expression of a character. -/
def literal (code : Nat) : Expression :=
  .one (.single code)

/-- Put expressions, latest first, one behind the other. -/
def chain (latestFirst : List Expression) : Expression :=
  latestFirst.foldl (fun rest first => .sequence first rest) .empty

/-- What an escape adds to the expressions read so far. -/
def readEscaped (done : List Expression) (text : List Char) :
    Option (List Expression × List Char) :=
  match text with
  | 'A' :: rest => some (.textStart :: done, rest)
  | 'z' :: rest => some (.textEnd :: done, rest)
  | 'b' :: rest => some (.wordBoundary :: done, rest)
  | 'B' :: rest => some (.noWordBoundary :: done, rest)
  | 'Q' :: rest =>
      let (content, after) := splitLiteral [] rest
      some ((content.map fun character => literal character.toNat).reverse ++ done, after)
  | _ =>
      match readClass? text with
      | some found => found.map fun (codes, rest) => (.one ⟨[codes], false⟩ :: done, rest)
      | none => (readEscape text).map fun (code, rest) => (literal code :: done, rest)

mutual

/-- Read alternatives up to the end or to a closing parenthesis. -/
def readChoice (fuel : Nat) (text : List Char) : Option (Expression × List Char) :=
  match fuel with
  | 0 => none
  | fuel + 1 =>
      match readSequence fuel [] false text with
      | none => none
      | some (first, '|' :: rest) =>
          (readChoice fuel rest).map fun (others, after) => (.choice first others, after)
      | some (first, rest) => some (first, rest)

/-- Read on behind some expressions, latest first, up to a bar, a closing parenthesis or
the end.  `repeated` tells that a repetition was read last. -/
def readSequence (fuel : Nat) (done : List Expression) (repeated : Bool)
    (text : List Char) : Option (Expression × List Char) :=
  match fuel with
  | 0 => none
  | fuel + 1 =>
      let repeatBy (least : Nat) (most : Option Nat) (rest : List Char) :=
        if repeated then none
        else
          match repeatLatest least most done with
          | none => none
          | some next => readSequence fuel next true rest
      match text with
      | [] => some (chain done, [])
      | '|' :: _ => some (chain done, text)
      | ')' :: _ => some (chain done, text)
      | '(' :: rest =>
          match readChoice fuel rest with
          | some (inner, ')' :: after) => readSequence fuel (.group inner :: done) false after
          | _ => none
      | '[' :: rest =>
          match readSet rest with
          | some (set, after) => readSequence fuel (.one set :: done) false after
          | none => none
      | '^' :: rest => readSequence fuel (.textStart :: done) false rest
      | '$' :: rest => readSequence fuel (.textEnd :: done) false rest
      | '.' :: rest => readSequence fuel (.one .anyButNewline :: done) false rest
      | '*' :: rest => repeatBy 0 none rest
      | '+' :: rest => repeatBy 1 none rest
      | '?' :: rest => repeatBy 0 (some 1) rest
      | '\\' :: rest =>
          match readEscaped done rest with
          | some (next, after) => readSequence fuel next false after
          | none => none
      | character :: rest =>
          match if character == '{' then readBounds rest else none with
          | some (least, most, after) =>
              if boundsAllowed least most then repeatBy least most after else none
          | none => readSequence fuel (literal character.toNat :: done) false rest

end

/-- Read an expression that keeps to the limits. -/
def Expression.read? (text : Bytes) : Option Expression :=
  if text.validUtf8 then
    let characters := Bytes.chars text
    match readChoice (2 * characters.length + 2) characters with
    | some (expression, []) => if expression.shape.isAllowed then some expression else none
    | _ => none
  else none

end Reroute.Ignore

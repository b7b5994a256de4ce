import Reroute.Ignore.Reader

/-!
# Ignore lists

An ignore list names files to pass over, one pattern a line.  A pattern is turned into an
expression for paths by replacing its wildcards; a line whose expression cannot be read
counts for nothing.  Patterns apply in order: a match ignores the path, and a match of a
pattern behind an exclamation mark takes that back.
-/

namespace Reroute

/-- Replace every occurrence of a text that is not empty, from left to right. -/
def Bytes.replaceAll (old new : Bytes) (text : Bytes) : Bytes :=
  match text with
  | [] => []
  | byte :: rest =>
      if old.isPrefixOf (byte :: rest) then
        new ++ replaceAll old new (rest.drop (old.length - 1))
      else byte :: replaceAll old new rest
termination_by text.length
decreasing_by all_goals (simp only [List.length_drop, List.length_cons]; omega)

namespace Ignore

/-- One pattern of a list. -/
structure Pattern where
  expression : Expression
  negated : Bool
  deriving Repr

/-- A star with a dot behind it stands behind a slash that follows anything but a slash or
a plus sign. -/
def namesFilesInDirectory : Bytes → Bool
  | before :: 47 :: rest =>
      (before != 47 && before != 43 && Bytes.contains (utf8 "*.") rest)
        || namesFilesInDirectory (47 :: rest)
  | _ :: rest => namesFilesInDirectory rest
  | [] => false

/-- Tie a pattern for files in a directory to the top. -/
def anchor (line : Bytes) : Bytes :=
  if namesFilesInDirectory line && line.head? != some Bytes.slash then Bytes.slash :: line
  else line

/-- Drop the slash in front of leading stars for any directories. -/
def dropLeadingSlash (line : Bytes) : Bytes :=
  if (utf8 "/**/").isPrefixOf line then line.drop 1 else line

/-- What stands for a star that is not to be replaced. -/
def keptStar : Bytes :=
  utf8 "#$~"

def replaceWildcards (line : Bytes) : Bytes :=
  let line := Bytes.replaceAll (utf8 ".") (utf8 "\\.") line
  let line := dropLeadingSlash line
  let line := Bytes.replaceAll (utf8 "/**/") (utf8 "(/|/.+/)") line
  let line := Bytes.replaceAll (utf8 "**/") (utf8 "(|." ++ keptStar ++ utf8 "/)") line
  let line := Bytes.replaceAll (utf8 "/**") (utf8 "(|/." ++ keptStar ++ utf8 ")") line
  let line := Bytes.replaceAll (utf8 "\\*") (utf8 "\\" ++ keptStar) line
  let line := Bytes.replaceAll (utf8 "*") (utf8 "([^/]*)") line
  let line := Bytes.replaceAll (utf8 "?") (utf8 "\\?") line
  Bytes.replaceAll keptStar (utf8 "*") line

/-- Complete a pattern: it covers everything below what it names, and starts anywhere
unless it starts with a slash. -/
def complete (line : Bytes) : Bytes :=
  let body :=
    if line.getLast? == some Bytes.slash then line ++ utf8 "(|.*)$"
    else line ++ utf8 "(|/.*)$"
  match Bytes.cutHead? (utf8 "/") body with
  | some rest => utf8 "^(|/)" ++ rest
  | none => utf8 "^(|.*/)" ++ body

/-- Drop one hash or exclamation mark at the start. -/
def dropMark (line : Bytes) : Bytes :=
  if line.head? == some 35 || line.head? == some 33 then line.drop 1 else line

/-- The expression of a pattern without its exclamation mark. -/
def expression? (line : Bytes) : Option Expression :=
  Expression.read? (complete (replaceWildcards (anchor (dropMark line))))

/-- The pattern of a line.  Comments and blank lines have none. -/
def pattern? (line : Bytes) : Option Pattern :=
  let line := Bytes.trimTail (· == 13) line
  if line.head? == some 35 then none
  else
    let line := Bytes.trimTail (· == 32) (line.dropWhile (· == 32))
    match line with
    | [] => none
    | 33 :: rest => (expression? rest).map fun expression => ⟨expression, true⟩
    | _ => (expression? line).map fun expression => ⟨expression, false⟩

def patterns (text : Bytes) : List Pattern :=
  (Bytes.splitOn Bytes.newline text).filterMap pattern?

/-- Apply one pattern to whether a path is ignored. -/
def apply (path : Bytes) (ignored : Bool) (pattern : Pattern) : Bool :=
  if pattern.expression.isFoundIn path then !pattern.negated else ignored

/-- A path is ignored by some patterns. -/
def covers (patterns : List Pattern) (path : Bytes) : Bool :=
  patterns.foldl (apply path) false

/-- What ignore lists, given by their texts, say of paths. -/
abbrev Verdict := Bytes → Bytes → Bool

/-- The verdict of the patterns of a list. -/
def verdict : Verdict :=
  fun text path => covers (patterns text) path

end Ignore

end Reroute

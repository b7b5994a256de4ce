import Reroute.Rule.Basic

/-!
# The keyword filter

Before a chunk is searched for occurrences, its rules are narrowed to those that can have
any: the rules without keywords, and the rules one of whose keywords occurs in the chunk.

The keywords of all rules stand in one table, each once, next to the rules that list it.  One
search finds the keywords of the table that occur in a content, and the rules they call are
gathered in the order of the search, each once.  The search reports a keyword where its first
occurrence ends, the longer one first when two end together.
-/

namespace Reroute.Keyword

/-- Put an item at the end of a list, unless it is listed already. -/
def addOnce {α : Type} [BEq α] (items : List α) (item : α) : List α :=
  if items.contains item then items else items ++ [item]

/-- The keywords of some rules.  A rule is known by its position. -/
structure Table where
  /-- The distinct keywords, in the order they are first listed. -/
  keywords : List Bytes
  /-- The rules that list a keyword, as often as they list it. -/
  rulesOf : Bytes → List Nat
  /-- The rules without keywords. -/
  always : List Nat

namespace Table

def empty : Table :=
  ⟨[], fun _ => [], []⟩

/-- Enter a keyword of a rule. -/
def link (position : Nat) (table : Table) (keyword : Bytes) : Table :=
  { table with
    keywords := addOnce table.keywords keyword
    rulesOf := fun other =>
      if other == keyword then table.rulesOf other ++ [position] else table.rulesOf other }

/-- Enter a rule. -/
def add (table : Table) : Rule × Nat → Table
  | (rule, position) =>
      if rule.keywords.isEmpty then { table with always := table.always ++ [position] }
      else rule.keywords.foldl (link position) table

/-- The table of some rules. -/
def ofRules (rules : List Rule) : Table :=
  rules.zipIdx.foldl add empty

/-- The rules that list the keyword with a number. -/
def called (table : Table) (number : Nat) : List Nat :=
  match table.keywords[number]? with
  | some keyword => table.rulesOf keyword
  | none => []

end Table

/-- A search for keywords in a content.  It reports them by their numbers. -/
abbrev Matcher := List Bytes → Bytes → List Nat

/-- The positions of the rules that may have occurrences in a content: first those
without keywords, then those that a reported keyword calls. -/
def candidatesBy (matcher : Matcher) (rules : List Rule) (content : Bytes) : List Nat :=
  let table := Table.ofRules rules
  if table.keywords.isEmpty then table.always
  else
    (matcher table.keywords content).foldl
      (fun found number => (table.called number).foldl addOnce found) table.always

/-- The rule at a position may have occurrences in a content. -/
def mayMatchBy (matcher : Matcher) (rules : List Rule) (content : Bytes) (position : Nat) :
    Bool :=
  (candidatesBy matcher rules content).contains position

/-- A keyword that occurs, with the offset at which its first occurrence ends. -/
structure Hit where
  keyword : Bytes
  stop : Nat
  deriving DecidableEq, Repr

/-- The first occurrence of a keyword.  The empty keyword has none. -/
def hit? (content keyword : Bytes) : Option Hit :=
  if keyword.isEmpty then none
  else (Bytes.find? keyword content).map fun start => ⟨keyword, start + keyword.length⟩

/-- The order of hits. -/
def Hit.notAfter (left right : Hit) : Bool :=
  decide (left.stop < right.stop)
    || (left.stop == right.stop && decide (right.keyword.length ≤ left.keyword.length))

/-- The keywords that occur in a content, in hit order. -/
def occurring (keywords : List Bytes) (content : Bytes) : List Bytes :=
  ((keywords.filterMap (hit? content)).mergeSort Hit.notAfter).map Hit.keyword

/-- The search that the filter uses. -/
def report : Matcher :=
  fun keywords content => (occurring keywords content).map keywords.idxOf

/-- The positions of the rules that may have occurrences in a content. -/
def candidates : List Rule → Bytes → List Nat :=
  candidatesBy report

/-- The rule at a position may have occurrences in a content. -/
def mayMatch : List Rule → Bytes → Nat → Bool :=
  mayMatchBy report

end Reroute.Keyword

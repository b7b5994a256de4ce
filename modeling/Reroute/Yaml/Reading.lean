import Reroute.Yaml.Scalar

/-!
# Reading values from documents

Reading a document goes through its nodes in order and says, for each of them, what kind
of value it has to be.  A node of another kind makes the whole document wrong, but does
not end the reading.  Some faults do end it at once.

An alias is read as the node it stands for.  It may not be reached again while that node
is being read.  So that a short text cannot stand for an enormous document, the share of
the steps that are made inside aliases is limited once there are many.
-/

namespace Reroute.Yaml

/-- What ends a reading: the document is malformed, or keys have to be compared and one of
them is a collection. -/
inductive Fault where
  | malformed
  | incomparable
  deriving DecidableEq, Repr

/-- How far a reading has come: the steps made, those of them inside aliases, the aliases
being followed, and whether a node was of the wrong kind. -/
structure Progress where
  table : Array Node
  steps : Nat
  aliased : Nat
  followed : List Nat
  mismatched : Bool

/-- A reading step. -/
abbrev Reading := StateT Progress (Except Fault)

/-- Too many of the steps were made inside aliases.  The share that is allowed goes down
from 99 to 10 hundredths between 400000 and 4000000 steps. -/
def isExcessive (steps aliased : Nat) : Bool :=
  let few : Nat := 400000
  let many : Nat := 4000000
  100 < aliased && 1000 < steps
    && if steps ≤ few then steps * 99 < aliased * 100
      else if many ≤ steps then steps < aliased * 10
      else steps * (99 * (many - few) - 89 * (steps - few)) < aliased * (100 * (many - few))

namespace Reading

def step : Reading Unit := do
  let progress ← get
  let steps := progress.steps + 1
  let aliased := if progress.followed.isEmpty then progress.aliased else progress.aliased + 1
  if isExcessive steps aliased then throw .malformed
  else set { progress with steps := steps, aliased := aliased }

/-- Note that a node is of the wrong kind. -/
def mark : Reading Unit :=
  modify fun progress => { progress with mismatched := true }

/-- A node of the wrong kind has no value. -/
def mismatch {α : Type} : Reading (Option α) := do
  mark
  return none

/-- The node itself, or the one that an alias stands for. -/
def target (node : Node) : Reading Node := do
  match node with
  | .alias _ _ place => return (← get).table.getD place .missing
  | node => return node

/-- Use a node, or the one that an alias stands for. -/
def follow {α : Type} (use : Node → Reading α) (node : Node) : Reading α := do
  step
  match node with
  | .alias _ number _ =>
      let followed := (← get).followed
      if followed.contains number then throw .malformed
      else
        modify fun progress => { progress with followed := number :: followed }
        step
        let result ← use (← target node)
        modify fun progress => { progress with followed := followed }
        return result
  | node => use node

/-- What a scalar means. -/
def meaning (tag : Option Bytes) (plain : Bool) (text : Bytes) : Reading Meaning :=
  match Meaning.ofScalar? tag plain text with
  | some meaning => return meaning
  | none => throw .malformed

/-- Read a scalar.  Null has no value, and neither has a collection, which is wrong. -/
def scalar {α : Type} (read : Bytes → Meaning → Reading (Option α)) :
    Node → Reading (Option α) :=
  follow fun
    | .scalar tag plain text => do
        match ← meaning tag plain text with
        | .null => return none
        | meaning => read text meaning
    | _ => mismatch

/-- Read a text: the scalar as written, or decoded if it is binary. -/
def text : Node → Reading (Option Bytes) :=
  scalar fun written meaning =>
    match meaning with
    | .text content => return some content
    | _ => return some written

/-- The words for a truth value that are not truth values by themselves. -/
def wordFlag? (word : Bytes) : Option Bool :=
  if ["y", "Y", "yes", "Yes", "YES", "on", "On", "ON"].any fun known => utf8 known == word then
    some true
  else if ["n", "N", "no", "No", "NO", "off", "Off", "OFF"].any fun known =>
      utf8 known == word then
    some false
  else none

/-- Read a truth value, also from the words yes and no, on and off. -/
def flag : Node → Reading (Option Bool) :=
  scalar fun _ meaning =>
    match meaning with
    | .flag value => return some value
    | .text content =>
        match wordFlag? content with
        | some value => return some value
        | none => mismatch
    | _ => mismatch

/-- Read a signed 64-bit integer; a real number is cut to its integer part. -/
def integer : Node → Reading (Option Int) :=
  scalar fun _ meaning =>
    match meaning with
    | .whole value => if Numeral.fitsWord value then return some value else mismatch
    | .real value =>
        match value.toWord? with
        | some word => return some word
        | none => mismatch
    | _ => mismatch

/-- Read the values of some nodes, leaving out those that have none. -/
def all {α : Type} (read : Node → Reading (Option α)) : List Node → Reading (List α)
  | [] => return []
  | node :: nodes => do
      match ← read node with
      | none => all read nodes
      | some value => return value :: (← all read nodes)

def list {α : Type} (read : Node → Reading (Option α)) : Node → Reading (Option (List α)) :=
  follow fun
    | .sequence _ items => do return some (← all read items)
    | .scalar tag plain text => do
        match ← meaning tag plain text with
        | .null => return none
        | _ => mismatch
    | _ => mismatch

end Reading

/-- Read a text from its first document.  There is nothing to read in an empty one. -/
def read {α : Type} (text : Bytes) (use : (nesting : Nat) → Node → Reading (Option α)) :
    Except Fault (Option α) :=
  match Document.parse text with
  | none => .error .malformed
  | some document =>
      match document.root with
      | none => .ok none
      | some root =>
          let nesting := (document.aliases + 1) * document.nesting
          let reading : Reading (Option α) := do
            Reading.step
            use nesting root
          match reading.run ⟨document.table, 0, 0, [], false⟩ with
          | .error fault => .error fault
          | .ok (value, progress) =>
              if progress.mismatched then .error .malformed else .ok value

end Reroute.Yaml

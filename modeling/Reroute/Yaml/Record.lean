import Reroute.Yaml.Reading

/-!
# Records

A mapping is read as a record: each entry is given to the field of its name.  No key may
occur twice.

A mapping may merge others.  Their entries count where no entry of that key came before,
and the keys of the first mapping are compared by what they mean.  Of a collection that
does not work.
-/

namespace Reroute.Yaml

namespace Node

/-- A key that merges other mappings. -/
def isMergeKey : Node → Bool
  | .scalar tag plain text =>
      text == mergeKey
        && match Tag.given tag with
          | none => plain
          | some tag => Tag.Standard.merge.matches tag
  | _ => false

/-- Two keys that may not stand in one mapping: nodes of the same kind with the same
text. -/
def sameKey : Node → Node → Bool
  | .scalar _ _ left, .scalar _ _ right => left == right
  | .sequence .., .sequence .. => true
  | .mapping .., .mapping .. => true
  | .alias left _ _, .alias right _ _ => left == right
  | _, _ => false

/-- The node, which is no alias, counts as a text when it is a key. -/
def isTextKey : Node → Bool
  | .scalar tag plain text =>
      match Tag.given tag with
      | none => !plain || text == mergeKey || (Meaning.ofText true text).tag == .str
      | some tag => Tag.Standard.str.matches tag || Tag.Standard.merge.matches tag
  | .sequence tag _ => isText tag
  | .mapping tag _ => isText tag
  | .alias .. => false
where
  /-- The tag is that of a text. -/
  isText (tag : Option Bytes) : Bool :=
    (Tag.given tag).any fun tag =>
      Tag.Standard.str.matches tag || Tag.Standard.merge.matches tag

end Node

/-- Some key stands twice among the entries. -/
def repeatsKey : List (Node × Node) → Bool
  | [] => false
  | (key, _) :: entries =>
      entries.any (fun entry => key.sameKey entry.1) || repeatsKey entries

/-- A key by what it means. -/
inductive Key where
  | scalar (meaning : Meaning)
  | collection
  deriving DecidableEq, Repr

/-- The keys that no longer count while a mapping is merged into another; none if it is
not. -/
abbrev Taken := Option (List Meaning)

/-- The key no longer counts. -/
def Taken.has (taken : Taken) (key : Meaning) : Bool :=
  taken.any fun keys => keys.any key.isSameKey

/-- From now on the key does not count. -/
def Taken.add (key : Meaning) (taken : Taken) : Taken :=
  taken.map (key :: ·)

/-- The value of the merge key, if there is one. -/
def mergedValue? (entries : List (Node × Node)) : Option Node :=
  (entries.find? fun entry => entry.1.isMergeKey).map (·.2)

namespace Reading

/-- The keys that do not count in the mappings that some entries merge. -/
def takenBy (readKey : Node → Reading (Option Key)) (entries : List (Node × Node))
    (taken : Taken) : Reading Taken :=
  if taken.isSome then return taken
  else
    entries.foldlM
      (fun taken entry => do
        match ← readKey entry.1 with
        | none => return taken
        | some .collection => throw .incomparable
        | some (.scalar meaning) => return taken.add meaning)
      (some [])

/-- Read a mapping that is merged. -/
def mergeOne {σ : Type} (read : σ → List (Node × Node) → Reading σ) (state : σ)
    (node : Node) : Reading σ := do
  match ← target node with
  | .mapping .. =>
      follow
        (fun
          | .mapping _ entries => do
              if repeatsKey entries then
                mark
                return state
              else read state entries
          | _ => return state)
        node
  | _ => throw .malformed

/-- Read the mappings that a merged value stands for. -/
def mergeAll {σ : Type} (read : σ → List (Node × Node) → Reading σ) (state : σ)
    (value : Node) : Reading σ :=
  match value with
  | .sequence _ items => items.foldlM (mergeOne read) state
  | _ => mergeOne read state value

mutual

/-- Read a node of any kind. -/
def any : Nat → Node → Reading (Option Key)
  | 0, _ => throw .malformed
  | fuel + 1, node =>
      follow
        (fun
          | .scalar tag plain text => do return some (.scalar (← meaning tag plain text))
          | .sequence _ items => do
              items.forM fun item => do
                let _ ← any fuel item
              return some .collection
          | .mapping _ entries => do
              if repeatsKey entries then mismatch
              else
                let keys ← entries.mapM fun entry => target entry.1
                let _ ← anyMapping fuel (keys.all Node.isTextKey) none entries
                return some .collection
          | .alias .. => throw .malformed)
        node

/-- Read the entries of a mapping whose values may be of any kind, and those of the
mappings it merges. -/
def anyMapping : Nat → (textKeys : Bool) → Taken → List (Node × Node) → Reading Taken
  | 0, _, _, _ => throw .malformed
  | fuel + 1, textKeys, taken, entries => do
      let taken ←
        entries.foldlM
          (fun taken entry => do
            if entry.1.isMergeKey then return taken
            else
              let key ←
                if textKeys then do
                  pure ((← text entry.1).map fun content => Key.scalar (.text content))
                else any fuel entry.1
              match key with
              | none => return taken
              | some .collection =>
                  throw (if taken.isSome then .incomparable else .malformed)
              | some (.scalar meaning) =>
                  if taken.has meaning then return taken
                  else
                    let _ ← any fuel entry.2
                    return taken.add meaning)
          taken
      match mergedValue? entries with
      | none => return taken
      | some value =>
          mergeAll (anyMapping fuel textKeys) (← takenBy (any fuel) entries taken) value

end

end Reading

/-- A field of a record: its name, and how it is set from a node. -/
structure Field (α : Type) where
  name : Bytes
  assign : Node → α → Reading α

/-- A field that takes a value if there is one. -/
def Field.of {α β : Type} (name : String) (read : Node → Reading (Option β))
    (put : β → α → α) : Field α where
  name := utf8 name
  assign node record := do
    match ← read node with
    | some value => return put value record
    | none => return record

/-- The fields of a record, and whether a mapping may have no other entries. -/
structure Schema (α : Type) where
  fields : List (Field α)
  closed : Bool

/-- A record being read: the fields that this mapping has set, the keys that do not count,
and the record so far. -/
structure Filling (α : Type) where
  done : List Bytes
  taken : Taken
  record : α

namespace Reading

def entry {α : Type} (schema : Schema α) (filling : Filling α) (entry : Node × Node) :
    Reading (Filling α) := do
  if entry.1.isMergeKey then return filling
  else
    match ← text entry.1 with
    | none => return filling
    | some name =>
        if filling.taken.has (.text name) then return filling
        else
          let filling := { filling with taken := filling.taken.add (.text name) }
          match schema.fields.find? (·.name == name) with
          | some field =>
              if filling.done.contains name then
                mark
                return filling
              else
                let record ← field.assign entry.2 filling.record
                return { filling with done := name :: filling.done, record := record }
          | none =>
              if schema.closed then mark
              return filling

/-- Read the entries of a record, then those of the mappings it merges. -/
def recordMapping {α : Type} (schema : Schema α) :
    Nat → Taken × α → List (Node × Node) → Reading (Taken × α)
  | 0, _, _ => throw .malformed
  | fuel + 1, (taken, record), entries => do
      let filling ← entries.foldlM (entry schema) ⟨[], taken, record⟩
      match mergedValue? entries with
      | none => return (filling.taken, filling.record)
      | some value =>
          let taken ← takenBy (any fuel) entries filling.taken
          mergeAll (recordMapping schema fuel) (taken, filling.record) value

/-- Read a record whose fields are at first those of `start`.  Null has no record. -/
def record {α : Type} (schema : Schema α) (start : α) (nesting : Nat) :
    Node → Reading (Option α) :=
  follow fun
    | .mapping _ entries => do
        if repeatsKey entries then mismatch
        else return some (← recordMapping schema nesting (none, start) entries).2
    | .scalar tag plain text => do
        match ← meaning tag plain text with
        | .null => return none
        | _ => mismatch
    | _ => mismatch

end Reading

end Reroute.Yaml

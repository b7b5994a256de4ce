import Reroute.Yaml.Token

/-!
# Documents

A document is a tree of scalars, sequences and mappings.  A node may be given a name by an
anchor, and an alias with that name stands for the node that had it last at that place of
the text.  The alias may well be inside that node, so nodes with an anchor are kept in a
table, and an alias holds a place in the table.

Only the first document of a text is read, and only its tokens have to be well formed:
what follows it does not matter, as far as the tokens looked ahead allow.
-/

namespace Reroute.Yaml

/-- A node of a document.  Scalars and collections keep their tag, if they have one, and a
scalar whether it was written without quotes.  Aliases are numbered. -/
inductive Node where
  | scalar (tag : Option Bytes) (plain : Bool) (text : Bytes)
  | sequence (tag : Option Bytes) (items : List Node)
  | mapping (tag : Option Bytes) (entries : List (Node × Node))
  | alias (name : Bytes) (number target : Nat)
  deriving Inhabited

/-- A value that is left out. -/
def Node.missing : Node :=
  .scalar none true []

/-- A document being read.

`anchors` has the names given so far, latest first, with the places of their nodes in the
table.  `aliases` counts the aliases, and `handles` says what tag handles stand for. -/
structure Composer where
  lexer : Lexer
  anchors : List (Bytes × Nat)
  table : Array Node
  aliases : Nat
  handles : List (Bytes × Bytes)

/-- A reading step, which may find the document malformed. -/
abbrev Compose := StateT Composer Option

namespace Compose

/-- The next token. -/
def peek : Compose Token := fun composer =>
  composer.lexer.peek.map fun (token, lexer) => (token, { composer with lexer := lexer })

/-- Pass over the next token. -/
def skip : Compose Unit :=
  modify fun composer => { composer with lexer := composer.lexer.advance }

/-- The full form of a tag. -/
def expandTag (handle suffix : Bytes) : Compose Bytes := do
  if handle.isEmpty then return suffix
  else
    let composer ← get
    match composer.handles.find? (·.1 == handle) with
    | some (_, expansion) => return expansion ++ suffix
    | none => failure

/-- An alias for the node that has the name at this place. -/
def resolve (name : Bytes) : Compose Node := do
  let composer ← get
  match composer.anchors.find? (·.1 == name) with
  | some (_, place) =>
      set { composer with aliases := composer.aliases + 1 }
      return .alias name composer.aliases place
  | none => failure

/-- Give a name to the node about to be read.  It may be used inside that node. -/
def openAnchor (name : Option Bytes) : Compose (Option Nat) := do
  match name with
  | none => return none
  | some name =>
      let composer ← get
      let place := composer.table.size
      set
        { composer with
          anchors := (name, place) :: composer.anchors
          table := composer.table.push .missing }
      return some place

/-- Put a node that has been read into its place in the table, if it has one. -/
def closeAnchor (place : Option Nat) (node : Node) : Compose Node := do
  match place with
  | none => return node
  | some place =>
      modify fun composer =>
        { composer with table := composer.table.setIfInBounds place node }
      return node

/-- The anchor and the tag before a node, in either order. -/
def properties : Compose (Option Bytes × Option Bytes) := do
  match ← peek with
  | .anchor name =>
      skip
      match ← peek with
      | .tag handle suffix =>
          skip
          return (some name, some (← expandTag handle suffix))
      | _ => return (some name, none)
  | .tag handle suffix =>
      skip
      match ← peek with
      | .anchor name =>
          skip
          return (some name, some (← expandTag handle suffix))
      | _ => return (none, some (← expandTag handle suffix))
  | _ => return (none, none)

mutual

/-- Read a node.  Block collections are possible only in block context, and a sequence
without indentation of its own only as part of a mapping. -/
def node : Nat → (block indentless : Bool) → Compose Node
  | 0, _, _ => failure
  | fuel + 1, block, indentless => do
      match ← peek with
      | .alias name =>
          skip
          resolve name
      | _ =>
          let (anchor, tag) ← properties
          let place ← openAnchor anchor
          let content ← nodeContent fuel block indentless tag (anchor.isSome || tag.isSome)
          closeAnchor place content

/-- Read a node after its anchor and tag. -/
def nodeContent : Nat → (block indentless : Bool) → Option Bytes → Bool → Compose Node
  | 0, _, _, _, _ => failure
  | fuel + 1, block, indentless, tag, described => do
      match ← peek with
      | .scalar plain text =>
          skip
          return .scalar tag plain text
      | .flowSequenceStart =>
          skip
          return .sequence tag (← flowItems fuel true)
      | .flowMappingStart =>
          skip
          return .mapping tag (← flowEntries fuel true)
      | token =>
          if token == .blockEntry && indentless then
            return .sequence tag (← indentlessItems fuel)
          else if token == .blockSequenceStart && block then do
            skip
            return .sequence tag (← blockItems fuel)
          else if token == .blockMappingStart && block then do
            skip
            return .mapping tag (← blockEntries fuel)
          else if described then return .scalar tag true []
          else failure

/-- Read the items of a block sequence and its end. -/
def blockItems : Nat → Compose (List Node)
  | 0 => failure
  | fuel + 1 => do
      match ← peek with
      | .blockEntry =>
          skip
          let token ← peek
          let item ←
            if token == .blockEntry || token == .blockEnd then pure .missing
            else node fuel true false
          return item :: (← blockItems fuel)
      | .blockEnd =>
          skip
          return []
      | _ => failure

/-- Read the items of a block sequence that has no indentation of its own. -/
def indentlessItems : Nat → Compose (List Node)
  | 0 => failure
  | fuel + 1 => do
      match ← peek with
      | .blockEntry =>
          skip
          let token ← peek
          let item ←
            if token == .blockEntry || token == .key || token == .value
                || token == .blockEnd then pure .missing
            else node fuel true false
          return item :: (← indentlessItems fuel)
      | _ => return []

/-- Read a key or a value of a block mapping; it may be missing. -/
def blockPart : Nat → Compose Node
  | 0 => failure
  | fuel + 1 => do
      skip
      let token ← peek
      if token == .key || token == .value || token == .blockEnd then return .missing
      else node fuel true true

/-- Read the entries of a block mapping and its end. -/
def blockEntries : Nat → Compose (List (Node × Node))
  | 0 => failure
  | fuel + 1 => do
      match ← peek with
      | .key =>
          let key ← blockPart fuel
          let value ←
            if (← peek) == .value then blockPart fuel else pure .missing
          return (key, value) :: (← blockEntries fuel)
      | .blockEnd =>
          skip
          return []
      | _ => failure

/-- Read a key or a value inside a flow collection that the given token closes. -/
def flowPart : Nat → Token → (key : Bool) → Compose Node
  | 0, _, _ => failure
  | fuel + 1, close, key => do
      let token ← peek
      if token == .flowEntry || token == close || (key && token == .value) then
        return .missing
      else node fuel false false

/-- Read the value of a flow entry, if its mark is there. -/
def flowValue : Nat → Token → Compose Node
  | 0, _ => failure
  | fuel + 1, close => do
      if (← peek) == .value then
        skip
        flowPart fuel close false
      else return .missing

/-- Read the items of a flow sequence and its end. -/
def flowItems : Nat → (first : Bool) → Compose (List Node)
  | 0, _ => failure
  | fuel + 1, first => do
      let token ← peek
      if token == .flowSequenceEnd then
        skip
        return []
      else
        if !first then
          if token == .flowEntry then skip else failure
        match ← peek with
        | .flowSequenceEnd =>
            skip
            return []
        | .key =>
            skip
            let token ← peek
            let key ←
              if token == .value || token == .flowEntry || token == .flowSequenceEnd then do
                -- The token that shows that the key is missing is passed over.
                skip
                pure .missing
              else node fuel false false
            let value ← flowValue fuel .flowSequenceEnd
            return .mapping none [(key, value)] :: (← flowItems fuel false)
        | _ =>
            let item ← node fuel false false
            return item :: (← flowItems fuel false)

/-- Read the entries of a flow mapping and its end. -/
def flowEntries : Nat → (first : Bool) → Compose (List (Node × Node))
  | 0, _ => failure
  | fuel + 1, first => do
      let token ← peek
      if token == .flowMappingEnd then
        skip
        return []
      else
        if !first then
          if token == .flowEntry then skip else failure
        match ← peek with
        | .flowMappingEnd =>
            skip
            return []
        | .key =>
            skip
            let key ← flowPart fuel .flowMappingEnd true
            let value ← flowValue fuel .flowMappingEnd
            return (key, value) :: (← flowEntries fuel false)
        | _ =>
            let key ← node fuel false false
            let _ ← peek
            return (key, .missing) :: (← flowEntries fuel false)

end

/-- Read the directives before a document. -/
def directives : Nat → (versioned : Bool) → Compose Unit
  | 0, _ => failure
  | fuel + 1, versioned => do
      match ← peek with
      | .directive (.version major minor) =>
          if versioned || major != 1 || minor != 1 then failure
          else
            skip
            directives fuel true
      | .directive (.tagHandle handle expansion) =>
          let composer ← get
          if composer.handles.any (·.1 == handle) then failure
          else
            set { composer with handles := (handle, expansion) :: composer.handles }
            skip
            directives fuel versioned
      | _ => return ()

/-- The handles that need no directive, unless a document defines them itself. -/
def standardHandles : List (Bytes × Bytes) :=
  [(utf8 "!", utf8 "!"), (utf8 "!!", utf8 "tag:yaml.org,2002:")]

/-- The node stands for itself up to the end of its document. -/
def finish (root : Node) : Compose (Option Node) := do
  let _ ← peek
  return some root

/-- Read the first document; there is none in an empty text. -/
def document (fuel : Nat) : Compose (Option Node) := do
  let withHandles : Compose Unit :=
    modify fun composer => { composer with handles := composer.handles ++ standardHandles }
  match ← peek with
  | .streamEnd => return none
  | token =>
      let explicit :=
        match token with
        | .directive _ => true
        | .documentStart => true
        | _ => false
      if explicit then
        directives fuel false
        withHandles
        if (← peek) != .documentStart then failure
        skip
        match ← peek with
        | .directive _ => finish .missing
        | .documentStart => finish .missing
        | .documentEnd => finish .missing
        | .streamEnd => finish .missing
        | _ => finish (← node fuel true false)
      else
        withHandles
        finish (← node fuel true false)

end Compose

/-- A document: its root, unless the text is empty, the table of the nodes with an anchor,
the number of aliases, and a bound on how deep nodes can be nested. -/
structure Document where
  root : Option Node
  table : Array Node
  aliases : Nat
  nesting : Nat

/-- Read the first document of a YAML text. -/
def Document.parse (text : Bytes) : Option Document :=
  let source := Source.ofBytes text
  let bound := 16 * text.length + 64
  ((Compose.document bound).run ⟨.start source, [], #[], 0, []⟩).map fun (root, composer) =>
    ⟨root, composer.table, composer.aliases, bound⟩

end Reroute.Yaml

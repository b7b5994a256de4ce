import Reroute.Overlay.Mapping
import Reroute.Rule.Builtin
import Reroute.Rule.Occurrence
import Reroute.SourceMap.Composition

/-!
# Applying a rule to code

A rule is applied by overwriting all its occurrences.  The outcome is that nothing
changed, or the new code with a map that resolves every character of it.  When the code
came with a parent map, the new map is composed with it; only a malformed parent map can
make that fail, and only when something changed.
-/

namespace Reroute

/-- How the map of a transform is made. -/
structure TransformOptions where
  source : Bytes
  file : Bytes
  includeContent : Bool
  deriving DecidableEq, Repr, Inhabited

/-- The name of the source: as given, or else that of the file. -/
def TransformOptions.sourceName (options : TransformOptions) : Bytes :=
  if options.source.isEmpty then options.file else options.source

/-- What a transform does to code. -/
inductive Outcome where
  | unchanged
  | changed (code : Bytes) (map : SourceMap) (spans : List Span)
  deriving DecidableEq, Repr

namespace Outcome

/-- The word for the kind of outcome with a number. -/
def kindLabel (code : Int) : Bytes :=
  if code == 0 then utf8 "unchanged"
  else if code == 1 then utf8 "rewritten"
  else utf8 "Kind(" ++ Numeral.ofInt code ++ utf8 ")"

/-- The word for the kind of an outcome. -/
def label : Outcome → Bytes
  | .unchanged => kindLabel 0
  | .changed _ _ _ => kindLabel 1

def isChanged : Outcome → Bool
  | .unchanged => false
  | .changed _ _ _ => true

end Outcome

namespace Rule

/-- The text with every given range overwritten by the replacement. -/
def edit (rule : Rule) (code : Bytes) (spans : List Span) :
    Except Overlay.Violation Overlay :=
  (Overlay.ofSource code).overwriteAll (spans.map fun span => ⟨span, rule.replacement⟩)

/-- Write the replacement over every occurrence of the pattern. -/
def transform (rule : Rule) (options : TransformOptions) (code : Bytes) :
    Except Overlay.Violation Outcome :=
  let spans := occurrences rule.pattern code
  if spans.isEmpty then .ok .unchanged
  else
    match rule.edit code spans with
    | .error violation => .error violation
    | .ok overlay =>
        .ok
          (.changed overlay.render
            (overlay.map
              { source := options.sourceName
                file := options.file
                includeContent := options.includeContent
                everyCharacter := true })
            spans)

/-- Why code cannot be transformed. -/
inductive TransformError where
  | violation (violation : Overlay.Violation)
  | composition (error : SourceMap.CompositionError)
  deriving DecidableEq, Repr

def TransformError.message : TransformError → Bytes
  | .violation refused => refused.message
  | .composition error => utf8 "composing with upstream map: " ++ error.message

/-- Transform code and describe it in terms of the sources of its parent map.  An empty
parent map leaves the new map as it is. -/
def transformWithParent (rule : Rule) (options : TransformOptions) (code parent : Bytes) :
    Except TransformError Outcome :=
  match rule.transform options code with
  | .error violation => .error (.violation violation)
  | .ok .unchanged => .ok .unchanged
  | .ok (.changed output map spans) =>
      if parent.isEmpty then .ok (.changed output map spans)
      else
        match map.compose parent with
        | .ok composed => .ok (.changed output composed spans)
        | .error error => .error (.composition error)

end Rule

end Reroute

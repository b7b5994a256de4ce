import Reroute.Transform

/-!
# What a pipeline does to code

A pipeline transforms code by its rule, or by a transform put in the rule's place, which may
do anything.  Among such transforms there are those that change nothing, apply fixed edits,
refuse, or break down.  They can be restricted to one text and then change no other.
-/

namespace Reroute

/-- Why a transform gives no outcome. -/
inductive TransformFault where
  | violation (violation : Overlay.Violation)
  | composition (error : SourceMap.CompositionError)
  | refusal (message : Bytes)
  | breakdown (message : Bytes)
  deriving DecidableEq, Repr

/-- What is done to code that came with a parent map. -/
abbrev Transform :=
  TransformOptions → Bytes → Bytes → Except TransformFault Outcome

/-- What a fixed transform does. -/
inductive FixedAction where
  | nothing
  | edits (edits : List Edit)
  | refuse (message : Bytes)
  | breakDown (message : Bytes)
  deriving DecidableEq, Repr

/-- A transform that looks at nothing but the code; an empty `only` means no restriction. -/
structure FixedTransform where
  action : FixedAction
  only : Bytes
  deriving DecidableEq, Repr

/-- Apply edits in the order given. -/
def applyEdits (edits : List Edit) (code : Bytes) : Except TransformFault Outcome :=
  match (Overlay.ofSource code).overwriteAll edits with
  | .error refused => .error (.violation refused)
  | .ok overlay =>
      .ok
        (.changed overlay.render
          (overlay.map
            { source := utf8 "custom"
              file := []
              includeContent := false
              everyCharacter := false })
          (edits.map fun edit => edit.span))

/-- Apply a fixed transform. -/
def FixedTransform.run (transform : FixedTransform) (_options : TransformOptions)
    (code _parent : Bytes) : Except TransformFault Outcome :=
  if !transform.only.isEmpty && transform.only != code then .ok .unchanged
  else
    match transform.action with
    | .nothing => .ok .unchanged
    | .edits edits => applyEdits edits code
    | .refuse message => .error (.refusal message)
    | .breakDown message => .error (.breakdown message)

/-- Apply a rule to code that came with a parent map. -/
def Rule.runWithParent (rule : Rule) (options : TransformOptions) (code parent : Bytes) :
    Except TransformFault Outcome :=
  match rule.transformWithParent options code parent with
  | .ok outcome => .ok outcome
  | .error (.violation refused) => .error (.violation refused)
  | .error (.composition error) => .error (.composition error)

end Reroute

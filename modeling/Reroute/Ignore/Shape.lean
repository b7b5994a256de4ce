import Reroute.Ignore.Expression

/-!
# Limits on expressions

An expression that is nested too deep or unfolds to too many steps is refused.  Both are
measured on a form of the expression in which neighbouring characters make up one text,
alternatives of one character make up one set, and a beginning that neighbouring
alternatives share stands in front of them once.
-/

namespace Reroute.Ignore

/-- The form in which an expression is measured. -/
inductive Shape where
  | nothing
  | text (codes : List Nat)
  | set (ranges : List (Nat × Nat))
  | place
  | group (inner : Shape)
  | repeated (inner : Shape) (least : Nat) (most : Option Nat)
  | row (items : List Shape)
  | choice (items : List Shape)
  deriving BEq, Inhabited

/-- The largest code of a character. -/
def largestCode : Nat := 0x10FFFF

namespace Shape

/-- Join ranges, in the order of their starts, that overlap or touch. -/
def joinRanges : List (Nat × Nat) → List (Nat × Nat)
  | first :: second :: rest =>
      if second.1 ≤ first.2 + 1 then joinRanges ((first.1, max first.2 second.2) :: rest)
      else first :: joinRanges (second :: rest)
  | ranges => ranges
termination_by ranges => ranges.length

/-- Ranges in order, none of which touches another. -/
def sortRanges (ranges : List (Nat × Nat)) : List (Nat × Nat) :=
  joinRanges (ranges.mergeSort fun left right => left.1 ≤ right.1)

/-- The codes outside of ranges that are in order, from a code on. -/
def invertRanges (start : Nat) : List (Nat × Nat) → List (Nat × Nat)
  | [] => if start ≤ largestCode then [(start, largestCode)] else []
  | (low, high) :: rest =>
      if start < low then (start, low - 1) :: invertRanges (high + 1) rest
      else invertRanges (high + 1) rest

/-- The ranges of a set of characters. -/
def rangesOf (set : CharacterSet) : List (Nat × Nat) :=
  let parts := set.parts.flatMap fun part =>
    if part.outside then invertRanges 0 (sortRanges part.ranges) else part.ranges
  let ranges := sortRanges parts
  if set.negated then invertRanges 0 ranges else ranges

/-- The shape of a set of characters; a set of one character is a text. -/
def ofRanges (ranges : List (Nat × Nat)) : Shape :=
  match ranges with
  | [(low, high)] => if low == high then .text [low] else .set ranges
  | _ => .set ranges

/-- The ranges of a shape that stands for one character. -/
def ranges? : Shape → Option (List (Nat × Nat))
  | .text [code] => some [(code, code)]
  | .set ranges => some ranges
  | _ => none

/-- The shape stands for one character. -/
def isCharacter (shape : Shape) : Bool :=
  shape.ranges?.isSome

/-- Put neighbouring texts together. -/
def joinTexts : List Shape → List Shape
  | .text left :: .text right :: rest => joinTexts (.text (left ++ right) :: rest)
  | shape :: rest => shape :: joinTexts rest
  | [] => []
termination_by shapes => shapes.length

/-- The shape of shapes one behind the other. -/
def ofRow (items : List Shape) : Shape :=
  match joinTexts items with
  | [] => .nothing
  | [shape] => shape
  | shapes => .row shapes

/-- Put an alternative behind others, latest first.  Neighbours of one character make up
a set. -/
def addAlternative (latestFirst : List Shape) (shape : Shape) : List Shape :=
  match latestFirst with
  | [] => [shape]
  | latest :: earlier =>
      match latest.ranges?, shape.ranges? with
      | some left, some right => ofRanges (sortRanges (left ++ right)) :: earlier
      | _, _ => shape :: latestFirst

/-- The text that a shape starts with. -/
def leadingText : Shape → List Nat
  | .text codes => codes
  | .row (.text codes :: _) => codes
  | _ => []

/-- Drop a number of characters from the text that a shape starts with. -/
def dropText (count : Nat) : Shape → Shape
  | .text codes => if codes.length ≤ count then .nothing else .text (codes.drop count)
  | .row (.text codes :: rest) =>
      if codes.length ≤ count then
        match rest with
        | [shape] => shape
        | _ => .row rest
      else .row (.text (codes.drop count) :: rest)
  | shape => shape

/-- The beginning that two texts share. -/
def shared : List Nat → List Nat → List Nat
  | left :: lefts, right :: rights => if left == right then left :: shared lefts rights else []
  | _, _ => []

/-- Runs of alternatives that start with a common text, which is not empty in a run of
more than one. -/
def textRuns : List Shape → List (List Nat × List Shape)
  | [] => []
  | shape :: rest =>
      let start := shape.leadingText
      match textRuns' start [shape] rest with
      | (run, others) => run :: others
where
  /-- Continue a run whose items are collected latest first. -/
  textRuns' (common : List Nat) (items : List Shape) :
      List Shape → (List Nat × List Shape) × List (List Nat × List Shape)
    | [] => ((common, items.reverse), [])
    | shape :: rest =>
        let kept := shared common shape.leadingText
        if kept.isEmpty then
          let (run, others) := textRuns' shape.leadingText [shape] rest
          ((common, items.reverse), run :: others)
        else textRuns' kept (shape :: items) rest

/-- The first part of a shape. -/
def leading? : Shape → Option Shape
  | .nothing => none
  | .row (.nothing :: _) => none
  | .row (first :: _) => some first
  | shape => some shape

/-- A shape without its first part. -/
def dropLeading : Shape → Shape
  | .row (_ :: []) => .nothing
  | .row (_ :: [shape]) => shape
  | .row (_ :: rest) => .row rest
  | _ => .nothing

/-- The part may stand once in front of alternatives that start with it: a character, or
a fixed number of them. -/
def isShareable : Shape → Bool
  | .repeated inner least most => most == some least && inner.isCharacter
  | shape => shape.isCharacter

/-- Runs of alternatives that start with a common part. -/
def partRuns : List Shape → List (Option Shape × List Shape)
  | [] => []
  | shape :: rest =>
      let (run, others) := partRuns' shape.leading? [shape] rest
      run :: others
where
  /-- Continue a run whose items are collected latest first. -/
  partRuns' (common : Option Shape) (items : List Shape) :
      List Shape → (Option Shape × List Shape) × List (Option Shape × List Shape)
    | [] => ((common, items.reverse), [])
    | shape :: rest =>
        if common.isSome && shape.leading? == common && common.all isShareable then
          partRuns' common (shape :: items) rest
        else
          let (run, others) := partRuns' shape.leading? [shape] rest
          ((common, items.reverse), run :: others)

/-- Of neighbours that are nothing keep the last. -/
def joinNothing : List Shape → List Shape
  | .nothing :: .nothing :: rest => joinNothing (.nothing :: rest)
  | shape :: rest => shape :: joinNothing rest
  | [] => []
termination_by shapes => shapes.length

def ofAlternatives : Nat → List Shape → Shape
  | 0, shapes => .choice shapes
  | _, [shape] => shape
  | fuel + 1, shapes =>
      let shapes := (textRuns shapes).map fun (common, items) =>
        match items with
        | [shape] => shape
        | _ =>
            .row
              [.text common, ofAlternatives fuel (items.map (dropText common.length))]
      let shapes := (partRuns shapes).map fun (common, items) =>
        match items, common with
        | [shape], _ => shape
        | _, none => .choice items
        | _, some first => .row [first, ofAlternatives fuel (items.map dropLeading)]
      let shapes := (shapes.foldl addAlternative []).reverse
      match joinNothing shapes with
      | [shape] => shape
      | shapes => .choice shapes

mutual

def depth : Shape → Nat
  | .group inner => inner.depth + 1
  | .repeated inner _ _ => inner.depth + 1
  | .row items => deepest items + 1
  | .choice items => deepest items + 1
  | _ => 1

/-- The depth of the deepest of some shapes. -/
def deepest : List Shape → Nat
  | [] => 0
  | shape :: shapes => max shape.depth (deepest shapes)

end

mutual

/-- The number of steps that a shape unfolds to. -/
def steps : Shape → Nat
  | .text codes => max 1 codes.length
  | .group inner => 2 + inner.steps
  | .repeated inner least most =>
      match most with
      | some most => max 1 (most * inner.steps + (most - least))
      | none => if least = 0 then 2 + inner.steps else 1 + least * inner.steps
  | .row items => max 1 (totalSteps items)
  | .choice items => max 1 (totalSteps items + (items.length - 1))
  | _ => 1

/-- The number of steps that some shapes unfold to. -/
def totalSteps : List Shape → Nat
  | [] => 0
  | shape :: shapes => shape.steps + totalSteps shapes

end

mutual

/-- The number of parts of a shape, and the product of its counts. -/
def parts : Shape → Nat × Nat
  | .group inner => let (count, product) := inner.parts; (count + 1, product)
  | .repeated inner least most =>
      let (count, product) := inner.parts
      (count + 1, product * max 1 (most.getD least))
  | .row items => let (count, product) := totalParts items; (count + 1, product)
  | .choice items => let (count, product) := totalParts items; (count + 1, product)
  | _ => (1, 1)

/-- The number of parts of some shapes, and the product of their counts. -/
def totalParts : List Shape → Nat × Nat
  | [] => (0, 1)
  | shape :: shapes =>
      let (count, product) := shape.parts
      let (others, factor) := totalParts shapes
      (count + others, product * factor)

end

/-- The deepest shape that is allowed. -/
def mostDepth : Nat := 1000

/-- The largest number of steps that is allowed. -/
def mostSteps : Nat := 3355443

/-- The shape keeps to the limits.  Steps are counted only if there are many parts for
how often they are repeated. -/
def isAllowed (shape : Shape) : Bool :=
  let (count, product) := shape.parts
  shape.depth ≤ mostDepth && (count < mostSteps / product || shape.steps ≤ mostSteps)

end Shape

namespace Expression

mutual

def shape (expression : Expression) : Shape :=
  match expression with
  | .empty => .nothing
  | .one set => .ofRanges (Shape.rangesOf set)
  | .textStart => .place
  | .textEnd => .place
  | .wordBoundary => .place
  | .noWordBoundary => .place
  | .group inner => .group inner.shape
  | .sequence first second => .ofRow (first.shape :: second.rowShapes)
  | .choice left right => choiceShape (left.shape :: right.choiceShapes)
  | .repeated inner least most => .repeated inner.shape least most
where
  /-- The shape of alternatives. -/
  choiceShape (shapes : List Shape) : Shape :=
    let shapes := (shapes.foldl Shape.addAlternative []).reverse
    Shape.ofAlternatives (Shape.totalSteps shapes) shapes

/-- The shapes of what stands one behind the other. -/
def rowShapes (expression : Expression) : List Shape :=
  match expression with
  | .sequence first second => first.shape :: second.rowShapes
  | .empty => []
  | other => [other.shape]

def choiceShapes (expression : Expression) : List Shape :=
  match expression with
  | .choice left right => left.shape :: right.choiceShapes
  | other => [other.shape]

end

end Expression

end Reroute.Ignore

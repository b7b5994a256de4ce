import Reroute.Search
import Reroute.Span

/-!
# Edited texts

An overlay is a source text together with edits that each replace a range of it.  Ranges
are given in source coordinates and may arrive in any order; an edit is refused when its
range is not a range of the source, is empty, or shares a byte with an earlier one.

The rendered output is a row of pieces: stretches of the source that no edit touches and
the contents of the edits.  Every piece knows which range of the source it stands for and
where it lands in the output.
-/

namespace Reroute

/-- A range of the source and the text that takes its place. -/
structure Edit where
  span : Span
  content : Bytes
  deriving DecidableEq, Repr

/-- A source text and its edits, in ascending order of their starts. -/
structure Overlay where
  source : Bytes
  edits : List Edit
  deriving DecidableEq, Repr

namespace Overlay

/-- Why an edit is refused. -/
inductive Reason where
  | outside (length : Nat)
  | emptyRange
  | overlaps (earlier : Span)
  deriving DecidableEq, Repr

/-- A refused edit. -/
structure Violation where
  span : Span
  reason : Reason
  deriving DecidableEq, Repr

def Reason.message : Reason → Bytes
  | .outside length => utf8 "range outside source of length " ++ Numeral.ofNat length
  | .emptyRange => utf8 "empty range"
  | .overlaps earlier => utf8 "overlaps earlier overwrite " ++ earlier.render

def Violation.message (violation : Violation) : Bytes :=
  utf8 "overlay: overwrite " ++ violation.span.render ++ utf8 ": " ++ violation.reason.message

/-- A text without edits. -/
def ofSource (source : Bytes) : Overlay :=
  ⟨source, []⟩

/-- The edits that start before a position. -/
def editsBefore (overlay : Overlay) (start : Int) : List Edit :=
  overlay.edits.takeWhile fun edit => decide (edit.span.start < start)

/-- The edits that start at or after a position. -/
def editsFrom (overlay : Overlay) (start : Int) : List Edit :=
  overlay.edits.dropWhile fun edit => decide (edit.span.start < start)

/-- The neighbouring edit that shares a byte with a span: the one before it, if that one
does, and otherwise the one after it. -/
def clash? (overlay : Overlay) (span : Span) : Option Edit :=
  match (overlay.editsBefore span.start).getLast?.filter (·.span.overlaps span) with
  | some edit => some edit
  | none => (overlay.editsFrom span.start).head?.filter (·.span.overlaps span)

/-- Replace a range of the source. -/
def overwrite (overlay : Overlay) (span : Span) (content : Bytes) :
    Except Violation Overlay :=
  if !span.within overlay.source.length then
    .error ⟨span, .outside overlay.source.length⟩
  else if span.isEmpty then .error ⟨span, .emptyRange⟩
  else
    match overlay.clash? span with
    | some edit => .error ⟨span, .overlaps edit.span⟩
    | none =>
        .ok { overlay with
              edits :=
                overlay.editsBefore span.start
                  ++ ⟨span, content⟩ :: overlay.editsFrom span.start }

/-- Replace ranges one after the other. -/
def overwriteAll (overlay : Overlay) : List Edit → Except Violation Overlay
  | [] => .ok overlay
  | edit :: edits =>
      match overlay.overwrite edit.span edit.content with
      | .ok next => next.overwriteAll edits
      | .error violation => .error violation

/-- The text has an edit. -/
def hasChanged (overlay : Overlay) : Bool :=
  !overlay.edits.isEmpty

/-- Where the text of a piece comes from. -/
inductive Origin where
  | source
  | edit
  deriving DecidableEq, Repr

/-- The word for the origin with a number; every number but one stands for the source. -/
def originLabel (code : Int) : Bytes :=
  if code == 1 then utf8 "replacement" else utf8 "original"

def Origin.label : Origin → Bytes
  | .source => originLabel 0
  | .edit => originLabel 1

/-- One piece of the output. -/
structure Piece where
  origin : Origin
  text : Bytes
  source : Span
  output : Span
  deriving DecidableEq, Repr

/-- The pieces from a position of the source on.  `rest` is the source from there. -/
def piecesFrom (rest : Bytes) (position output : Nat) : List Edit → List Piece
  | [] =>
      if rest.isEmpty then []
      else
        [⟨.source, rest, Span.ofOffsets position (position + rest.length),
          Span.ofOffsets output (output + rest.length)⟩]
  | edit :: edits =>
      let start := edit.span.start.toNat
      let stop := edit.span.stop.toNat
      let kept := rest.take (start - position)
      let written := output + kept.length
      let next := written + edit.content.length
      let following :=
        ⟨.edit, edit.content, edit.span, Span.ofOffsets written next⟩
          :: piecesFrom (rest.drop (stop - position)) stop next edits
      if position < start then
        ⟨.source, kept, Span.ofOffsets position start, Span.ofOffsets output written⟩
          :: following
      else following

/-- The pieces of the output, in order.  An empty source has none. -/
def pieces (overlay : Overlay) : List Piece :=
  if overlay.source.isEmpty then [] else piecesFrom overlay.source 0 0 overlay.edits

/-- The output. -/
def render (overlay : Overlay) : Bytes :=
  if overlay.hasChanged then overlay.pieces.flatMap Piece.text else overlay.source

/-- The source offset of an output offset, and whether the byte there is the source's
own.  Inside an edit it is the start of the edited range; the end of the output belongs
to the end of the source. -/
def sourceOffset (overlay : Overlay) (offset : Int) : Int × Bool :=
  let pieces := overlay.pieces
  match pieces.getLast? with
  | none => (offset, offset == 0)
  | some last =>
      if offset < 0 || last.output.stop < offset then (0, false)
      else if offset == last.output.stop then (overlay.source.length, true)
      else
        let first :=
          Search.firstIndex pieces.length fun index =>
            pieces[index]?.any fun piece => decide (offset < piece.output.stop)
        match pieces[first]? with
        | none => (0, false)
        | some piece =>
            match piece.origin with
            | .edit => (piece.source.start, false)
            | .source => (piece.source.start + (offset - piece.output.start), true)

end Overlay

end Reroute

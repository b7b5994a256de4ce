import Mathlib
import Reroute.Overlay.Basic
import Reroute.Proofs.Search

/-!
# Edits in order

Edits arrive in any order, and a new one is compared with its two neighbours only: the last
edit that starts before it and the first that does not.  That is enough as long as the edits
so far stand in order and share no byte, and accepting the new one keeps them so.  An edited
text therefore depends on its edits alone and not on the order in which they came.

Overwriting is also given as a program that changes a text in place and finds the neighbours
by bisection.  On texts whose edits stand in order it does the same, and a call that it refuses
leaves the text as it was.
-/

namespace Reroute

namespace Span

/-- The spans share a byte. -/
def Meets (left right : Span) : Prop :=
  ∃ offset, left.contains offset = true ∧ right.contains offset = true

theorem contains_iff (span : Span) (offset : Int) :
    span.contains offset = true ↔ span.start ≤ offset ∧ offset < span.stop := by
  simp [contains]

theorem meets_iff (left right : Span) :
    left.Meets right ↔
      left.start < left.stop ∧ right.start < right.stop ∧
        left.start < right.stop ∧ right.start < left.stop := by
  simp only [Meets, contains_iff]
  constructor
  · rintro ⟨offset, leftContains, rightContains⟩
    omega
  · intro bounds
    exact ⟨max left.start right.start, by omega, by omega⟩

/-- Of ranges that are not reversed, the test for a shared byte is exact. -/
theorem overlaps_iff_meets {left right : Span} (leftOrdered : left.start ≤ left.stop)
    (rightOrdered : right.start ≤ right.stop) :
    left.overlaps right = true ↔ left.Meets right := by
  rw [meets_iff]
  simp only [overlaps, isEmpty, Bool.and_eq_true, Bool.not_eq_true', beq_eq_false_iff_ne,
    decide_eq_true_eq]
  omega

/-- The span is a range of a text of the given length that is not empty. -/
structure Fits (span : Span) (length : Nat) : Prop where
  lowest : 0 ≤ span.start
  proper : span.start < span.stop
  highest : span.stop ≤ length

theorem fits_iff (span : Span) (length : Nat) :
    span.Fits length ↔ span.within length = true ∧ span.isEmpty = false := by
  simp only [within, isEmpty, Bool.and_eq_true, decide_eq_true_eq, beq_eq_false_iff_ne]
  constructor
  · rintro ⟨lowest, proper, highest⟩
    omega
  · rintro ⟨bounds, different⟩
    exact ⟨by omega, by omega, by omega⟩

end Span

namespace Overlay

/-- The edits stand in the order of their starts, each has a range of the source that is not
empty, and no two share a byte. -/
structure Arranged (overlay : Overlay) : Prop where
  sorted : overlay.edits.Pairwise fun left right => left.span.start ≤ right.span.start
  fits : ∀ edit ∈ overlay.edits, edit.span.Fits overlay.source.length
  disjoint : overlay.edits.Pairwise fun left right => ¬left.span.Meets right.span

theorem arranged_ofSource (source : Bytes) : (ofSource source).Arranged :=
  ⟨List.Pairwise.nil, nofun, List.Pairwise.nil⟩

variable {overlay after : Overlay} {span : Span} {content : Bytes}

theorem editsBefore_append_editsFrom (overlay : Overlay) (start : Int) :
    overlay.editsBefore start ++ overlay.editsFrom start = overlay.edits :=
  List.takeWhile_append_dropWhile

theorem start_lt_of_mem_editsBefore {start : Int} {edit : Edit}
    (member : edit ∈ overlay.editsBefore start) : edit.span.start < start := by
  have passed := List.mem_takeWhile_imp (p := fun edit : Edit => decide (edit.span.start < start))
    member
  exact of_decide_eq_true passed

namespace Arranged

/-- No edit starts before those in front of it have ended. -/
theorem apart (arranged : overlay.Arranged) :
    overlay.edits.Pairwise fun left right => left.span.stop ≤ right.span.start := by
  refine (arranged.sorted.and arranged.disjoint).imp_of_mem ?_
  rintro left right leftMember rightMember ⟨ordered, disjoint⟩
  have leftProper := (arranged.fits left leftMember).proper
  have rightProper := (arranged.fits right rightMember).proper
  rw [Span.meets_iff] at disjoint
  omega

theorem of_apart (fits : ∀ edit ∈ overlay.edits, edit.span.Fits overlay.source.length)
    (apart : overlay.edits.Pairwise fun left right => left.span.stop ≤ right.span.start) :
    overlay.Arranged where
  fits := fits
  sorted := by
    refine apart.imp_of_mem ?_
    intro left right leftMember _ ordered
    exact (fits left leftMember).proper.le.trans ordered
  disjoint := by
    refine apart.imp ?_
    intro left right ordered
    rw [Span.meets_iff]
    omega

/-- The edits that start before a position stand first. -/
theorem starts (arranged : overlay.Arranged) (start : Int) :
    overlay.edits.Pairwise fun left right =>
      decide (right.span.start < start) = true → decide (left.span.start < start) = true := by
  refine arranged.sorted.imp ?_
  intro left right ordered
  simp only [decide_eq_true_eq]
  omega

theorem le_start_of_mem_editsFrom (arranged : overlay.Arranged) {start : Int} {edit : Edit}
    (member : edit ∈ overlay.editsFrom start) : start ≤ edit.span.start := by
  have notBefore := Search.refuses_eq_false_of_mem_dropWhile (arranged.starts start) member
  simpa using notBefore

/-- When neither neighbour shares a byte with a span, all edits in front of it have ended where
it starts, and those behind it start where it has ended. -/
theorem clear (arranged : overlay.Arranged) (proper : span.start < span.stop)
    (clear : overlay.clash? span = none) :
    (∀ edit ∈ overlay.editsBefore span.start, edit.span.stop ≤ span.start) ∧
      ∀ edit ∈ overlay.editsFrom span.start, span.stop ≤ edit.span.start := by
  have fits : ∀ edit ∈ overlay.editsBefore span.start ++ overlay.editsFrom span.start,
      edit.span.Fits overlay.source.length := by
    rw [editsBefore_append_editsFrom]
    exact arranged.fits
  have apart := arranged.apart
  rw [← editsBefore_append_editsFrom overlay span.start] at apart
  obtain ⟨apartBefore, apartFrom, -⟩ := List.pairwise_append.mp apart
  rw [clash?] at clear
  split at clear
  · cases clear
  · next frontClear =>
      rw [Option.filter_eq_none_iff] at frontClear clear
      constructor
      · intro edit member
        -- The last edit in front has ended, and all others have ended where it starts.
        obtain ⟨last, found⟩ : ∃ last, (overlay.editsBefore span.start).getLast? = some last :=
          Option.isSome_iff_exists.mp (List.getLast?_isSome.mpr (List.ne_nil_of_mem member))
        have started := start_lt_of_mem_editsBefore (List.mem_of_getLast? found)
        have lastProper := (fits last (List.mem_append_left _ (List.mem_of_getLast? found))).proper
        have lastEnded : last.span.stop ≤ span.start := by
          have missed := frontClear last found
          rw [Span.overlaps_iff_meets lastProper.le proper.le, Span.meets_iff] at missed
          omega
        obtain ⟨front, split⟩ := List.getLast?_eq_some_iff.mp found
        rw [split] at member apartBefore
        rcases List.mem_append.mp member with earlier | same
        · have ended := (List.pairwise_append.mp apartBefore).2.2 edit earlier last
            (List.mem_singleton_self last)
          omega
        · rwa [List.mem_singleton.mp same]
      · intro edit member
        cases found : overlay.editsFrom span.start with
        | nil => simp [found] at member
        | cons first rest =>
            have firstMember : first ∈ overlay.editsFrom span.start := by simp [found]
            have atLeast := arranged.le_start_of_mem_editsFrom firstMember
            have firstProper := (fits first (List.mem_append_right _ firstMember)).proper
            have firstBehind : span.stop ≤ first.span.start := by
              have missed := clear first (by simp [found])
              rw [Span.overlaps_iff_meets firstProper.le proper.le, Span.meets_iff] at missed
              omega
            rw [found] at member apartFrom
            rcases List.mem_cons.mp member with rfl | later
            · exact firstBehind
            · have behind := List.rel_of_pairwise_cons apartFrom later
              omega

end Arranged

/-- A range that fits the source and shares no byte with an edit. -/
structure Admits (overlay : Overlay) (span : Span) : Prop where
  fits : span.Fits overlay.source.length
  free : ∀ edit ∈ overlay.edits, ¬edit.span.Meets span

/-- The text with an edit put in its place. -/
def insertEdit (overlay : Overlay) (edit : Edit) : Overlay :=
  { overlay with
    edits := overlay.editsBefore edit.span.start ++ edit :: overlay.editsFrom edit.span.start }

theorem overwrite_eq_ok_iff :
    overlay.overwrite span content = .ok after ↔
      span.Fits overlay.source.length ∧ overlay.clash? span = none ∧
        after = overlay.insertEdit ⟨span, content⟩ := by
  rw [Span.fits_iff, overwrite]
  cases span.within overlay.source.length with
  | false => simp
  | true =>
      cases span.isEmpty with
      | true => simp
      | false =>
          cases overlay.clash? span with
          | some edit => simp
          | none => simp [insertEdit, eq_comm]

namespace Arranged

theorem clash?_eq_none_iff (arranged : overlay.Arranged) (proper : span.start < span.stop) :
    overlay.clash? span = none ↔ ∀ edit ∈ overlay.edits, ¬edit.span.Meets span := by
  constructor
  · intro clear edit member
    obtain ⟨ended, behind⟩ := arranged.clear proper clear
    rw [← editsBefore_append_editsFrom overlay span.start] at member
    rw [Span.meets_iff]
    rcases List.mem_append.mp member with before | later
    · have bound := ended edit before
      omega
    · have bound := behind edit later
      omega
  · intro free
    have missed : ∀ edit ∈ overlay.editsBefore span.start ++ overlay.editsFrom span.start,
        ¬edit.span.overlaps span = true := by
      rw [editsBefore_append_editsFrom]
      intro edit member
      rw [Span.overlaps_iff_meets (arranged.fits edit member).proper.le proper.le]
      exact free edit member
    have frontClear : (overlay.editsBefore span.start).getLast?.filter
        (·.span.overlaps span) = none := by
      rw [Option.filter_eq_none_iff]
      exact fun edit found => missed edit (List.mem_append_left _ (List.mem_of_getLast? found))
    rw [clash?, frontClear, Option.filter_eq_none_iff]
    exact fun edit found => missed edit (List.mem_append_right _ (List.mem_of_head? found))

/-- Looking at the neighbours is enough: a range is accepted exactly if it fits and is free. -/
theorem exists_overwrite_iff (arranged : overlay.Arranged) (span : Span) (content : Bytes) :
    (∃ after, overlay.overwrite span content = .ok after) ↔ overlay.Admits span := by
  simp only [overwrite_eq_ok_iff, exists_and_left, exists_eq, and_true]
  constructor
  · rintro ⟨fits, clear⟩
    exact ⟨fits, (arranged.clash?_eq_none_iff fits.proper).mp clear⟩
  · rintro ⟨fits, free⟩
    exact ⟨fits, (arranged.clash?_eq_none_iff fits.proper).mpr free⟩

/-- Accepting an edit keeps the edits in order. -/
theorem overwrite (arranged : overlay.Arranged)
    (accepted : overlay.overwrite span content = .ok after) :
    after.Arranged ∧ after.source = overlay.source ∧
      after.edits.Perm (⟨span, content⟩ :: overlay.edits) := by
  obtain ⟨fits, clear, rfl⟩ := overwrite_eq_ok_iff.mp accepted
  obtain ⟨ended, behind⟩ := arranged.clear fits.proper clear
  have permutation : (overlay.insertEdit ⟨span, content⟩).edits.Perm
      (⟨span, content⟩ :: overlay.edits) := by
    have moved : (overlay.insertEdit ⟨span, content⟩).edits.Perm
        (⟨span, content⟩ :: (overlay.editsBefore span.start ++ overlay.editsFrom span.start)) :=
      List.perm_middle
    rwa [editsBefore_append_editsFrom] at moved
  refine ⟨of_apart ?_ ?_, rfl, permutation⟩
  · intro edit member
    rcases List.mem_cons.mp (permutation.mem_iff.mp member) with rfl | old
    · exact fits
    · exact arranged.fits edit old
  · have apart := arranged.apart
    rw [← editsBefore_append_editsFrom overlay span.start] at apart
    obtain ⟨apartBefore, apartFrom, across⟩ := List.pairwise_append.mp apart
    refine List.pairwise_append.mpr ⟨apartBefore, List.Pairwise.cons behind apartFrom, ?_⟩
    intro left leftMember right rightMember
    rcases List.mem_cons.mp rightMember with rfl | later
    · exact ended left leftMember
    · exact across left leftMember right later

/-- Texts whose edits stand in order are settled by their sources and their edits. -/
theorem eq_of_perm (arranged : overlay.Arranged) (other : after.Arranged)
    (source : overlay.source = after.source) (permutation : overlay.edits.Perm after.edits) :
    overlay = after := by
  have same : overlay.edits = after.edits := by
    refine List.Perm.eq_of_pairwise ?_ arranged.apart other.apart permutation
    intro left right leftMember rightMember ordered reversed
    have leftProper := (arranged.fits left leftMember).proper
    have rightProper := (other.fits right rightMember).proper
    omega
  cases overlay
  cases after
  simp_all

end Arranged

/-! ### Overwriting in place -/

/-- The index of the first edit that does not start before a position. -/
def indexOf (overlay : Overlay) (start : Int) : Nat :=
  Search.firstIndex overlay.edits.length fun index =>
    overlay.edits[index]?.any fun edit => !decide (edit.span.start < start)

/-- A program that changes a text and may stop with a violation, which does not undo what it
did to the text before. -/
abbrev Editing := ExceptT Violation (StateM Overlay) Unit

/-- Stop if there is a violation. -/
def stopOn : Option Violation → Editing
  | some violation => throw violation
  | none => pure ()

/-- The violation of a span that shares a byte with a neighbouring edit. -/
def neighbourViolation (span : Span) (neighbour : Option Edit) : Option Violation :=
  (neighbour.filter (·.span.overlaps span)).map fun edit => ⟨span, .overlaps edit.span⟩

/-- Replace a range of the text. -/
def overwriteInPlace (call : Edit) : Editing := do
  let text ← get
  let length := text.source.length
  stopOn (if call.span.within length then none else some ⟨call.span, .outside length⟩)
  stopOn (if call.span.isEmpty then some ⟨call.span, .emptyRange⟩ else none)
  let index := text.indexOf call.span.start
  stopOn (neighbourViolation call.span (if 0 < index then text.edits[index - 1]? else none))
  stopOn (neighbourViolation call.span text.edits[index]?)
  set { text with edits := text.edits.take index ++ call :: text.edits.drop index }

/-- What a call answers, and the text after it. -/
def answerTo (call : Edit) (text : Overlay) : Except Violation Unit × Overlay :=
  (overwriteInPlace call).run.run text

theorem Arranged.indexOf_eq (arranged : overlay.Arranged) (start : Int) :
    overlay.indexOf start = (overlay.editsBefore start).length :=
  Search.firstIndex_eq_length_takeWhile (arranged.starts start)

theorem run_stopOn_bind (violation : Option Violation) (next : Unit → Editing) (text : Overlay) :
    (stopOn violation >>= next).run.run text =
      match violation with
      | some violation => (.error violation, text)
      | none => (next ()).run.run text := by
  cases violation <;> rfl

theorem getElem?_before (overlay : Overlay) (start : Int) :
    (if 0 < (overlay.editsBefore start).length then
        overlay.edits[(overlay.editsBefore start).length - 1]?
      else none) = (overlay.editsBefore start).getLast? := by
  rw [List.getLast?_eq_getElem?]
  split
  · next positive =>
      rw [← editsBefore_append_editsFrom overlay start,
        List.getElem?_append_left (Nat.sub_lt positive Nat.one_pos)]
  · next empty =>
      rw [List.getElem?_eq_none (by omega)]

theorem getElem?_from (overlay : Overlay) (start : Int) :
    overlay.edits[(overlay.editsBefore start).length]? = (overlay.editsFrom start).head? := by
  have whole := editsBefore_append_editsFrom overlay start
  rw [List.head?_eq_getElem?]
  conv_lhs => rw [← whole]
  rw [List.getElem?_append_right (Nat.le_refl _), Nat.sub_self]

/-- On a text whose edits stand in order, overwriting in place is overwriting.  A call that is
refused leaves the text as it is. -/
theorem Arranged.answerTo_eq (arranged : overlay.Arranged) (call : Edit) :
    answerTo call overlay =
      match overlay.overwrite call.span call.content with
      | .ok after => (.ok (), after)
      | .error violation => (.error violation, overlay) := by
  have taken : overlay.edits.take (overlay.editsBefore call.span.start).length =
      overlay.editsBefore call.span.start := by
    conv_lhs => rw [← editsBefore_append_editsFrom overlay call.span.start]
    exact List.take_left
  have dropped : overlay.edits.drop (overlay.editsBefore call.span.start).length =
      overlay.editsFrom call.span.start := by
    conv_lhs => rw [← editsBefore_append_editsFrom overlay call.span.start]
    exact List.drop_left
  change StateT.run (ExceptT.run (stopOn _ >>= fun _ => stopOn _ >>= fun _ => stopOn _ >>= fun _ =>
    stopOn _ >>= fun _ => set _)) overlay = _
  simp only [run_stopOn_bind, arranged.indexOf_eq, getElem?_before, getElem?_from, taken, dropped]
  rw [Overlay.overwrite, clash?]
  cases call.span.within overlay.source.length with
  | false => rfl
  | true =>
      cases call.span.isEmpty with
      | true => rfl
      | false =>
          unfold neighbourViolation
          cases (overlay.editsBefore call.span.start).getLast?.filter
              (·.span.overlaps call.span) with
          | some edit => rfl
          | none =>
              cases (overlay.editsFrom call.span.start).head?.filter
                  (·.span.overlaps call.span) with
              | some edit => rfl
              | none => rfl

/-! ### Any calls in any order -/

/-- Make calls one after the other, refused ones too.  The answer lists the accepted ones. -/
def perform : List Edit → StateM Overlay (List Edit)
  | [] => pure []
  | call :: calls => do
      let answer ← (overwriteInPlace call).run
      let accepted ← perform calls
      return if answer.isOk then call :: accepted else accepted

theorem run_perform_cons (call : Edit) (calls : List Edit) (text : Overlay) :
    (perform (call :: calls)).run text =
      match answerTo call text with
      | (.ok (), after) =>
          (call :: ((perform calls).run after).1, ((perform calls).run after).2)
      | (.error _, after) => (perform calls).run after := by
  have bound : (perform (call :: calls)).run text =
      let (answer, after) := answerTo call text
      (if answer.isOk then call :: ((perform calls).run after).1
        else ((perform calls).run after).1, ((perform calls).run after).2) := rfl
  rw [bound]
  obtain ⟨answer, after⟩ := answerTo call text
  cases answer with
  | ok => rfl
  | error violation => rfl

/-- The text has the accepted calls as its edits, beside those that it had. -/
theorem Arranged.perform (arranged : overlay.Arranged) (calls : List Edit) :
    let (accepted, text) := (Overlay.perform calls).run overlay
    text.Arranged ∧ text.source = overlay.source ∧
      text.edits.Perm (accepted ++ overlay.edits) := by
  induction calls generalizing overlay with
  | nil => exact ⟨arranged, rfl, List.Perm.refl _⟩
  | cons call calls induction =>
      rw [run_perform_cons, arranged.answerTo_eq]
      cases first : overlay.overwrite call.span call.content with
      | error violation => exact induction arranged
      | ok next =>
          obtain ⟨nextArranged, nextSource, nextEdits⟩ := arranged.overwrite first
          obtain ⟨finalArranged, finalSource, finalEdits⟩ := induction nextArranged
          refine ⟨finalArranged, finalSource.trans nextSource, ?_⟩
          exact (finalEdits.trans (nextEdits.append_left _)).trans List.perm_middle

theorem Arranged.perform_of_overwriteAll (arranged : overlay.Arranged) {calls : List Edit}
    (accepted : overlay.overwriteAll calls = .ok after) :
    (Overlay.perform calls).run overlay = (calls, after) := by
  induction calls generalizing overlay with
  | nil =>
      cases accepted
      rfl
  | cons call calls induction =>
      rw [overwriteAll] at accepted
      split at accepted
      · next next first =>
          rw [run_perform_cons, arranged.answerTo_eq, first]
          dsimp only
          rw [induction (arranged.overwrite first).1 accepted]
      · cases accepted

/-- Calls that are all accepted make the edits of a text that has none. -/
theorem arranged_of_overwriteAll {source : Bytes} {calls : List Edit}
    (accepted : (ofSource source).overwriteAll calls = .ok overlay) :
    overlay.Arranged ∧ overlay.source = source ∧ overlay.edits.Perm calls := by
  have reached := (arranged_ofSource source).perform calls
  rw [(arranged_ofSource source).perform_of_overwriteAll accepted] at reached
  obtain ⟨arranged, sources, edits⟩ := reached
  exact ⟨arranged, sources, by simpa [ofSource] using edits⟩

/-- Calls are all accepted if their ranges fit and share no byte with each other. -/
theorem Arranged.exists_overwriteAll (arranged : overlay.Arranged) {calls : List Edit}
    (fits : ∀ call ∈ calls, call.span.Fits overlay.source.length)
    (free : ∀ call ∈ calls, ∀ edit ∈ overlay.edits, ¬edit.span.Meets call.span)
    (disjoint : calls.Pairwise fun left right => ¬left.span.Meets right.span) :
    ∃ after, overlay.overwriteAll calls = .ok after := by
  induction calls generalizing overlay with
  | nil => exact ⟨overlay, rfl⟩
  | cons call calls induction =>
      obtain ⟨next, first⟩ := (arranged.exists_overwrite_iff call.span call.content).mpr
        ⟨fits call List.mem_cons_self, free call List.mem_cons_self⟩
      obtain ⟨nextArranged, nextSource, nextEdits⟩ := arranged.overwrite first
      rw [overwriteAll, first]
      apply induction nextArranged
      · intro later member
        rw [nextSource]
        exact fits later (List.mem_cons_of_mem call member)
      · intro later member edit edited
        rcases List.mem_cons.mp (nextEdits.mem_iff.mp edited) with rfl | old
        · exact List.rel_of_pairwise_cons disjoint member
        · exact free later (List.mem_cons_of_mem call member) edit old
      · exact disjoint.of_cons

/-- The edits of a text are accepted in any order, and give that text. -/
theorem Arranged.overwriteAll_of_perm (arranged : overlay.Arranged) {calls : List Edit}
    (permutation : calls.Perm overlay.edits) :
    (ofSource overlay.source).overwriteAll calls = .ok overlay := by
  have meetsSymm : ∀ {left right : Edit}, ¬left.span.Meets right.span →
      ¬right.span.Meets left.span := by
    rintro left right apart ⟨offset, rightContains, leftContains⟩
    exact apart ⟨offset, leftContains, rightContains⟩
  obtain ⟨after, accepted⟩ := (arranged_ofSource overlay.source).exists_overwriteAll
    (fun call member => arranged.fits call (permutation.mem_iff.mp member))
    (fun call _ edit edited => by cases edited)
    ((permutation.pairwise_iff meetsSymm).mpr arranged.disjoint)
  obtain ⟨afterArranged, afterSource, afterEdits⟩ := arranged_of_overwriteAll accepted
  rw [accepted, afterArranged.eq_of_perm arranged afterSource (afterEdits.trans permutation)]

theorem not_admits_iff (text : Overlay) (span : Span) :
    ¬text.Admits span ↔
      span.stop < span.start ∨ span.start = span.stop ∨
        (span.start < 0 ∨ text.source.length < span.stop) ∨
        ∃ edit ∈ text.edits, edit.span.Meets span := by
  constructor
  · intro refused
    by_contra none
    push Not at none
    obtain ⟨ordered, proper, ⟨lowest, highest⟩, free⟩ := none
    exact refused ⟨⟨lowest, by omega, highest⟩, free⟩
  · rintro faulty ⟨⟨lowest, proper, highest⟩, free⟩
    rcases faulty with reversed | empty | outside | ⟨edit, member, meets⟩
    · omega
    · omega
    · omega
    · exact free edit member meets

/-- Make any calls on a text, starting without edits.  The edits stand in order and are the
accepted calls.  A further call is refused exactly if its range is reversed, empty or outside
the source or shares a byte with an accepted one, and it leaves the text as it was then.  The
text depends on the accepted calls but not on their order, and they are accepted in any. -/
theorem overwrites_lawful (source : Bytes) (calls : List Edit) :
    let (accepted, text) := (perform calls).run (ofSource source)
    (text.source = source ∧ text.Arranged ∧ text.edits.Perm accepted) ∧
    (∀ call, answerTo call text =
      match text.overwrite call.span call.content with
      | .ok after => (.ok (), after)
      | .error violation => (.error violation, text)) ∧
    (∀ call : Edit, (∃ violation, text.overwrite call.span call.content = .error violation) ↔
      call.span.stop < call.span.start ∨ call.span.start = call.span.stop ∨
        (call.span.start < 0 ∨ source.length < call.span.stop) ∨
        ∃ earlier ∈ accepted, earlier.span.Meets call.span) ∧
    (∀ others, ((perform others).run (ofSource source)).1.Perm accepted →
      ((perform others).run (ofSource source)).2 = text) ∧
    ∀ others : List Edit, others.Perm accepted →
      (ofSource source).overwriteAll others = .ok text := by
  have reached := (arranged_ofSource source).perform calls
  generalize (perform calls).run (ofSource source) = result at reached ⊢
  obtain ⟨accepted, text⟩ := result
  obtain ⟨arranged, rfl, edits⟩ := reached
  have permutation : text.edits.Perm accepted := by simpa [ofSource] using edits
  refine ⟨⟨rfl, arranged, permutation⟩, arranged.answerTo_eq, ?_, ?_, ?_⟩
  · intro call
    have member : ∀ edit, edit ∈ accepted ↔ edit ∈ text.edits :=
      fun edit => permutation.mem_iff.symm
    simp only [member]
    rw [← not_admits_iff, ← arranged.exists_overwrite_iff call.span call.content]
    cases text.overwrite call.span call.content with
    | ok after => simp
    | error violation => simp
  · intro others same
    obtain ⟨otherArranged, otherSource, otherEdits⟩ := (arranged_ofSource _).perform others
    refine otherArranged.eq_of_perm arranged otherSource ?_
    refine (otherEdits.trans ?_).trans (same.trans permutation.symm)
    rw [show (ofSource text.source).edits = [] from rfl, List.append_nil]
    rfl
  · intro others same
    exact arranged.overwriteAll_of_perm (same.trans permutation.symm)

end Overlay

end Reroute

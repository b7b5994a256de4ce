import Mathlib
import Reroute.Proofs.SourceMap.Comment

/-!
# The line of a trailing comment

The comment of code is looked for on its last line that is not blank.  `Trails` says of a
cut of the code that the comment stands behind it, without searching, and the search finds
exactly these cuts.  Setting a comment keeps all code in front of that line, and what was
set is read, set again and stripped as if nothing had been there before.
-/

namespace Reroute

namespace Bytes

theorem trimTail_append_of_all {drop : UInt8 → Bool} {blank : Bytes}
    (dropped : ∀ byte ∈ blank, drop byte = true) (text : Bytes) :
    trimTail drop (text ++ blank) = trimTail drop text := by
  induction blank using List.reverseRecOn with
  | nil => rw [List.append_nil]
  | append_singleton blank byte induction =>
      rw [← List.append_assoc, trimTail_append_of_drop (dropped byte (by simp))]
      apply induction
      intro other member
      exact dropped other (by simp [member])

/-- What is trimmed off the end of a text consists of droppable bytes, and what is left does
not end with one. -/
theorem exists_trimTail_append (drop : UInt8 → Bool) (text : Bytes) :
    ∃ blank, text = trimTail drop text ++ blank ∧ (∀ byte ∈ blank, drop byte = true) ∧
      ∀ byte ∈ (trimTail drop text).getLast?, drop byte = false := by
  refine ⟨text.rtakeWhile drop, List.rdropWhile_append_rtakeWhile.symm, ?_, ?_⟩
  · intro byte member
    exact List.mem_rtakeWhile_imp member
  · intro byte member
    obtain ⟨nonempty, rfl⟩ := List.mem_getLast?_eq_getLast member
    exact Bool.eq_false_iff.mpr (List.rdropWhile_last_not drop text nonempty)

theorem cutHead?_eq_some_iff {head text rest : Bytes} :
    cutHead? head text = some rest ↔ text = head ++ rest := by
  constructor
  · intro cut
    unfold cutHead? at cut
    split at cut
    · next starts =>
        obtain ⟨behind, rfl⟩ := List.isPrefixOf_iff_prefix.mp starts
        rw [List.drop_left] at cut
        cases cut
        rfl
    · cases cut
  · rintro rfl
    exact cutHead?_append head rest

end Bytes

namespace Comment

/-- The line is a comment that names an address. -/
def Names (line address : Bytes) : Prop :=
  ∃ head ∈ heads, line = head ++ address ∧ address ≠ [] ∧
    ∀ byte ∈ address, byte ≠ 0x20 ∧ byte ≠ 0x09

/-- The last line of the code that is not blank stands behind `before` and is, up to white
space around it, a comment that names the address. -/
def Trails (code before address : Bytes) : Prop :=
  ∃ line blank, code = before ++ line ++ blank ∧
    (before = [] ∨ before.getLast? = some Bytes.newline) ∧ Bytes.newline ∉ line ∧
    (∀ byte ∈ line.getLast?, Bytes.isLayout byte = false) ∧
    (∀ byte ∈ blank, Bytes.isLayout byte = true) ∧ Names line.trim address

theorem named_iff {address : Bytes} :
    (address.isEmpty || address.any fun byte => byte == 0x20 || byte == 0x09) = false ↔
      address ≠ [] ∧ ∀ byte ∈ address, byte ≠ 0x20 ∧ byte ≠ 0x09 := by
  simp

theorem addressOf?_eq_some_iff {line address : Bytes} :
    addressOf? line = some address ↔ Names line address := by
  constructor
  · intro found
    obtain ⟨head, member, cut⟩ := List.exists_of_findSome?_eq_some found
    split at cut
    · next rest starts =>
        split at cut
        · cases cut
        · next named =>
            cases cut
            exact ⟨head, member, Bytes.cutHead?_eq_some_iff.mp starts,
              named_iff.mp (Bool.eq_false_iff.mpr named)⟩
    · cases cut
  · rintro ⟨head, member, rfl, named⟩
    have kept := named_iff.mpr named
    rcases List.mem_pair.mp member with rfl | rfl
    · simp only [addressOf?, heads, List.findSome?_cons, Bytes.cutHead?_append, kept,
        Bool.false_eq_true, if_false]
    · -- The first spelling differs in its third byte, so the second one is tried.
      have other : Bytes.cutHead? (utf8 "//# sourceMappingURL=")
          (utf8 "//@ sourceMappingURL=" ++ address) = none := rfl
      simp only [addressOf?, heads, List.findSome?_cons, other, Bytes.cutHead?_append, kept,
        Bool.false_eq_true, if_false]

theorem exists_splitLastLine (text : Bytes) :
    ∃ before line, splitLastLine text = (before, line) ∧ text = before ++ line ∧
      (before = [] ∨ before.getLast? = some Bytes.newline) ∧ Bytes.newline ∉ line := by
  obtain ⟨line, split, visible, ends⟩ :=
    Bytes.exists_trimTail_append (· != Bytes.newline) text
  have broken : Bytes.trimTail (· != Bytes.newline) text = [] ∨
      (Bytes.trimTail (· != Bytes.newline) text).getLast? = some Bytes.newline := by
    cases last : (Bytes.trimTail (· != Bytes.newline) text).getLast? with
    | none => exact .inl (List.getLast?_eq_none_iff.mp last)
    | some byte =>
        have same := ends byte last
        rw [bne_eq_false_iff_eq] at same
        exact .inr (by rw [same])
  have unbroken : Bytes.newline ∉ line := by
    intro member
    have different := visible _ member
    simp at different
  refine ⟨_, line, ?_, split, broken, unbroken⟩
  conv_lhs => rw [split]
  exact splitLastLine_append broken unbroken

theorem ne_nil_of_names_trim {line address : Bytes} (names : Names line.trim address) :
    line ≠ [] := by
  rintro rfl
  obtain ⟨head, member, equality, nonempty, -⟩ := names
  rw [Bytes.trim, Bytes.runes_nil] at equality
  exact nonempty (List.append_eq_nil_iff.mp equality.symm).2

/-- The search finds exactly the comments that trail. -/
theorem find?_eq_some_iff {code before address : Bytes} :
    find? code = some (before, address) ↔ Trails code before address := by
  constructor
  · intro found
    obtain ⟨blank, trimmed, layout, ends⟩ := Bytes.exists_trimTail_append Bytes.isLayout code
    obtain ⟨front, line, split, cut, broken, unbroken⟩ := exists_splitLastLine (trimEnd code)
    unfold find? at found
    rw [split] at found
    simp only [Option.map_eq_some_iff, Prod.mk.injEq] at found
    obtain ⟨named, address?, rfl, rfl⟩ := found
    have names := addressOf?_eq_some_iff.mp address?
    refine ⟨line, blank, ?_, broken, unbroken, ?_, layout, names⟩
    · rw [← cut]
      exact trimmed
    · intro byte member
      apply ends byte
      change byte ∈ (trimEnd code).getLast?
      rwa [cut, List.getLast?_append_of_ne_nil _ (ne_nil_of_names_trim names)]
  · rintro ⟨line, blank, rfl, broken, unbroken, ends, layout, names⟩
    have nonempty := ne_nil_of_names_trim names
    have last : (before ++ line).getLast? = some (line.getLast nonempty) := by
      rw [List.getLast?_append_of_ne_nil _ nonempty, List.getLast?_eq_some_getLast]
    have trimmed : trimEnd (before ++ line ++ blank) = before ++ line := by
      rw [trimEnd, Bytes.trimTail_append_of_all layout]
      exact Bytes.trimTail_of_getLast? last (ends _ (List.getLast?_eq_some_getLast nonempty))
    unfold find?
    rw [trimmed, splitLastLine_append broken unbroken]
    simp only [addressOf?_eq_some_iff.mpr names, Option.map_some]

theorem withoutLine_of_trails {code before address : Bytes}
    (trails : Trails code before address) : withoutLine code = before := by
  rw [withoutLine, find?_eq_some_iff.mpr trails]

theorem withoutLine_of_not_trails {code : Bytes}
    (silent : ¬∃ before address, Trails code before address) : withoutLine code = code := by
  unfold withoutLine
  split
  · next before address found =>
      exact absurd ⟨before, address, find?_eq_some_iff.mp found⟩ silent
  · rfl

theorem endLine_endLine (code : Bytes) : endLine (endLine code) = endLine code := by
  rcases endLine_ends code with empty | ended
  · rw [empty]
    rfl
  · rw [endLine, ended]
    simp

/-- The code in front of a comment stays in front of the comment that takes its place. -/
theorem withoutLine_prefix_set (code url : Bytes) : withoutLine code <+: set code url := by
  have kept : withoutLine code <+: endLine (withoutLine code) := by
    unfold endLine
    split
    · exact List.prefix_rfl
    · exact List.prefix_append _ _
  apply kept.trans
  rw [set, List.append_assoc]
  exact List.prefix_append _ _

/-- A comment that was set is read; a second one takes its place as it would have taken the
place of the first; stripping takes it away; and the code it was set in is kept, up to the
line of the comment that it had. -/
theorem set_lawful {url : Bytes} (address : Address url) (code other : Bytes) :
    url? (set code url) = some url ∧
      set (set code url) other = set code other ∧
      strip (set code url) = strip code ∧
      ((¬∃ before named, Trails code before named) → code <+: set code url) ∧
      ∀ before named, Trails code before named → before <+: set code url := by
  have found := find?_set address code
  have kept := withoutLine_prefix_set code url
  refine ⟨?_, ?_, strip_set address code, ?_, ?_⟩
  · rw [url?, found, Option.map_some]
  · rw [set, withoutLine, found, endLine_endLine, ← set]
  · intro silent
    rwa [withoutLine_of_not_trails silent] at kept
  · intro before named trails
    rwa [withoutLine_of_trails trails] at kept

/-- Code whose comment is indented, follows another one, and has blank lines behind it. -/
def stackedCode : Bytes :=
  utf8 "f()\r\n//# sourceMappingURL=a.map\n\t//@ sourceMappingURL=b.map \r\n \n"

theorem trails_stackedCode :
    Trails stackedCode (utf8 "f()\r\n//# sourceMappingURL=a.map\n") (utf8 "b.map") :=
  ⟨utf8 "\t//@ sourceMappingURL=b.map", utf8 " \r\n \n", by decide +kernel, by decide +kernel,
    by decide +kernel, by decide +kernel, by decide +kernel, utf8 "//@ sourceMappingURL=",
    by decide +kernel, by decide +kernel, by decide, by decide +kernel⟩

/-- Only the last of stacked comments is replaced. -/
theorem set_lawful_stacked :
    url? (set stackedCode (utf8 "é.map")) = some (utf8 "é.map") ∧
      set (set stackedCode (utf8 "é.map")) (utf8 "c d") = set stackedCode (utf8 "c d") ∧
      strip (set stackedCode (utf8 "é.map")) = strip stackedCode ∧
      utf8 "f()\r\n//# sourceMappingURL=a.map\n" <+: set stackedCode (utf8 "é.map") := by
  have address : Address (utf8 "é.map") := ⟨by decide, by decide +kernel⟩
  obtain ⟨read, again, stripped, -, kept⟩ := set_lawful address stackedCode (utf8 "c d")
  exact ⟨read, again, stripped, kept _ _ trails_stackedCode⟩

end Comment

end Reroute

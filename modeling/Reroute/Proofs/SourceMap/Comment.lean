import Mathlib
import Reroute.Proofs.Text.Reading
import Reroute.SourceMap.Comment

/-!
# Setting and stripping comments

A comment that was set is found again: it stands on the last line, behind code that ends
with a line break.  Stripping code that was given a comment is therefore the same as
stripping the code.
-/

namespace Reroute

namespace Bytes

theorem trimTail_append_of_drop {drop : UInt8 → Bool} {byte : UInt8} (dropped : drop byte = true)
    (text : Bytes) : trimTail drop (text ++ [byte]) = trimTail drop text := by
  simp [trimTail, dropped]

theorem trimTail_of_getLast? {drop : UInt8 → Bool} {text : Bytes} {last : UInt8}
    (ends : text.getLast? = some last) (kept : drop last = false) : trimTail drop text = text := by
  obtain ⟨front, rfl⟩ := List.getLast?_eq_some_iff.mp ends
  simp [trimTail, kept]

/-- A text whose outermost runes are visible has no white space to trim. -/
theorem trim_of_visible {text : Bytes}
    (first : ∀ rune ∈ text.runes.head?, Text.isBlankRune rune = false)
    (last : ∀ rune ∈ text.runes.getLast?, Text.isBlankRune rune = false) : text.trim = text := by
  have front : text.runes.dropWhile Text.isBlankRune = text.runes := by
    cases runes : text.runes with
    | nil => rfl
    | cons rune rest => simp [first rune (by simp [runes])]
  have back : text.runes.reverse.dropWhile Text.isBlankRune = text.runes.reverse := by
    cases runes : text.runes.reverse with
    | nil => rfl
    | cons rune rest =>
        have ends : text.runes.getLast? = some rune := by
          rw [← List.head?_reverse, runes, List.head?_cons]
        simp [last rune (by simp [ends])]
  rw [trim]
  simp only [front, back, List.reverse_reverse, flatMap_bytes_runes]

theorem cutHead?_append (head rest : Bytes) : cutHead? head (head ++ rest) = some rest := by
  rw [cutHead?, if_pos (List.isPrefixOf_iff_prefix.mpr (List.prefix_append head rest)),
    List.drop_left]

end Bytes

namespace Comment

/-- An address that a comment can name: not empty and without white space. -/
structure Address (url : Bytes) : Prop where
  nonempty : url ≠ []
  visible : ∀ rune ∈ url.runes, Text.isBlankRune rune = false

namespace Address

variable {url : Bytes}

theorem not_mem_of_blank (address : Address url) {byte : UInt8} (low : byte.toNat < 0x80)
    (blank : Text.isBlank (Char.ofNat byte.toNat) = true) : byte ∉ url := by
  intro member
  have visible := address.visible _ (Bytes.char_mem_runes_of_mem low member)
  rw [Text.isBlankRune, blank] at visible
  cases visible

theorem not_isLayout (address : Address url) {byte : UInt8} (member : byte ∈ url) :
    Bytes.isLayout byte = false := by
  rw [Bool.eq_false_iff]
  intro layout
  simp only [Bytes.isLayout, Bool.or_eq_true, beq_iff_eq] at layout
  rcases layout with ((rfl | rfl) | rfl) | rfl
  · exact address.not_mem_of_blank (by decide) (by decide) member
  · exact address.not_mem_of_blank (by decide) (by decide) member
  · exact address.not_mem_of_blank (by decide) (by decide) member
  · exact address.not_mem_of_blank (by decide) (by decide) member

end Address

theorem runes_render (url : Bytes) :
    (render url).runes = (utf8 "//# sourceMappingURL=").runes ++ url.runes :=
  Bytes.complete_of_valid (by decide +kernel) url

theorem newline_not_mem_render {url : Bytes} (address : Address url) :
    Bytes.newline ∉ render url := by
  rw [render, List.mem_append, not_or]
  exact ⟨by decide, address.not_mem_of_blank (by decide) (by decide)⟩

theorem trim_render {url : Bytes} (address : Address url) : (render url).trim = render url := by
  have head : (utf8 "//# sourceMappingURL=").runes.head? = some (.char '/') := by
    decide +kernel
  apply Bytes.trim_of_visible
  · intro rune member
    rw [runes_render, List.head?_append, head] at member
    obtain rfl : Rune.char '/' = rune := by simpa using member
    decide
  · intro rune member
    have nonempty : url.runes ≠ [] := by
      intro empty
      apply address.nonempty
      rw [← Bytes.flatMap_bytes_runes url, empty]
      rfl
    rw [runes_render, List.getLast?_append_of_ne_nil _ nonempty] at member
    exact address.visible rune (List.mem_of_getLast? member)

theorem addressOf?_render {url : Bytes} (address : Address url) :
    addressOf? (render url) = some url := by
  have cut : Bytes.cutHead? (utf8 "//# sourceMappingURL=") (render url) = some url :=
    Bytes.cutHead?_append _ url
  have named : (url.isEmpty || url.any fun byte => byte == 0x20 || byte == 0x09) = false := by
    rw [Bool.or_eq_false_iff, List.any_eq_false]
    refine ⟨by simpa using address.nonempty, ?_⟩
    intro byte member blank
    have layout := address.not_isLayout member
    simp_all [Bytes.isLayout]
  rw [addressOf?, heads, List.findSome?_cons]
  simp only [cut, named, Bool.false_eq_true, if_false]

theorem endLine_ends (code : Bytes) :
    endLine code = [] ∨ (endLine code).getLast? = some Bytes.newline := by
  unfold endLine
  split
  · next ended => simpa using ended
  · right
    simp

theorem trimEnd_endLine (code : Bytes) : trimEnd (endLine code) = trimEnd code := by
  unfold endLine
  split
  · rfl
  · exact Bytes.trimTail_append_of_drop (by decide) code

theorem splitLastLine_append {front line : Bytes}
    (ends : front = [] ∨ front.getLast? = some Bytes.newline)
    (visible : Bytes.newline ∉ line) : splitLastLine (front ++ line) = (front, line) := by
  have all : ∀ byte ∈ line.reverse, (byte != Bytes.newline) = true := by
    intro byte member
    rw [bne_iff_ne]
    rintro rfl
    exact visible (List.mem_reverse.mp member)
  have stops : front.reverse.takeWhile (· != Bytes.newline) = [] := by
    rcases ends with rfl | ends
    · rfl
    · obtain ⟨before, rfl⟩ := List.getLast?_eq_some_iff.mp ends
      simp
  have last : ((front ++ line).reverse.takeWhile (· != Bytes.newline)).reverse = line := by
    rw [List.reverse_append, List.takeWhile_append_of_pos all, stops, List.append_nil,
      List.reverse_reverse]
  unfold splitLastLine
  simp only [last, List.length_append, Nat.add_sub_cancel, List.take_left]

/-- A comment that was set is found, behind the code it was set in. -/
theorem find?_set {url : Bytes} (address : Address url) (code : Bytes) :
    find? (set code url) = some (endLine (withoutLine code), url) := by
  have ends : (endLine (withoutLine code) ++ render url).getLast? =
      some (url.getLast address.nonempty) := by
    rw [List.getLast?_append_of_ne_nil _ (by simp [render, address.nonempty]), render,
      List.getLast?_append_of_ne_nil _ address.nonempty, List.getLast?_eq_some_getLast]
  have trimmed : trimEnd (set code url) = endLine (withoutLine code) ++ render url := by
    rw [trimEnd, set, Bytes.trimTail_append_of_drop (by decide)]
    exact Bytes.trimTail_of_getLast? ends
      (address.not_isLayout (List.getLast_mem address.nonempty))
  unfold find?
  rw [trimmed, splitLastLine_append (endLine_ends _) (newline_not_mem_render address)]
  simp only [trim_render address, addressOf?_render address, Option.map_some]

/-- Stripping takes away the comment that was set. -/
theorem strip_set {url : Bytes} (address : Address url) (code : Bytes) :
    strip (set code url) = strip code := by
  rw [strip, withoutLine, find?_set address]
  exact trimEnd_endLine (withoutLine code)

end Comment

end Reroute

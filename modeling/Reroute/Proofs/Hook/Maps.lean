import Mathlib
import Reroute.Proofs.Hook.Replies
import Reroute.Proofs.Json.Literals
import Reroute.Proofs.SourceMap.Comment

/-!
# A map sent as an object or as a string

A bundler may send a map as an object or as a string that holds the text of that object.  The
object is kept as written, less the white space around it, and the string is read.  Both ways the
text that remains is the same, so the chunk is the same and the server does the same with it.
-/

namespace Reroute

namespace Bytes

theorem low_of_isLayout {byte : UInt8} (layout : isLayout byte = true) :
    byte.toNat < 0x80 ∧ Text.isBlankRune (.char (Char.ofNat byte.toNat)) = true := by
  simp only [isLayout, Bool.or_eq_true, beq_iff_eq] at layout
  rcases layout with ((rfl | rfl) | rfl) | rfl <;> decide

/-- Layout in front of a text is read as blanks. -/
theorem exists_runes_layout {layout : Bytes} (blank : ∀ byte ∈ layout, isLayout byte = true)
    (text : Bytes) :
    ∃ blanks, runes (layout ++ text) = blanks ++ runes text ∧
      ∀ rune ∈ blanks, Text.isBlankRune rune = true := by
  induction layout with
  | nil => exact ⟨[], rfl, by simp⟩
  | cons byte layout induction =>
      rw [List.forall_mem_cons] at blank
      obtain ⟨low, blankRune⟩ := low_of_isLayout blank.1
      obtain ⟨blanks, read, blankRunes⟩ := induction blank.2
      refine ⟨.char (Char.ofNat byte.toNat) :: blanks, ?_, ?_⟩
      · have first := runes_append_ascii [] low (layout ++ text)
        rw [runes_nil, List.nil_append, List.nil_append] at first
        rw [List.cons_append, first, read, List.cons_append]
      · exact List.forall_mem_cons.mpr ⟨blankRune, blankRunes⟩

/-- Layout behind a text is read as blanks behind it. -/
theorem exists_runes_append_layout {layout : Bytes}
    (blank : ∀ byte ∈ layout, isLayout byte = true) (text : Bytes) :
    ∃ blanks, runes (text ++ layout) = runes text ++ blanks ∧
      ∀ rune ∈ blanks, Text.isBlankRune rune = true := by
  obtain ⟨blanks, read, blankRunes⟩ := exists_runes_layout blank []
  rw [List.append_nil, runes_nil, List.append_nil] at read
  refine ⟨blanks, ?_, blankRunes⟩
  rw [← read]
  apply runes_append
  intro byte member
  obtain ⟨low, -⟩ := low_of_isLayout (blank byte (List.mem_of_mem_head? member))
  exact (Rune.Spells.one low).not_continues

/-- Layout around a text is trimmed with it. -/
theorem trim_layout {left text right : Bytes} (leftBlank : ∀ byte ∈ left, isLayout byte = true)
    (rightBlank : ∀ byte ∈ right, isLayout byte = true) :
    trim (left ++ text ++ right) = trim text := by
  obtain ⟨front, frontRead, frontBlank⟩ := exists_runes_layout leftBlank (text ++ right)
  obtain ⟨back, backRead, backBlank⟩ := exists_runes_append_layout rightBlank text
  have backDropped : back.dropWhile Text.isBlankRune = [] :=
    List.dropWhile_eq_nil_iff.mpr backBlank
  have backReversed : ∀ rune ∈ back.reverse, Text.isBlankRune rune = true := by
    simpa using backBlank
  rw [trim, trim, List.append_assoc, frontRead, backRead,
    List.dropWhile_append_of_pos frontBlank, List.dropWhile_append, backDropped]
  cases kept : (runes text).dropWhile Text.isBlankRune with
  | nil => rfl
  | cons rune rest =>
      simp only [List.isEmpty_cons, Bool.false_eq_true, if_false, List.reverse_append,
        List.dropWhile_append_of_pos backReversed]

/-- A byte that is a visible character by itself. -/
def IsVisible (byte : UInt8) : Prop :=
  byte.toNat < 0x80 ∧ Text.isBlankRune (.char (Char.ofNat byte.toNat)) = false

instance (byte : UInt8) : Decidable (IsVisible byte) :=
  inferInstanceAs (Decidable (_ ∧ _))

theorem trim_of_ends {text : Bytes} {first last : UInt8} (opens : text.head? = some first)
    (closes : text.getLast? = some last) (firstVisible : IsVisible first)
    (lastVisible : IsVisible last) : text.trim = text := by
  apply trim_of_visible
  · obtain ⟨rest, rfl⟩ := List.head?_eq_some_iff.mp opens
    have read := runes_append_ascii [] firstVisible.1 rest
    rw [runes_nil, List.nil_append, List.nil_append] at read
    intro rune member
    rw [read] at member
    cases member
    exact firstVisible.2
  · obtain ⟨front, rfl⟩ := List.getLast?_eq_some_iff.mp closes
    intro rune member
    rw [runes_append_ascii front lastVisible.1, runes_nil, List.getLast?_concat] at member
    cases member
    exact lastVisible.2

end Bytes

namespace Hook

namespace Payload

/-- A text in braces is kept as written, less the layout around it. -/
theorem parentMap?_object {document left right : Bytes} (opens : document.head? = some 123)
    (closes : document.getLast? = some 125)
    (leftBlank : ∀ byte ∈ left, Bytes.isLayout byte = true)
    (rightBlank : ∀ byte ∈ right, Bytes.isLayout byte = true) :
    parentMap? (left ++ document ++ right) = some document := by
  have trimmed : Bytes.trim document = document :=
    Bytes.trim_of_ends opens closes (by decide) (by decide)
  obtain ⟨rest, rfl⟩ := List.head?_eq_some_iff.mp opens
  have notNull : (123 :: rest == utf8 "null") = false := rfl
  rw [parentMap?, Bytes.trim_layout leftBlank rightBlank, trimmed]
  simp [notNull]

theorem parentMap?_literal {literal document : Bytes} (spelled : Json.Literal literal document) :
    parentMap? literal = some document := by
  obtain ⟨opens, closes⟩ := spelled.ends
  have trimmed : Bytes.trim literal = literal :=
    Bytes.trim_of_ends opens closes (by decide) (by decide)
  have read := spelled.parse?_eq
  obtain ⟨rest, rfl⟩ := List.head?_eq_some_iff.mp opens
  have notNull : (34 :: rest == utf8 "null") = false := rfl
  rw [parentMap?, trimmed]
  simp [notNull, read]

theorem chunk_of_parentMap? (code fileName : Bytes) {text map : Bytes}
    (read : parentMap? text = some map) :
    (⟨code, fileName, text⟩ : Payload).chunk =
      .ok ⟨fileName, code, map, some (.hook fileName)⟩ := by
  rw [chunk, read]

end Payload

namespace Server

/-- Only the chunk of a payload matters to the server. -/
theorem handle_chunk_congr (server : Server) {left right : Payload} {leftText rightText : Bytes}
    (leftRead : Payload.read? leftText = some left)
    (rightRead : Payload.read? rightText = some right) (same : left.chunk = right.chunk) :
    server.handle (chunkRequest leftText) = server.handle (chunkRequest rightText) := by
  have rendered : server.renderChunk leftText = server.renderChunk rightText := by
    simp only [renderChunk, leftRead, rightRead, same]
  rw [handle_chunkRequest, handle_chunkRequest, rendered]

/-- A map that is sent as an object, with any white space around it, and one that is sent as any
string literal of that object make equal chunks.  They have the same result key, and the server
gives the same reply and is left the same.  An object is known by its braces, however deep it is
nested; a request is read without the white space around its map. -/
theorem map_forms_agree {document left right literal : Bytes} (code fileName : Bytes)
    (opens : document.head? = some 123) (closes : document.getLast? = some 125)
    (leftBlank : ∀ byte ∈ left, Bytes.isLayout byte = true)
    (rightBlank : ∀ byte ∈ right, Bytes.isLayout byte = true)
    (spelled : Json.Literal literal document) :
    let object : Payload := ⟨code, fileName, left ++ document ++ right⟩
    let string : Payload := ⟨code, fileName, literal⟩
    ∃ chunk, object.chunk = .ok chunk ∧ string.chunk = .ok chunk ∧
      chunk = ⟨fileName, code, document, some (.hook fileName)⟩ ∧
      ∀ server : Server,
        object.chunk.map server.pipeline.resultKey = string.chunk.map server.pipeline.resultKey ∧
        ∀ objectText stringText : Bytes,
          Payload.read? objectText = some object → Payload.read? stringText = some string →
          server.handle (chunkRequest objectText) = server.handle (chunkRequest stringText) := by
  intro object string
  have objectChunk := Payload.chunk_of_parentMap? code fileName
    (Payload.parentMap?_object opens closes leftBlank rightBlank)
  have stringChunk := Payload.chunk_of_parentMap? code fileName
    (Payload.parentMap?_literal spelled)
  have same : object.chunk = string.chunk := objectChunk.trans stringChunk.symm
  refine ⟨_, objectChunk, stringChunk, rfl, ?_⟩
  intro server
  refine ⟨by rw [same], ?_⟩
  intro objectText stringText objectRead stringRead
  exact server.handle_chunk_congr objectRead stringRead same

/-- A map with characters of two and of four bytes. -/
def noteMap : Bytes :=
  utf8 "\x7b\"file\":\"é𝄞.js\"\x7d"

/-- The map as a string, with its opening brace and both characters escaped. -/
def noteLiteral : Bytes :=
  utf8 "\"\\u007B\\\"file\\\":\\\"\\u00e9\\uD834\\udd1e.js\\\"\x7d\""

/-- The request of a chunk with a map. -/
def noteRequest (map : Bytes) : Bytes :=
  utf8 "\x7b\"code\":\"import(x)\",\"fileName\":\"a.js\",\"map\": " ++ map ++ utf8 "\n\x7d"

theorem map_forms_agree_note :
    (⟨utf8 "import(x)", utf8 "a.js", utf8 " \n" ++ noteMap ++ utf8 "\t"⟩ : Payload).chunk =
        (⟨utf8 "import(x)", utf8 "a.js", noteLiteral⟩ : Payload).chunk ∧
      let server : Server := ⟨Pipeline.incrementalPipeline, [], .memory⟩
      server.handle (chunkRequest (noteRequest noteMap)) =
        server.handle (chunkRequest (noteRequest noteLiteral)) := by
  have spelled : Json.Literal noteLiteral noteMap :=
    Json.literal_iff.mpr ⟨noteLiteral.tail, rfl, by decide +kernel⟩
  constructor
  · obtain ⟨chunk, objectChunk, stringChunk, -⟩ :=
      @map_forms_agree noteMap (utf8 " \n") (utf8 "\t") noteLiteral (utf8 "import(x)")
        (utf8 "a.js") (by decide +kernel) (by decide +kernel) (by decide +kernel)
        (by decide +kernel) spelled
    exact objectChunk.trans stringChunk.symm
  · intro server
    obtain ⟨-, -, -, -, answered⟩ :=
      @map_forms_agree noteMap [] [] noteLiteral (utf8 "import(x)") (utf8 "a.js")
        (by decide +kernel) (by decide +kernel) (by simp) (by simp) spelled
    exact (answered server).2 _ _ (by decide +kernel) (by decide +kernel)

end Server

end Hook

end Reroute

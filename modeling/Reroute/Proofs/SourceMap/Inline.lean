import Mathlib
import Reroute.Proofs.Json.RoundTrip
import Reroute.Proofs.SourceMap.Comment
import Reroute.Proofs.Text.Base64

/-!
# Inline maps are restored

A document that is embedded in code is found, decoded and read as the document it was.  Its
data address has visible characters only, so the comment that names it is found again; the
payload is base64 of its text; and reading takes every member to the field it was written
for.
-/

namespace Reroute

namespace Bytes

theorem runes_cons_of_visible {byte : UInt8} (visible : Visible byte) (text : Bytes) :
    runes (byte :: text) = .char (Char.ofNat byte.toNat) :: runes text := by
  have low : byte.toNat < 0x80 := Nat.lt_trans visible.2 (by decide)
  simpa using runes_append_ascii [] low text

theorem isBlank_of_visible {byte : UInt8} (visible : Visible byte) :
    Text.isBlank (Char.ofNat byte.toNat) = false := by
  obtain ⟨above, below⟩ := visible
  have code : (Char.ofNat byte.toNat).toNat = byte.toNat :=
    Rune.toNat_ofNat_of_valid (Or.inl (by omega))
  rw [Bool.eq_false_iff]
  intro blank
  simp only [Text.isBlank, code, Bool.or_eq_true, Bool.and_eq_true, decide_eq_true_eq,
    beq_iff_eq] at blank
  omega

theorem cutAt?_append {separator : UInt8} {front : Bytes} (clear : separator ∉ front)
    (rest : Bytes) : cutAt? separator (front ++ separator :: rest) = some (front, rest) := by
  have all : ∀ byte ∈ front, (byte != separator) = true := by
    intro byte member
    rw [bne_iff_ne]
    rintro rfl
    exact clear member
  rw [cutAt?, List.dropWhile_append_of_pos all, List.takeWhile_append_of_pos all]
  simp

end Bytes

namespace Comment

theorem address_of_visible {url : Bytes} (nonempty : url ≠ [])
    (visible : ∀ byte ∈ url, Bytes.Visible byte) : Address url := by
  refine ⟨nonempty, ?_⟩
  clear nonempty
  induction url with
  | nil => simp
  | cons byte url induction =>
      rw [List.forall_mem_cons] at visible
      rw [Bytes.runes_cons_of_visible visible.1, List.forall_mem_cons]
      exact ⟨Bytes.isBlank_of_visible visible.1, induction visible.2⟩

end Comment

namespace DataUrl

theorem decode_base64 {header : Bytes} (clear : 44 ∉ header)
    (marked : (utf8 ";base64").isSuffixOf header = true) (data : Bytes) :
    decode (scheme ++ (header ++ 44 :: Base64.encode data)) = .ok data := by
  rw [decode, Bytes.cutHead?_append]
  simp only [Bytes.cutAt?_append clear, marked, if_true, Base64.decode?_encode]

end DataUrl

namespace Json

theorem fillCells_map {α β : Type} (fresh : α) {fill : α → β → Option α} {wrap : α → β}
    (filled : ∀ current item, fill current (wrap item) = some item) (items : List α) :
    fillCells fresh fill [] (items.map wrap) = some (items, []) := by
  induction items with
  | nil => rfl
  | cons item items induction =>
      rw [List.map_cons, fillCells, filled]
      simp only [List.tail_nil, induction]

theorem fillList_array {α : Type} {fresh : α} {fill : α → Value → Option α} {wrap : α → Value}
    (filled : ∀ current item, fill current (wrap item) = some item) (items : List α) :
    fillList fresh fill .empty (.array (items.map wrap)) = some ⟨some items, []⟩ := by
  cases items with
  | nil => rfl
  | cons item items =>
      have cells := fillCells_map fresh filled (item :: items)
      rw [List.map_cons] at cells
      simp [fillList, fillItems, Cells.empty, cells]

end Json

namespace SourceMap

/-- Every text of a document is valid UTF-8. -/
structure Valid (map : SourceMap) : Prop where
  file : map.file.validUtf8 = true
  sourceRoot : map.sourceRoot.validUtf8 = true
  sources : ∀ source ∈ map.sourceList, source.validUtf8 = true
  sourcesContent : ∀ content, some content ∈ map.sourcesContent → content.validUtf8 = true
  names : ∀ name ∈ map.nameList, name.validUtf8 = true
  mappings : map.mappings.validUtf8 = true

def fieldNames : List String :=
  ["version", "file", "sourceRoot", "sources", "sourcesContent", "names", "mappings"]

theorem selects_self : ∀ name ∈ fieldNames, Json.selects (utf8 name) name = true := by
  decide +kernel

theorem selects_of_ne : ∀ name ∈ fieldNames, ∀ field ∈ "sections" :: fieldNames,
    name ≠ field → Json.selects (utf8 name) field = false := by
  decide +kernel

namespace Draft

variable {draft : Draft}

theorem takeAll_append (draft : Draft) (front back : List (Bytes × Json.Value)) :
    draft.takeAll (front ++ back) =
      (draft.takeAll front).bind fun next => next.takeAll back := by
  induction front generalizing draft with
  | nil => rfl
  | cons member front induction =>
      obtain ⟨name, value⟩ := member
      rw [List.cons_append, takeAll, takeAll]
      cases draft.take name value with
      | none => rfl
      | some next => exact induction next

theorem takeAll_version (draft : Draft) :
    draft.takeAll [(utf8 "version", .integer revision)] =
      some { draft with version := revision } := by
  have word : Json.fillWord draft.version (.integer revision) = some revision := by
    rw [Json.Value.integer, Json.fillWord]
    decide +kernel
  simp (disch := decide) only [takeAll, take, selects_self, if_true, word, Option.map_some]

theorem take_string (draft : Draft) (text : Bytes) :
    draft.take (utf8 "file") (.string text) = some { draft with file := text } ∧
      draft.take (utf8 "sourceRoot") (.string text) =
        some { draft with sourceRoot := text } := by
  constructor
  all_goals
    simp (disch := decide) only [take, selects_of_ne, selects_self, if_true, Bool.false_eq_true,
      if_false, Json.fillText, Option.map_some]

/-- A member that is written unless its text is empty fills in that text. -/
theorem takeAll_optionalMember {name : String} {text : Bytes} {filled : Draft}
    (taken : draft.take (utf8 name) (.string text) = some filled)
    (blank : text = [] → draft = filled) :
    draft.takeAll (optionalMember name text) = some filled := by
  rw [optionalMember]
  split
  · next empty => rw [takeAll, blank (List.isEmpty_iff.mp empty)]
  · simp only [takeAll, taken]

theorem fillList_texts (texts : List Bytes) :
    Json.fillList [] Json.fillText .empty (textsValue (some texts)) =
      some ⟨some texts, []⟩ := by
  apply Json.fillList_array
  intro current text
  rfl

theorem fillList_contents (contents : List (Option Bytes)) :
    Json.fillList none Json.fillOptionalText .empty (.array (contents.map optionalTextValue)) =
      some ⟨some contents, []⟩ := by
  apply Json.fillList_array
  intro current content
  cases content with
  | none => rfl
  | some text => rfl

theorem takeAll_sources (blank : draft.sources = .empty) (texts : List Bytes) :
    draft.takeAll [(utf8 "sources", textsValue (some texts))] =
      some { draft with sources := ⟨some texts, []⟩ } := by
  simp (disch := decide) only [takeAll, take, selects_of_ne, selects_self, if_true,
    Bool.false_eq_true, if_false, blank, fillList_texts, Option.map_some]

theorem takeAll_sourcesContent (blank : draft.sourcesContent = .empty)
    (contents : List (Option Bytes)) :
    draft.takeAll
        (if contents.isEmpty then []
        else [(utf8 "sourcesContent", .array (contents.map optionalTextValue))]) =
      some { draft with
        sourcesContent := if contents.isEmpty then .empty else ⟨some contents, []⟩ } := by
  split
  · rw [takeAll, ← blank]
  · simp (disch := decide) only [takeAll, take, selects_of_ne, selects_self, if_true,
      Bool.false_eq_true, if_false, blank, fillList_contents, Option.map_some]

theorem takeAll_names_mappings (blank : draft.names = .empty) (names : List Bytes)
    (mappings : Bytes) :
    draft.takeAll [(utf8 "names", textsValue (some names)), (utf8 "mappings", .string mappings)] =
      some { draft with names := ⟨some names, []⟩, mappings := mappings } := by
  simp (disch := decide) only [takeAll, take, selects_of_ne, selects_self, if_true,
    Bool.false_eq_true, if_false, blank, fillList_texts, Json.fillText, Option.map_some]

end Draft

/-- The members a document is written with. -/
def members (map : SourceMap) : List (Bytes × Json.Value) :=
  [(utf8 "version", Json.Value.integer map.version)]
    ++ optionalMember "file" map.file
    ++ optionalMember "sourceRoot" map.sourceRoot
    ++ [(utf8 "sources", textsValue map.sources)]
    ++ (if map.sourcesContent.isEmpty then []
      else [(utf8 "sourcesContent", .array (map.sourcesContent.map optionalTextValue))])
    ++ [(utf8 "names", textsValue map.names), (utf8 "mappings", .string map.mappings)]

theorem value_eq (map : SourceMap) : map.value = .object map.members :=
  rfl

theorem forall_mem_members (map : SourceMap) (holds : Bytes × Json.Value → Prop) :
    (∀ member ∈ map.members, holds member) ↔
      holds (utf8 "version", .integer map.version) ∧
      (map.file ≠ [] → holds (utf8 "file", .string map.file)) ∧
      (map.sourceRoot ≠ [] → holds (utf8 "sourceRoot", .string map.sourceRoot)) ∧
      holds (utf8 "sources", textsValue map.sources) ∧
      (map.sourcesContent ≠ [] →
        holds (utf8 "sourcesContent", .array (map.sourcesContent.map optionalTextValue))) ∧
      holds (utf8 "names", textsValue map.names) ∧
      holds (utf8 "mappings", .string map.mappings) := by
  have optional (present : List (Bytes × Json.Value)) (absent : Bool) :
      (∀ member ∈ if absent then [] else present, holds member) ↔
        (absent = false → ∀ member ∈ present, holds member) := by
    cases absent with
    | true => simp
    | false => simp
  simp only [members, optionalMember, List.forall_mem_append, List.forall_mem_cons, optional,
    List.isEmpty_eq_false_iff, List.not_mem_nil, false_imp_iff, implies_true, and_true, and_assoc]

theorem exists_name_of_mem_members (map : SourceMap) :
    ∀ member ∈ map.members, ∃ name ∈ fieldNames, member.1 = utf8 name := by
  rw [forall_mem_members]
  refine ⟨⟨"version", ?_, rfl⟩, fun _ => ⟨"file", ?_, rfl⟩, fun _ => ⟨"sourceRoot", ?_, rfl⟩,
    ⟨"sources", ?_, rfl⟩, fun _ => ⟨"sourcesContent", ?_, rfl⟩, ⟨"names", ?_, rfl⟩,
    ⟨"mappings", ?_, rfl⟩⟩
  all_goals decide

theorem Valid.writable_value {map : SourceMap} (valid : map.Valid) : map.value.Writable 2 := by
  have names : ∀ name ∈ fieldNames, (utf8 name).validUtf8 = true := by decide +kernel
  have texts (texts : Option (List Bytes)) (each : ∀ text ∈ texts.getD [], text.validUtf8 = true) :
      (textsValue texts).Writable 1 := by
    cases texts with
    | none => exact .null
    | some texts =>
        apply Json.Value.Writable.array
        intro item member
        obtain ⟨text, inside, rfl⟩ := List.mem_map.mp member
        exact .string (each text inside)
  have contents : (Json.Value.array (map.sourcesContent.map optionalTextValue)).Writable 1 := by
    apply Json.Value.Writable.array
    intro item member
    obtain ⟨content, inside, rfl⟩ := List.mem_map.mp member
    cases content with
    | none => exact .null
    | some text => exact .string (valid.sourcesContent text inside)
  rw [value_eq]
  apply Json.Value.Writable.object
  · intro member inside
    obtain ⟨name, known, equality⟩ := exists_name_of_mem_members map member inside
    rw [equality]
    exact names name known
  · rw [forall_mem_members]
    exact ⟨.integer _, fun _ => .string valid.file, fun _ => .string valid.sourceRoot,
      texts _ valid.sources, fun _ => contents, texts _ valid.names, .string valid.mappings⟩

theorem Valid.parse?_json {map : SourceMap} (valid : map.Valid) :
    Json.parse? map.json = some (.object map.members) :=
  Json.parse?_compact valid.writable_value (by decide)

/-- A document has contents of sources as a member only when there are any. -/
theorem exists_selects_sourcesContent_iff (map : SourceMap) :
    (∃ member ∈ map.members, Json.selects member.1 "sourcesContent" = true) ↔
      map.sourcesContent ≠ [] := by
  constructor
  · rintro ⟨member, inside, selected⟩
    have only : ∀ member ∈ map.members,
        Json.selects member.1 "sourcesContent" = true → map.sourcesContent ≠ [] := by
      rw [forall_mem_members]
      simp (disch := decide) only [selects_of_ne, Bool.false_eq_true, false_imp_iff, implies_true,
        and_true, true_and]
      exact fun present _ => present
    exact only member inside selected
  · intro present
    have every := (forall_mem_members map (· ∈ map.members)).mp fun _ inside => inside
    exact ⟨_, every.2.2.2.2.1 present, selects_self "sourcesContent" (by decide)⟩

/-- Every member fills the field it was written for. -/
theorem takeAll_members {map : SourceMap} {sources names : List Bytes}
    (version : map.version = revision) (sourcesGiven : map.sources = some sources)
    (namesGiven : map.names = some names) :
    Draft.empty.takeAll map.members =
      some
        { version := revision
          file := map.file
          sourceRoot := map.sourceRoot
          sources := ⟨some sources, []⟩
          sourcesContent :=
            if map.sourcesContent.isEmpty then .empty else ⟨some map.sourcesContent, []⟩
          names := ⟨some names, []⟩
          mappings := map.mappings } := by
  have file := Draft.takeAll_optionalMember
    (Draft.take_string { Draft.empty with version := revision } map.file).1
    (fun empty => by rw [empty]; rfl)
  have sourceRoot := Draft.takeAll_optionalMember
    (Draft.take_string { Draft.empty with version := revision, file := map.file }
      map.sourceRoot).2
    (fun empty => by rw [empty]; rfl)
  rw [members, version, sourcesGiven, namesGiven]
  simp only [Draft.takeAll_append]
  rw [Draft.takeAll_version, Option.bind_some, file, Option.bind_some, sourceRoot,
    Option.bind_some, Draft.takeAll_sources rfl, Option.bind_some,
    Draft.takeAll_sourcesContent rfl, Option.bind_some, Draft.takeAll_names_mappings rfl]

/-- A document with all its lists is read as it was written. -/
theorem Valid.parse_json {map : SourceMap} {sources names : List Bytes} (valid : map.Valid)
    (version : map.version = revision) (sourcesGiven : map.sources = some sources)
    (namesGiven : map.names = some names) : parse map.json = .ok map := by
  have contents :
      (if map.sourcesContent.isEmpty then Json.Cells.empty
        else ⟨some map.sourcesContent, []⟩).shown.getD [] = map.sourcesContent := by
    cases map.sourcesContent with
    | nil => rfl
    | cons content later => rfl
  have others : ∀ name ∈ fieldNames, name ≠ "sections" := by decide
  rw [parse, valid.parse?_json, Option.bind_some, membersOf?]
  simp only
  rw [if_neg]
  · simp only [takeAll_members version sourcesGiven namesGiven, beq_self_eq_true, if_true,
      Draft.finish, Option.getD_some, contents]
    rw [← version, ← sourcesGiven, ← namesGiven]
  · rw [List.any_eq_true]
    rintro ⟨⟨memberName, value⟩, inside, selected⟩
    obtain ⟨name, known, rfl⟩ := exists_name_of_mem_members map _ inside
    have unselected := selects_of_ne name known "sections" (by decide) (others name known)
    exact Bool.false_ne_true (unselected.symm.trans selected)

/-! ### Documents in code -/

theorem decode_dataUrl (map : SourceMap) : DataUrl.decode map.dataUrl = .ok map.json := by
  have head : addressHead =
      DataUrl.scheme ++ (utf8 "application/json;charset=utf-8;base64" ++ [44]) := by
    decide +kernel
  rw [dataUrl, head, List.append_assoc, List.append_assoc, List.singleton_append]
  exact DataUrl.decode_base64 (by decide +kernel) (by decide +kernel) map.json

theorem address_dataUrl (map : SourceMap) : Comment.Address map.dataUrl := by
  have nonempty : addressHead ≠ [] := by decide +kernel
  have visible : (addressHead.all fun byte => decide (Bytes.Visible byte)) = true := by
    decide +kernel
  simp only [List.all_eq_true, decide_eq_true_eq] at visible
  apply Comment.address_of_visible
  · exact List.append_ne_nil_of_left_ne_nil nonempty _
  · rw [dataUrl, List.forall_mem_append]
    exact ⟨visible, Base64.visible_of_mem_encode map.json⟩

/-- A document that is embedded in code is found there, decoded and read as it was.  Its
contents of sources are a member only when there are any. -/
theorem inline_restored (code : Bytes) {map : SourceMap} {sources names : List Bytes}
    (valid : map.Valid) (version : map.version = revision)
    (sourcesGiven : map.sources = some sources) (namesGiven : map.names = some names) :
    Comment.url? (Comment.set code map.dataUrl) = some map.dataUrl ∧
    DataUrl.decode map.dataUrl = .ok map.json ∧
    parse map.json = .ok map ∧
    ∃ members, Json.parse? map.json = some (.object members) ∧
      ((∃ member ∈ members, Json.selects member.1 "sourcesContent" = true) ↔
        map.sourcesContent ≠ []) := by
  refine ⟨?_, decode_dataUrl map, valid.parse_json version sourcesGiven namesGiven,
    map.members, ?_, exists_selects_sourcesContent_iff map⟩
  · rw [Comment.url?, Comment.find?_set (address_dataUrl map)]
    rfl
  · exact valid.parse?_json

/-- A document whose texts need escapes, with contents for one of its two sources. -/
def escapedMap : SourceMap :=
  { version := 3
    file := utf8 "b.js"
    sourceRoot := []
    sources := some [utf8 "a.js", utf8 "<é>"]
    sourcesContent := [some (utf8 "\"\\\n\x01\u2028"), none]
    names := some []
    mappings := utf8 "AAAA" }

theorem inline_restored_escapedMap :
    Comment.url? (Comment.set (utf8 "f()\n//# sourceMappingURL=old.map") escapedMap.dataUrl) =
      some escapedMap.dataUrl ∧
    DataUrl.decode escapedMap.dataUrl = .ok escapedMap.json ∧
    parse escapedMap.json = .ok escapedMap ∧
    ∃ members, Json.parse? escapedMap.json = some (.object members) ∧
      ((∃ member ∈ members, Json.selects member.1 "sourcesContent" = true) ↔
        escapedMap.sourcesContent ≠ []) := by
  have content : (utf8 "\"\\\n\x01\u2028").validUtf8 = true := by decide +kernel
  have valid : escapedMap.Valid := by
    constructor
    · decide +kernel
    · decide +kernel
    · decide +kernel
    · intro text member
      rcases List.mem_pair.mp member with same | same
      · rw [Option.some.inj same]
        exact content
      · cases same
    · decide +kernel
    · decide +kernel
  exact inline_restored _ valid rfl rfl rfl

end SourceMap

end Reroute

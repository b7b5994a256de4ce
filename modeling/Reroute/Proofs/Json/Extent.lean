import Mathlib
import Reroute.SourceMap.Document

/-!
# How much a document can hold

A value that is read takes up at least its extent: every item and every member needs a
byte of its own and a byte that ends it.  The lists of a map document are therefore at
most half as long as its text.
-/

namespace Reroute.Json

mutual

/-- A number of bytes that the text of a value cannot fall below. -/
def Value.extent : Value → Nat
  | .array items => 1 + itemsExtent items
  | .object members => 1 + membersExtent members
  | _ => 1

/-- The extent of items, each with the byte that ends it. -/
def itemsExtent : List Value → Nat
  | [] => 0
  | item :: items => item.extent + 1 + itemsExtent items

/-- The extent of members, each with the byte that ends it. -/
def membersExtent : List (Bytes × Value) → Nat
  | [] => 0
  | (_, value) :: members => value.extent + 1 + membersExtent members

end

theorem Value.extent_pos (value : Value) : 0 < value.extent := by
  cases value <;> simp [extent]

theorem two_mul_length_le_itemsExtent (items : List Value) :
    2 * items.length ≤ itemsExtent items := by
  induction items with
  | nil => simp [itemsExtent]
  | cons item items induction =>
      have positive := item.extent_pos
      simp only [itemsExtent, List.length_cons]
      omega

theorem extent_le_of_mem {members : List (Bytes × Value)} {name : Bytes} {value : Value}
    (member : (name, value) ∈ members) : value.extent ≤ membersExtent members := by
  induction members with
  | nil => simp at member
  | cons first members induction =>
      obtain ⟨firstName, firstValue⟩ := first
      rw [membersExtent]
      rcases List.mem_cons.mp member with equality | later
      · cases equality
        omega
      · have bound := induction later
        omega

/-! ### What the readers leave over -/

theorem length_skipBlanks_le (text : Bytes) : (skipBlanks text).length ≤ text.length :=
  (List.dropWhile_sublist _).length_le

theorem length_lt_of_skipBlanks {text rest : Bytes} {byte : UInt8}
    (skipped : skipBlanks text = byte :: rest) : rest.length < text.length := by
  have bound := length_skipBlanks_le text
  rw [skipped, List.length_cons] at bound
  omega

theorem readString_length {done text content rest : Bytes}
    (read : readString done text = some (content, rest)) : rest.length < text.length := by
  fun_induction readString done text with
  | case1 => simp at read
  | case2 => simp_all
  | case3 done rest code width escape induction =>
      have bound := induction read
      simp only [List.length_drop] at bound
      simp only [List.length_cons]
      omega
  | case4 => simp at read
  | case5 done letter rest byte unescaped different induction =>
      have bound := induction read
      simp only [List.length_cons]
      omega
  | case6 => simp at read
  | case7 => simp at read
  | case8 done byte rest quote escape unescape plain induction =>
      have bound := induction read
      simp only [List.length_cons]
      omega

theorem length_spanDigits (text : Bytes) :
    (spanDigits text).1.length + (spanDigits text).2.length = text.length := by
  rw [spanDigits, ← List.length_append, List.takeWhile_append_dropWhile]

theorem readWhole_length {text digits rest : Bytes}
    (read : readWhole text = some (digits, rest)) : rest.length < text.length := by
  unfold readWhole at read
  split at read
  · cases read
    simp
  · have total := length_spanDigits text
    simp only at read
    split at read
    · cases read
    · next found =>
        cases read
        have positive : 0 < (spanDigits text).1.length := by
          rw [List.length_pos_iff]
          simpa using found
        omega

/-- Digits that have to be there leave at most the text they were read from. -/
theorem spanDigits_length (lead : Bytes) {text digits rest : Bytes}
    (read : (if (spanDigits text).1.isEmpty then none
      else some (lead ++ (spanDigits text).1, (spanDigits text).2)) = some (digits, rest)) :
    rest.length ≤ text.length := by
  have total := length_spanDigits text
  split at read
  · cases read
  · cases read
    omega

theorem readFraction_length {text digits rest : Bytes}
    (read : readFraction text = some (digits, rest)) : rest.length ≤ text.length := by
  unfold readFraction at read
  split at read
  · next after =>
      have bound := spanDigits_length [46] read
      exact Nat.le_succ_of_le bound
  · cases read
    exact Nat.le_refl _

theorem readExponent_length {text digits rest : Bytes}
    (read : readExponent text = some (digits, rest)) : rest.length ≤ text.length := by
  unfold readExponent at read
  split at read
  · next mark after =>
      split at read
      · split at read
        next sign body signed =>
          have bound := spanDigits_length _ read
          have bodyBound : body.length ≤ after.length := by
            split at signed <;> cases signed <;> simp
          exact Nat.le_succ_of_le (Nat.le_trans bound bodyBound)
      · cases read
        exact Nat.le_refl _
  · cases read
    exact Nat.le_refl _

theorem readNumber_length {text numeral rest : Bytes}
    (read : readNumber text = some (numeral, rest)) : rest.length < text.length := by
  have bodyBound : ∀ body afterWhole whole, body.length ≤ text.length →
      readWhole body = some (whole, afterWhole) → afterWhole.length < text.length := by
    intro body afterWhole whole inside wholeRead
    exact Nat.lt_of_lt_of_le (readWhole_length wholeRead) inside
  unfold readNumber at read
  simp only [Option.bind_eq_bind, Option.bind_eq_some_iff, Prod.exists, Option.pure_def,
    Option.some.injEq, Prod.mk.injEq] at read
  obtain ⟨whole, afterWhole, wholeRead, fraction, afterFraction, fractionRead, exponent, last,
    exponentRead, -, rfl⟩ := read
  have fractionBound := readFraction_length fractionRead
  have exponentBound := readExponent_length exponentRead
  have wholeBound : afterWhole.length < text.length := by
    split at wholeRead
    · exact bodyBound _ _ _ (by simp) wholeRead
    · exact bodyBound _ _ _ (Nat.le_refl _) wholeRead
  omega

/-- What is read takes up its extent. -/
def Fits (value : Value) (rest text : Bytes) : Prop :=
  value.extent + rest.length ≤ text.length

/-- Items behind those already read take up their extent and the bytes that end them. -/
def ItemsFit (done : List Value) (value : Value) (rest text : Bytes) : Prop :=
  ∃ items, value = .array (done.reverse ++ items) ∧
    itemsExtent items + rest.length ≤ text.length

/-- Members behind those already read take up their extent and the bytes that end them. -/
def MembersFit (done : List (Bytes × Value)) (value : Value) (rest text : Bytes) : Prop :=
  ∃ members, value = .object (done.reverse ++ members) ∧
    membersExtent members + rest.length ≤ text.length

theorem readItems_fits {fuel : Nat}
    (valueFits : ∀ {depth text value rest},
      readValue fuel depth text = some (value, rest) → Fits value rest text)
    (itemsFit : ∀ {depth done text value rest},
      readItems fuel depth done text = some (value, rest) → ItemsFit done value rest text)
    {depth : Nat} {done : List Value} {text rest : Bytes} {value : Value}
    (read : readItems (fuel + 1) depth done text = some (value, rest)) :
    ItemsFit done value rest text := by
  rw [readItems] at read
  split at read
  · cases read
  · next item after itemRead =>
      have itemBound := valueFits itemRead
      unfold Fits at itemBound
      split at read
      · next following skipped =>
          have followingBound := length_lt_of_skipBlanks skipped
          obtain ⟨items, rfl, bound⟩ := itemsFit read
          refine ⟨item :: items, by simp, ?_⟩
          rw [itemsExtent]
          omega
      · next following skipped =>
          have followingBound := length_lt_of_skipBlanks skipped
          cases read
          refine ⟨[item], by simp, ?_⟩
          simp only [itemsExtent]
          omega
      · cases read

theorem readMembers_fits {fuel : Nat}
    (valueFits : ∀ {depth text value rest},
      readValue fuel depth text = some (value, rest) → Fits value rest text)
    (membersFit : ∀ {depth done text value rest},
      readMembers fuel depth done text = some (value, rest) → MembersFit done value rest text)
    {depth : Nat} {done : List (Bytes × Value)} {text rest : Bytes} {value : Value}
    (read : readMembers (fuel + 1) depth done text = some (value, rest)) :
    MembersFit done value rest text := by
  rw [readMembers] at read
  split at read
  · next afterQuote quoted =>
      have quoteBound := length_lt_of_skipBlanks quoted
      split at read
      · cases read
      · next name afterName nameRead =>
          have nameBound := readString_length nameRead
          split at read
          · next afterColon colon =>
              have colonBound := length_lt_of_skipBlanks colon
              split at read
              · cases read
              · next found after valueRead =>
                  have valueBound := valueFits valueRead
                  unfold Fits at valueBound
                  split at read
                  · next following skipped =>
                      have followingBound := length_lt_of_skipBlanks skipped
                      obtain ⟨members, rfl, bound⟩ := membersFit read
                      refine ⟨(name, found) :: members, by simp, ?_⟩
                      rw [membersExtent]
                      omega
                  · next following skipped =>
                      have followingBound := length_lt_of_skipBlanks skipped
                      cases read
                      refine ⟨[(name, found)], by simp, ?_⟩
                      simp only [membersExtent]
                      omega
                  · cases read
          · cases read
  · cases read

theorem readValue_fits {fuel : Nat}
    (itemsFit : ∀ {depth done text value rest},
      readItems fuel depth done text = some (value, rest) → ItemsFit done value rest text)
    (membersFit : ∀ {depth done text value rest},
      readMembers fuel depth done text = some (value, rest) → MembersFit done value rest text)
    {depth : Nat} {text rest : Bytes} {value : Value}
    (read : readValue (fuel + 1) depth text = some (value, rest)) :
    Fits value rest text := by
  have whole := length_skipBlanks_le text
  unfold Fits
  rw [readValue] at read
  split at read
  · cases read
  · next after start =>
      rw [start, List.length_cons] at whole
      split at read
      · next stringRead =>
          have bound := readString_length stringRead
          cases read
          simp only [Value.extent]
          omega
      · cases read
  · next after start =>
      rw [start, List.length_cons] at whole
      split at read
      · split at read
        · next closed =>
            have bound := length_lt_of_skipBlanks closed
            cases read
            simp only [Value.extent, itemsExtent]
            omega
        · obtain ⟨items, rfl, bound⟩ := itemsFit read
          simp only [List.reverse_nil, List.nil_append, Value.extent]
          omega
      · cases read
  · next after start =>
      rw [start, List.length_cons] at whole
      split at read
      · split at read
        · next closed =>
            have bound := length_lt_of_skipBlanks closed
            cases read
            simp only [Value.extent, membersExtent]
            omega
        · obtain ⟨members, rfl, bound⟩ := membersFit read
          simp only [List.reverse_nil, List.nil_append, Value.extent]
          omega
      · cases read
  · next after start =>
      rw [start] at whole
      cases read
      simp only [List.length_cons, Value.extent] at whole ⊢
      omega
  · next after start =>
      rw [start] at whole
      cases read
      simp only [List.length_cons, Value.extent] at whole ⊢
      omega
  · next after start =>
      rw [start] at whole
      cases read
      simp only [List.length_cons, Value.extent] at whole ⊢
      omega
  · split at read
    · next numberRead =>
        have bound := readNumber_length numberRead
        cases read
        simp only [Value.extent]
        omega
    · cases read

/-- The three readers, by induction on the fuel they share. -/
theorem readers_fit (fuel : Nat) :
    (∀ {depth text value rest},
      readValue fuel depth text = some (value, rest) → Fits value rest text) ∧
    (∀ {depth done text value rest},
      readItems fuel depth done text = some (value, rest) → ItemsFit done value rest text) ∧
    (∀ {depth done text value rest},
      readMembers fuel depth done text = some (value, rest) →
        MembersFit done value rest text) := by
  induction fuel with
  | zero => simp [readValue, readItems, readMembers]
  | succ fuel induction =>
      obtain ⟨valueFits, itemsFit, membersFit⟩ := induction
      exact ⟨readValue_fits itemsFit membersFit, readItems_fits valueFits itemsFit,
        readMembers_fits valueFits membersFit⟩

theorem extent_le_of_parse {text : Bytes} {value : Value} (parsed : parse? text = some value) :
    value.extent ≤ text.length := by
  unfold parse? at parsed
  split at parsed
  · next rest read =>
      have fits := (readers_fit (enoughFuel text)).1 read
      unfold Fits at fits
      split at parsed
      · cases parsed
        omega
      · cases parsed
  · cases parsed

theorem length_fillCells {α β : Type} {fresh : α} {fill : α → β → Option α} {cells : List α}
    {items : List β} {filled rest : List α}
    (taken : fillCells fresh fill cells items = some (filled, rest)) :
    filled.length = items.length := by
  induction items generalizing cells filled with
  | nil =>
      cases taken
      rfl
  | cons item items induction =>
      rw [fillCells] at taken
      split at taken
      · next later =>
          cases taken
          rw [List.length_cons, induction later, List.length_cons]
      · cases taken

/-- The items of a list field. -/
def Cells.items {α : Type} (cells : Cells α) : List α :=
  cells.shown.getD []

/-- A list field holds at most half as many items as the bytes of its value. -/
theorem fillList_extent {α : Type} {fresh : α} {fill : α → Value → Option α}
    {current next : Cells α} {value : Value}
    (taken : fillList fresh fill current value = some next) :
    2 * next.items.length ≤ value.extent := by
  cases value with
  | null =>
      cases taken
      simp [Cells.items, Cells.empty]
  | array items =>
      simp only [fillList, fillItems] at taken
      split at taken
      · cases taken
        simp [Cells.items]
      · split at taken
        · next filledCells =>
            cases taken
            have bound := two_mul_length_le_itemsExtent items
            have length := length_fillCells filledCells
            simp only [Cells.items, Option.getD_some, Value.extent]
            omega
        · cases taken
  | bool value => cases taken
  | number numeral => cases taken
  | string text => cases taken
  | object members => cases taken

end Reroute.Json

namespace Reroute.SourceMap

/-- The lists of a draft that look-ups read hold at most half as many items as a bound. -/
def Draft.Within (bound : Nat) (draft : Draft) : Prop :=
  2 * draft.sources.items.length ≤ bound ∧ 2 * draft.names.items.length ≤ bound

/-- A member that is shorter than the bound keeps the lists within it. -/
theorem Draft.take_within {bound : Nat} {draft next : Draft} {name : Bytes}
    {value : Json.Value} (taken : draft.take name value = some next)
    (short : value.extent ≤ bound) (within : draft.Within bound) : next.Within bound := by
  unfold take at taken
  split at taken
  · obtain ⟨version, -, rfl⟩ := Option.map_eq_some_iff.mp taken
    exact within
  split at taken
  · obtain ⟨file, -, rfl⟩ := Option.map_eq_some_iff.mp taken
    exact within
  split at taken
  · obtain ⟨sourceRoot, -, rfl⟩ := Option.map_eq_some_iff.mp taken
    exact within
  split at taken
  · obtain ⟨sources, filled, rfl⟩ := Option.map_eq_some_iff.mp taken
    exact ⟨Nat.le_trans (Json.fillList_extent filled) short, within.2⟩
  split at taken
  · obtain ⟨sourcesContent, -, rfl⟩ := Option.map_eq_some_iff.mp taken
    exact within
  split at taken
  · obtain ⟨names, filled, rfl⟩ := Option.map_eq_some_iff.mp taken
    exact ⟨within.1, Nat.le_trans (Json.fillList_extent filled) short⟩
  split at taken
  · obtain ⟨mappings, -, rfl⟩ := Option.map_eq_some_iff.mp taken
    exact within
  · cases taken
    exact within

theorem Draft.takeAll_within {bound : Nat} {draft last : Draft}
    {members : List (Bytes × Json.Value)} (taken : draft.takeAll members = some last)
    (short : ∀ name value, (name, value) ∈ members → value.extent ≤ bound)
    (within : draft.Within bound) : last.Within bound := by
  induction members generalizing draft with
  | nil =>
      cases taken
      exact within
  | cons member members induction =>
      obtain ⟨name, value⟩ := member
      rw [takeAll] at taken
      split at taken
      · next next first =>
          refine induction taken ?_ (take_within first (short name value (by simp)) within)
          intro laterName laterValue later
          exact short laterName laterValue (List.mem_cons_of_mem _ later)
      · cases taken

/-- The sources and the names of a document are at most half as many as its bytes. -/
theorem two_mul_length_le_of_parse {text : Bytes} {map : SourceMap}
    (parsed : parse text = .ok map) :
    2 * map.sourceList.length ≤ text.length ∧ 2 * map.nameList.length ≤ text.length := by
  unfold parse at parsed
  split at parsed
  · cases parsed
  · next members found =>
      obtain ⟨value, read, membersFound⟩ := Option.bind_eq_some_iff.mp found
      have extent := Json.extent_le_of_parse read
      have membersBound : Json.membersExtent members ≤ text.length := by
        unfold membersOf? at membersFound
        split at membersFound
        · cases membersFound
          simp only [Json.Value.extent] at extent
          omega
        · cases membersFound
          simp [Json.membersExtent]
        · cases membersFound
      have short : ∀ name value, (name, value) ∈ members → value.extent ≤ text.length := by
        intro name value member
        exact Nat.le_trans (Json.extent_le_of_mem member) membersBound
      have empty : Draft.empty.Within text.length := by
        simp [Draft.Within, Draft.empty, Json.Cells.items, Json.Cells.empty]
      split at parsed
      · cases parsed
      · split at parsed
        · cases parsed
        · next draft taken =>
            split at parsed
            · cases parsed
              exact Draft.takeAll_within taken short empty
            · cases parsed

end Reroute.SourceMap

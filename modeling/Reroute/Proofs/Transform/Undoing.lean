import Mathlib
import Reroute.Proofs.Transform.Replacement

/-!
# Undoing a replacement that keeps the pattern

The builtin rule puts a word in front of every occurrence of its pattern.  The new text then
has the pattern only where a replacement ends: none is formed between a replacement and the
text around it, since no end of the pattern is a start of it and the word in front starts with
a byte that the pattern does not have.  So replacing the other way round restores the text.
-/

namespace Reroute

/-- A word can be put in front of a pattern without the two running into each other: no
occurrence of the pattern reaches into the word from the text before, starts in the word, or
starts within another occurrence. -/
structure Heads (head pattern : Bytes) : Prop where
  nonempty : pattern ≠ []
  fresh : ∃ byte rest, head = byte :: rest ∧ byte ∉ pattern
  apart : ∀ shift < head.length, ¬pattern <+: (head ++ pattern).drop shift
  borderless : ∀ shift < pattern.length, 0 < shift → ¬pattern.drop shift <+: pattern

/-- Where the replacements for ranges stand in the new text, if each of them is longer by
`growth` than what it replaces and the first of them is moved by `shift`. -/
def landings (growth : Nat) (shift : Int) (spans : List Span) : List Span :=
  spans.mapIdx fun index span =>
    ⟨span.start + (shift + growth * index), span.stop + (shift + growth * (index + 1))⟩

@[simp] theorem landings_nil (growth : Nat) (shift : Int) : landings growth shift [] = [] :=
  rfl

@[simp] theorem landings_cons (growth : Nat) (shift : Int) (span : Span) (spans : List Span) :
    landings growth shift (span :: spans) =
      ⟨span.start + shift, span.stop + (shift + growth)⟩ ::
        landings growth (shift + growth) spans := by
  unfold landings
  rw [List.mapIdx_cons]
  congr 1
  · simp
  · congr 1
    funext index span
    congr 1 <;> push_cast <;> ring

@[simp] theorem length_landings (growth : Nat) (shift : Int) (spans : List Span) :
    (landings growth shift spans).length = spans.length :=
  List.length_mapIdx

namespace Heads

variable {head pattern : Bytes}

/-- Behind an occurrence of the pattern the next one starts in the text behind it. -/
theorem prefix_drop_pattern_iff (heads : Heads head pattern) (tail : Bytes) (shift : Nat) :
    pattern <+: (pattern ++ tail).drop shift ↔
      shift = 0 ∨ ∃ later, shift = pattern.length + later ∧ pattern <+: tail.drop later := by
  have positive := List.length_pos_iff.mpr heads.nonempty
  rcases Nat.lt_or_ge shift pattern.length with within | beyond
  · rcases Nat.eq_zero_or_pos shift with rfl | inside
    · simp
    · rw [List.drop_append_of_le_length within.le]
      constructor
      · intro starts
        have border : pattern.drop shift <+: pattern :=
          List.prefix_of_prefix_length_le (List.prefix_append ..) starts (by simp)
        exact absurd border (heads.borderless shift within inside)
      · rintro (equality | ⟨later, equality, -⟩) <;> omega
  · obtain ⟨later, rfl⟩ := Nat.exists_eq_add_of_le beyond
    rw [List.drop_length_add_append]
    constructor
    · intro starts
      exact .inr ⟨later, rfl, starts⟩
    · rintro (equality | ⟨other, equality, starts⟩)
      · omega
      · rwa [Nat.add_left_cancel equality]

/-- In a replacement with text behind it, the pattern starts where the word ends, or in the
text behind. -/
theorem prefix_drop_iff (heads : Heads head pattern) (tail : Bytes) (offset : Nat) :
    pattern <+: (head ++ pattern ++ tail).drop offset ↔
      offset = head.length ∨
        ∃ later, offset = head.length + pattern.length + later ∧ pattern <+: tail.drop later := by
  rcases Nat.lt_or_ge offset head.length with inside | behind
  · constructor
    · intro starts
      rw [List.drop_append_of_le_length (by rw [List.length_append]; omega)] at starts
      have early : pattern <+: (head ++ pattern).drop offset := by
        refine List.prefix_of_prefix_length_le starts (List.prefix_append ..) ?_
        rw [List.length_drop, List.length_append]
        omega
      exact absurd early (heads.apart offset inside)
    · rintro (rfl | ⟨later, rfl, -⟩) <;> omega
  · obtain ⟨shift, rfl⟩ := Nat.exists_eq_add_of_le behind
    rw [List.append_assoc, List.drop_length_add_append, heads.prefix_drop_pattern_iff]
    refine or_congr (by omega) (exists_congr fun later => and_congr_left fun _ => ?_)
    omega

end Heads

namespace Replaces

variable {head pattern : Bytes} {position : Nat} {text output : Bytes} {spans : List Span}

/-- A word that lacks the first byte of all replacements is written only by copying it. -/
theorem prefix_of_prefix_output {byte : UInt8} {rest word : Bytes} (lacks : byte ∉ word)
    (replaces : Replaces pattern (byte :: rest) position text output spans)
    (starts : word <+: output) : word <+: text := by
  induction replaces generalizing word with
  | done => exact starts
  | replace =>
      cases word with
      | nil => exact List.nil_prefix
      | cons first word =>
          obtain ⟨rfl, -⟩ := List.cons_prefix_cons.mp starts
          simp at lacks
  | copy _ _ induction =>
      cases word with
      | nil => exact List.nil_prefix
      | cons first word =>
          obtain ⟨rfl, later⟩ := List.cons_prefix_cons.mp starts
          exact List.cons_prefix_cons.mpr
            ⟨rfl, induction (fun member => lacks (List.mem_cons_of_mem _ member)) later⟩

theorem le_start_of_mem_landings {replacement : Bytes}
    (replaces : Replaces pattern replacement position text output spans) (growth : Nat)
    (shift : Int) {landing : Span} (member : landing ∈ landings growth shift spans) :
    position + shift ≤ landing.start := by
  induction replaces generalizing shift with
  | done => simp at member
  | replace _ _ induction =>
      rw [landings_cons, List.mem_cons] at member
      rcases member with rfl | member
      · simp [Span.ofOffsets]
      · have behind := induction (shift + growth) member
        omega
  | copy _ _ induction =>
      have behind := induction shift member
      omega

/-- The pattern occurs in the new text exactly where a replacement ends. -/
theorem prefix_drop_output_iff (heads : Heads head pattern)
    (replaces : Replaces pattern (head ++ pattern) position text output spans) (shift : Int)
    (offset : Nat) :
    pattern <+: output.drop offset ↔
      ∃ landing ∈ landings head.length shift spans,
        position + shift + offset = landing.start + head.length := by
  induction replaces generalizing shift offset with
  | done => simp [heads.nonempty]
  | @replace position byte rest output spans starts later induction =>
      rw [heads.prefix_drop_iff, landings_cons, List.exists_mem_cons_iff]
      refine or_congr ?_ ?_
      · simp only [Span.ofOffsets]
        omega
      · constructor
        · rintro ⟨behind, rfl, occurs⟩
          obtain ⟨landing, member, place⟩ := (induction (shift + head.length) behind).mp occurs
          exact ⟨landing, member, by omega⟩
        · rintro ⟨landing, member, place⟩
          have bound := later.le_start_of_mem_landings _ _ member
          obtain ⟨behind, rfl⟩ :=
            Nat.exists_eq_add_of_le (show head.length + pattern.length ≤ offset by omega)
          exact ⟨behind, rfl, (induction _ behind).mpr ⟨landing, member, by omega⟩⟩
  | @copy position byte rest output spans missing later induction =>
      cases offset with
      | zero =>
          constructor
          · intro starts
            obtain ⟨first, others, rfl, lacks⟩ := heads.fresh
            exact absurd ((Replaces.copy missing later).prefix_of_prefix_output lacks starts)
              missing
          · rintro ⟨landing, member, place⟩
            have bound := later.le_start_of_mem_landings _ _ member
            omega
      | succ offset =>
          rw [List.drop_succ_cons, induction shift offset]
          refine exists_congr fun landing => and_congr_right fun _ => ?_
          omega

/-- Every replacement stands where it landed. -/
theorem exists_offset_of_mem_landings
    (replaces : Replaces pattern (head ++ pattern) position text output spans) (shift : Int)
    {landing : Span} (member : landing ∈ landings head.length shift spans) :
    ∃ offset : Nat, landing.start = position + shift + offset ∧
      landing.stop = landing.start + (head ++ pattern).length ∧
      head ++ pattern <+: output.drop offset := by
  induction replaces generalizing shift with
  | done => simp at member
  | replace starts later induction =>
      rw [landings_cons, List.mem_cons] at member
      rcases member with rfl | member
      · refine ⟨0, by simp [Span.ofOffsets], ?_, List.prefix_append ..⟩
        simp only [Span.ofOffsets, List.length_append]
        omega
      · obtain ⟨offset, start, stop, stands⟩ := induction _ member
        refine ⟨(head ++ pattern).length + offset, ?_, stop, ?_⟩
        · rw [List.length_append]
          omega
        · rwa [List.drop_length_add_append]
  | copy _ _ induction =>
      obtain ⟨offset, start, stop, stands⟩ := induction shift member
      exact ⟨offset + 1, by omega, stop, stands⟩

theorem pairwise_landings {replacement : Bytes} (nonempty : pattern ≠ [])
    (replaces : Replaces pattern replacement position text output spans) (growth : Nat)
    (shift : Int) :
    (landings growth shift spans).Pairwise fun left right => left.start < right.start := by
  induction replaces generalizing shift with
  | done => exact .nil
  | replace _ later induction =>
      rw [landings_cons]
      refine .cons ?_ (induction _)
      intro landing member
      have bound := later.le_start_of_mem_landings _ _ member
      have positive := List.length_pos_iff.mpr nonempty
      simp only [Span.ofOffsets]
      omega
  | copy _ _ induction => exact induction shift

/-- The new text has as many occurrences of the pattern as the text had. -/
theorem ncard_occurrences (heads : Heads head pattern)
    (replaces : Replaces pattern (head ++ pattern) 0 text output spans) :
    {offset | pattern <+: output.drop offset}.ncard = spans.length := by
  let ends := (landings head.length 0 spans).map fun landing : Span =>
    (landing.start + (head.length : Int)).toNat
  have distinct : ends.Nodup := by
    refine List.pairwise_map.mpr ?_
    refine (replaces.pairwise_landings heads.nonempty head.length 0).imp_of_mem ?_
    intro left right leftMember rightMember before
    have leftBound := replaces.le_start_of_mem_landings _ _ leftMember
    have rightBound := replaces.le_start_of_mem_landings _ _ rightMember
    omega
  have same : {offset | pattern <+: output.drop offset} = ↑ends.toFinset := by
    ext offset
    rw [Set.mem_ofPred_eq, replaces.prefix_drop_output_iff heads 0, Finset.mem_coe,
      List.mem_toFinset, List.mem_map]
    refine exists_congr fun landing => and_congr_right fun member => ?_
    have bound := replaces.le_start_of_mem_landings _ _ member
    omega
  rw [same, Set.ncard_coe_finset, List.toFinset_card_of_nodup distinct, List.length_map,
    length_landings]

theorem replace_append {replacement : Bytes} (nonempty : pattern ≠ [])
    (later : Replaces pattern replacement (position + pattern.length) text output spans) :
    Replaces pattern replacement position (pattern ++ text) (replacement ++ output)
      (Span.ofOffsets position (position + pattern.length) :: spans) := by
  obtain ⟨byte, rest, equality⟩ : ∃ byte rest, pattern ++ text = byte :: rest :=
    List.exists_cons_of_ne_nil (by simp [nonempty])
  have starts : pattern <+: byte :: rest := equality ▸ List.prefix_append pattern text
  rw [equality]
  refine .replace starts ?_
  rwa [← equality, List.drop_left]

/-- Replacing the other way round restores the text. -/
theorem undo (heads : Heads head pattern)
    (replaces : Replaces pattern (head ++ pattern) position text output spans) (shift : Int)
    {start : Nat} (base : (start : Int) = position + shift) :
    Replaces (head ++ pattern) pattern start output text (landings head.length shift spans) := by
  induction replaces generalizing shift start with
  | done => exact .done start
  | @replace position byte rest output spans starts later induction =>
      obtain ⟨tail, equality⟩ := starts
      rw [← equality, List.drop_left] at induction
      have grown : (start : Int) + (head ++ pattern).length =
          ↑(position + pattern.length) + (shift + head.length) := by
        rw [List.length_append]
        omega
      have restored := replace_append (by simp [heads.nonempty])
        (induction (shift + head.length) (by exact_mod_cast grown))
      rw [landings_cons, ← equality]
      convert restored using 2
      simp only [Span.ofOffsets, Span.mk.injEq]
      omega
  | @copy position byte rest output spans missing later induction =>
      refine .copy ?_ (induction shift (by omega))
      intro stands
      -- Here the pattern would end a replacement that starts in front of the text.
      have occurs : pattern <+: (byte :: output).drop head.length := by
        simpa using stands.drop head.length
      obtain ⟨landing, member, place⟩ :=
        ((Replaces.copy missing later).prefix_drop_output_iff heads shift _).mp occurs
      have bound := later.le_start_of_mem_landings _ _ member
      omega

theorem of_missing {replacement : Bytes} (missing : ¬pattern <:+: text) (position : Nat) :
    Replaces pattern replacement position text text [] := by
  induction text generalizing position with
  | nil => exact .done position
  | cons byte rest induction =>
      rw [List.infix_cons_iff, not_or] at missing
      exact .copy missing.1 (induction missing.2 (position + 1))

end Replaces

namespace Outcome

/-- The code after a transform. -/
def codeFrom (code : Bytes) : Outcome → Bytes
  | .unchanged => code
  | .changed output _ _ => output

/-- The ranges of the code that were replaced. -/
def replaced : Outcome → List Span
  | .unchanged => []
  | .changed _ _ spans => spans

end Outcome

namespace Rule

/-- Changed or not, the code after a transform is what going through the code gives. -/
theorem exists_replaces (rule : Rule) (nonempty : rule.pattern ≠ []) (options : TransformOptions)
    (code : Bytes) :
    ∃ outcome, rule.transform options code = .ok outcome ∧
      Replaces rule.pattern rule.replacement 0 code (outcome.codeFrom code) outcome.replaced := by
  by_cases found : rule.pattern <:+: code
  · obtain ⟨map, transformed⟩ := transform_of_infix rule nonempty options found
    exact ⟨_, transformed, Overlay.replaces_render nonempty rule.replacement code⟩
  · refine ⟨.unchanged, ?_, .of_missing found 0⟩
    rw [transform, (occurrences_eq_nil_iff nonempty code).mpr found]
    rfl

theorem heads_builtin : Heads (utf8 "window.") (utf8 "import(") where
  nonempty := by decide
  fresh := ⟨_, _, rfl, by decide⟩
  apart := by decide
  borderless := by decide

/-- After a transform by the builtin rule every call is one that a replacement ends with, and
there are as many of them as there were before.  Replacing the other way round gives the code
back, whether or not anything was changed. -/
theorem builtin_replaced_and_restored (options : TransformOptions) (code : Bytes) :
    ∃ outcome, builtin.transform options code = .ok outcome ∧
      let output := outcome.codeFrom code
      let landed := landings (utf8 "window.").length 0 outcome.replaced
      (∀ offset : Nat, utf8 "import(" <+: output.drop offset ↔
        ∃ landing ∈ landed, (offset : Int) = landing.start + (utf8 "window.").length) ∧
      (∀ landing ∈ landed, ∃ start : Nat,
        landing = Span.ofOffsets start (start + (utf8 "window.import(").length) ∧
          utf8 "window.import(" <+: output.drop start) ∧
      {offset | utf8 "import(" <+: output.drop offset}.ncard = outcome.replaced.length ∧
      Replaces (utf8 "window.import(") (utf8 "import(") 0 output code landed := by
  obtain ⟨outcome, transformed, replaces⟩ :=
    exists_replaces builtin (by decide) options code
  have joined : utf8 "window.import(" = utf8 "window." ++ utf8 "import(" := by decide
  change Replaces (utf8 "import(") (utf8 "window.import(") 0 code _ _ at replaces
  rw [joined] at replaces ⊢
  refine ⟨outcome, transformed, ?_, ?_, replaces.ncard_occurrences heads_builtin,
    replaces.undo heads_builtin 0 rfl⟩
  · intro offset
    rw [replaces.prefix_drop_output_iff heads_builtin 0]
    simp
  · intro landing member
    obtain ⟨start, first, last, stands⟩ := replaces.exists_offset_of_mem_landings 0 member
    refine ⟨start, ?_, stands⟩
    cases landing
    simp only [Span.ofOffsets, Span.mk.injEq] at first last ⊢
    push_cast
    omega

end Rule

end Reroute

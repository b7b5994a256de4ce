import Mathlib
import Reroute.Proofs.Rule.Keywords

/-!
# The order of candidates

The first occurrences of two keywords in a content tell which of them hits first: the one whose
occurrence ends first, or the longer one where both end together.  Hits are all keywords that
occur, once each and in this order.

The candidates of a list of rules are the rules without keywords, as listed, and behind them the
rules that some hit calls, each where its first keyword calls it.  So they are ordered by those
keywords, and as listed where they share one.
-/

namespace Reroute

/-- What remains when repetitions are left out stands in the order of the first occurrences. -/
theorem pairwise_eraseDups {α : Type} [BEq α] [LawfulBEq α] (items : List α) :
    items.eraseDups.Pairwise fun left right =>
      left ≠ right ∧ ∃ before after, items = before ++ left :: after ∧
        left ∉ before ∧ right ∉ before := by
  match items with
  | [] => exact List.Pairwise.nil
  | first :: items =>
      have later := pairwise_eraseDups (items.filter fun item => !item == first)
      rw [List.eraseDups_cons]
      apply List.Pairwise.cons
      · intro right member
        rw [List.mem_eraseDups, List.mem_filter] at member
        have different : right ≠ first := by simpa using member.2
        exact ⟨Ne.symm different, [], items, rfl, List.not_mem_nil, List.not_mem_nil⟩
      · apply later.imp_of_mem
        intro left right leftMember rightMember ordered
        rw [List.mem_eraseDups, List.mem_filter] at leftMember rightMember
        obtain ⟨different, before, after, split, leftFresh, rightFresh⟩ := ordered
        obtain ⟨front, back, rfl, rfl, cut⟩ := List.filter_eq_append_iff.mp split
        obtain ⟨skipped, behind, rfl, passed, -, -⟩ := List.filter_eq_cons_iff.mp cut
        -- What the filter drops are repetitions of the first item.
        have fresh {item : α} (other : (!item == first) = true)
            (absent : item ∉ front.filter fun item => !item == first) :
            item ∉ first :: (front ++ skipped) := by
          intro member
          rcases List.mem_cons.mp member with rfl | inside
          · simp at other
          · rcases List.mem_append.mp inside with inFront | inSkipped
            · exact absent (List.mem_filter.mpr ⟨inFront, other⟩)
            · exact passed item inSkipped other
        refine ⟨different, first :: (front ++ skipped), behind, by simp,
          fresh leftMember.2 leftFresh, fresh rightMember.2 rightFresh⟩
termination_by items.length
decreasing_by
  have := List.length_filter_le (fun item => !item == first) items
  simp only [List.length_cons]
  omega

theorem nodup_eraseDups {α : Type} [BEq α] [LawfulBEq α] (items : List α) :
    items.eraseDups.Nodup :=
  (pairwise_eraseDups items).imp And.left

/-- In an ordered list an item stands before everything behind it. -/
theorem rel_of_split {α : Type} {relation : α → α → Prop} {items before after : List α}
    {item other : α} (ordered : items.Pairwise relation)
    (split : items = before ++ item :: after) (behind : other ∈ after) : relation item other := by
  rw [split] at ordered
  exact List.rel_of_pairwise_cons (List.pairwise_append.mp ordered).2.1 behind

/-- An item among groups put together stands in one of them. -/
theorem exists_split_of_flatMap {α β : Type} {group : α → List β} {keys : List α}
    {before after : List β} {item : β} (split : keys.flatMap group = before ++ item :: after) :
    ∃ earlier key later front back, keys = earlier ++ key :: later ∧
      group key = front ++ item :: back ∧ before = earlier.flatMap group ++ front := by
  induction keys generalizing before with
  | nil => simp at split
  | cons key keys induction =>
      have shifted {rest : List β} (whole : before = group key ++ rest)
          (later : keys.flatMap group = rest ++ item :: after) :
          ∃ earlier other later front back, key :: keys = earlier ++ other :: later ∧
            group other = front ++ item :: back ∧ before = earlier.flatMap group ++ front := by
        obtain ⟨earlier, other, following, front, back, rfl, cut, rfl⟩ := induction later
        exact ⟨key :: earlier, other, following, front, back, rfl, cut, by simp [whole]⟩
      rw [List.flatMap_cons] at split
      rcases List.append_eq_append_iff.mp split with
        ⟨rest, whole, later⟩ | ⟨rest, whole, later⟩
      · exact shifted whole later
      · cases rest with
        | nil =>
            have passed : before = group key ++ [] := by
              rw [List.append_nil, whole, List.append_nil]
            exact shifted passed later.symm
        | cons other rest =>
            obtain ⟨rfl, -⟩ := List.cons.inj later
            exact ⟨[], key, keys, before, rest, rfl, whole, rfl⟩

namespace Keyword

/-- The first occurrence of a keyword in a content starts at an offset. -/
structure FirstAt (content keyword : Bytes) (start : Nat) : Prop where
  occurs : keyword <+: content.drop start
  first : ∀ earlier < start, ¬keyword <+: content.drop earlier

/-- Of two keywords that occur in a content, one hits first: the one whose first occurrence ends
first, or the longer one. -/
def Precedes (content left right : Bytes) : Prop :=
  ∃ leftStart rightStart, FirstAt content left leftStart ∧ FirstAt content right rightStart ∧
    (leftStart + left.length < rightStart + right.length ∨
      leftStart + left.length = rightStart + right.length ∧ right.length < left.length)

theorem firstAt_of_findFrom {needle : Bytes} {offset found : Nat} {text : Bytes}
    (search : Bytes.findFrom needle offset text = some found) :
    ∃ start, found = offset + start ∧ FirstAt text needle start := by
  induction text generalizing offset with
  | nil =>
      rw [Bytes.findFrom, Option.ite_none_right_eq_some] at search
      obtain ⟨empty, found⟩ := search
      cases found
      refine ⟨0, rfl, ?_, by simp⟩
      rw [List.isEmpty_iff.mp empty]
      exact List.nil_prefix
  | cons byte rest induction =>
      rw [Bytes.findFrom] at search
      split at search
      · next occurs =>
          cases search
          exact ⟨0, rfl, List.isPrefixOf_iff_prefix.mp occurs, by simp⟩
      · next missing =>
          obtain ⟨start, rfl, occurs, first⟩ := induction search
          refine ⟨start + 1, by omega, occurs, ?_⟩
          intro earlier less
          cases earlier with
          | zero => exact fun here => missing (List.isPrefixOf_iff_prefix.mpr here)
          | succ earlier => exact first earlier (by omega)

theorem firstAt_of_hit? {content keyword : Bytes} {hit : Hit}
    (found : hit? content keyword = some hit) :
    ∃ start, FirstAt content hit.keyword start ∧ hit.stop = start + hit.keyword.length := by
  rw [hit?, Option.ite_none_left_eq_some] at found
  obtain ⟨start, search, rfl⟩ := Option.map_eq_some_iff.mp found.2
  obtain ⟨start, rfl, first⟩ := firstAt_of_findFrom search
  exact ⟨start, first, by simp⟩

/-- Keywords whose first occurrences are the same stretch of the content are the same. -/
theorem eq_of_firstAt {content left right : Bytes} {leftStart rightStart : Nat}
    (leftFirst : FirstAt content left leftStart) (rightFirst : FirstAt content right rightStart)
    (stops : leftStart + left.length = rightStart + right.length)
    (lengths : left.length = right.length) : left = right := by
  have starts : leftStart = rightStart := by omega
  rw [List.prefix_iff_eq_take.mp leftFirst.occurs, List.prefix_iff_eq_take.mp rightFirst.occurs,
    starts, lengths]

theorem Hit.notAfter_iff (left right : Hit) :
    left.notAfter right = true ↔
      left.stop < right.stop ∨
        left.stop = right.stop ∧ right.keyword.length ≤ left.keyword.length := by
  simp [notAfter]

theorem pairwise_sorted_hits (found : List Hit) :
    (found.mergeSort Hit.notAfter).Pairwise fun left right => left.notAfter right = true := by
  apply List.pairwise_mergeSort
  · intro first second third
    simp only [Hit.notAfter_iff]
    omega
  · intro first second
    rw [Bool.or_eq_true]
    simp only [Hit.notAfter_iff]
    omega

theorem nodup_hits (rules : List Rule) (content : Bytes) : (hits rules content).Nodup := by
  have found : (((keywordsOf rules).filterMap (hit? content)).map Hit.keyword).Nodup := by
    rw [List.map_filterMap]
    apply (nodup_eraseDups _).filterMap
    intro left right keyword fromLeft fromRight
    obtain ⟨hit, leftFound, rfl⟩ := Option.map_eq_some_iff.mp fromLeft
    obtain ⟨other, rightFound, same⟩ := Option.map_eq_some_iff.mp fromRight
    rw [← keyword_of_hit? leftFound, ← keyword_of_hit? rightFound, same]
  exact ((List.mergeSort_perm _ _).map Hit.keyword).nodup_iff.mpr found

/-- Hits are listed in the order in which they hit. -/
theorem pairwise_hits (rules : List Rule) (content : Bytes) :
    (hits rules content).Pairwise (Precedes content) := by
  have distinct := nodup_hits rules content
  rw [hits, occurring, List.nodup_iff_pairwise_ne, List.pairwise_map] at distinct
  rw [hits, occurring, List.pairwise_map]
  apply (distinct.and (pairwise_sorted_hits _)).imp_of_mem
  rintro left right leftMember rightMember ⟨different, ordered⟩
  rw [List.mem_mergeSort, List.mem_filterMap] at leftMember rightMember
  obtain ⟨_, -, leftFound⟩ := leftMember
  obtain ⟨_, -, rightFound⟩ := rightMember
  obtain ⟨leftStart, leftFirst, leftStop⟩ := firstAt_of_hit? leftFound
  obtain ⟨rightStart, rightFirst, rightStop⟩ := firstAt_of_hit? rightFound
  refine ⟨leftStart, rightStart, leftFirst, rightFirst, ?_⟩
  have apart (stops : leftStart + left.keyword.length = rightStart + right.keyword.length) :
      left.keyword.length ≠ right.keyword.length :=
    fun lengths => different (eq_of_firstAt leftFirst rightFirst stops lengths)
  rw [Hit.notAfter_iff, leftStop, rightStop] at ordered
  omega

theorem pairwise_positions (rules : List Rule) (select : Rule → Bool) :
    (positions rules select).Pairwise (· < ·) := by
  have listed : (rules.zipIdx.map Prod.snd).Pairwise (· < ·) := by
    rw [List.zipIdx_map_snd]
    exact List.pairwise_lt_range' 1
  exact listed.sublist (List.filter_sublist.map Prod.snd)

/-- A keyword of a rule that hits before all its others that hit. -/
structure Leads (content : Bytes) (rule : Rule) (keyword : Bytes) : Prop where
  own : keyword ∈ rule.keywords
  hits : Hits content keyword
  first : ∀ other ∈ rule.keywords, Hits content other →
    other = keyword ∨ Precedes content keyword other

/-- Of two rules, the one with the leading keyword that hits first is called first; where they
share it, the one listed first. -/
def CalledBefore (rules : List Rule) (content : Bytes) (left right : Nat) : Prop :=
  ∃ leftRule rightRule leftKeyword rightKeyword,
    rules[left]? = some leftRule ∧ rules[right]? = some rightRule ∧
    Leads content leftRule leftKeyword ∧ Leads content rightRule rightKeyword ∧
    (Precedes content leftKeyword rightKeyword ∨ leftKeyword = rightKeyword ∧ left < right)

theorem leads_of_split {rules : List Rule} {content : Bytes} {before after : List Bytes}
    {keyword : Bytes} (split : hits rules content = before ++ keyword :: after) {rule : Rule}
    (listed : rule ∈ rules) (own : keyword ∈ rule.keywords)
    (passed : ∀ earlier ∈ before, earlier ∉ rule.keywords) : Leads content rule keyword := by
  have hit : keyword ∈ hits rules content := by simp [split]
  refine ⟨own, ((mem_hits_iff _ _ _).mp hit).2, ?_⟩
  intro other otherOwn otherHits
  have otherHit : other ∈ hits rules content :=
    (mem_hits_iff _ _ _).mpr ⟨⟨rule, listed, otherOwn⟩, otherHits⟩
  rw [split, List.mem_append, List.mem_cons] at otherHit
  rcases otherHit with earlier | same | later
  · exact absurd otherOwn (passed other earlier)
  · exact .inl same
  · exact .inr (rel_of_split (pairwise_hits rules content) split later)

theorem not_mem_keywords {rules : List Rule} {keyword : Bytes} {position : Nat} {rule : Rule}
    (placed : rules[position]? = some rule) (uncalled : position ∉ callees rules keyword) :
    keyword ∉ rule.keywords :=
  fun own => uncalled (mem_callees_iff.mpr ⟨rule, placed, own⟩)

theorem not_mem_callees_of_fresh {rules : List Rule} {earlier : List Bytes} {front : List Nat}
    {position : Nat} (fresh : position ∉ earlier.flatMap (callees rules) ++ front) :
    ∀ keyword ∈ earlier, position ∉ callees rules keyword := by
  intro keyword member inside
  exact fresh (List.mem_append_left front (List.mem_flatMap.mpr ⟨keyword, member, inside⟩))

/-- A rule is called first by its leading keyword. -/
theorem exists_leads_of_split {rules : List Rule} {content : Bytes} {position : Nat}
    {before after : List Nat}
    (split : called rules content = before ++ position :: after)
    (fresh : position ∉ before) :
    ∃ rule earlier keyword later front back, rules[position]? = some rule ∧
      Leads content rule keyword ∧ hits rules content = earlier ++ keyword :: later ∧
      callees rules keyword = front ++ position :: back ∧
      before = earlier.flatMap (callees rules) ++ front := by
  obtain ⟨earlier, keyword, later, front, back, hitsSplit, cut, rfl⟩ :=
    exists_split_of_flatMap split
  have called : position ∈ callees rules keyword := by simp [cut]
  obtain ⟨rule, placed, own⟩ := mem_callees_iff.mp called
  refine ⟨rule, earlier, keyword, later, front, back, placed, ?_, hitsSplit, cut, rfl⟩
  apply leads_of_split hitsSplit (List.mem_of_getElem? placed) own
  intro other member
  exact not_mem_keywords placed (not_mem_callees_of_fresh fresh other member)

/-- Rules are called in the order of their leading keywords. -/
theorem pairwise_called (rules : List Rule) (content : Bytes) :
    (called rules content).eraseDups.Pairwise (CalledBefore rules content) := by
  apply (pairwise_eraseDups _).imp_of_mem
  rintro left right - rightMember ⟨different, before, after, split, leftFresh, rightFresh⟩
  rw [List.mem_eraseDups] at rightMember
  obtain ⟨front, back, rightSplit, rightFirst⟩ := List.eq_append_cons_of_mem rightMember
  obtain ⟨leftRule, earlier, keyword, later, skipped, behind, leftPlaced, leftLeads, hitsSplit,
    cut, rfl⟩ := exists_leads_of_split split leftFresh
  obtain ⟨rightRule, -, rightKeyword, -, -, -, rightPlaced, rightLeads, -⟩ :=
    exists_leads_of_split rightSplit rightFirst
  have rightCalled : right ∈ callees rules rightKeyword :=
    mem_callees_iff.mpr ⟨rightRule, rightPlaced, rightLeads.own⟩
  have rightHit : rightKeyword ∈ hits rules content :=
    (mem_hits_iff _ _ _).mpr
      ⟨⟨rightRule, List.mem_of_getElem? rightPlaced, rightLeads.own⟩, rightLeads.hits⟩
  refine ⟨leftRule, rightRule, keyword, rightKeyword, leftPlaced, rightPlaced, leftLeads,
    rightLeads, ?_⟩
  -- No keyword in front of the one that calls the rule on the left calls the other rule.
  rw [hitsSplit, List.mem_append, List.mem_cons] at rightHit
  rcases rightHit with sooner | rfl | further
  · exact absurd rightCalled (not_mem_callees_of_fresh rightFresh rightKeyword sooner)
  · right
    have sorted : (callees rules rightKeyword).Pairwise (· < ·) := pairwise_positions rules _
    refine ⟨rfl, rel_of_split sorted cut ?_⟩
    rw [cut] at rightCalled
    rcases List.mem_append.mp rightCalled with inSkipped | inRest
    · exact absurd (List.mem_append_right _ inSkipped) rightFresh
    · exact List.mem_of_ne_of_mem (Ne.symm different) inRest
  · exact .inl (rel_of_split (pairwise_hits rules content) hitsSplit further)

theorem FirstAt.unique {content keyword : Bytes} {left right : Nat}
    (leftFirst : FirstAt content keyword left) (rightFirst : FirstAt content keyword right) :
    left = right := by
  rcases Nat.lt_trichotomy left right with less | same | more
  · exact absurd leftFirst.occurs (rightFirst.first left less)
  · exact same
  · exact absurd rightFirst.occurs (leftFirst.first right more)

theorem Precedes.asymm {content left right : Bytes} (before : Precedes content left right) :
    ¬Precedes content right left := by
  rintro ⟨otherRight, otherLeft, otherRightFirst, otherLeftFirst, after⟩
  obtain ⟨leftStart, rightStart, leftFirst, rightFirst, ordered⟩ := before
  have left := leftFirst.unique otherLeftFirst
  have right := rightFirst.unique otherRightFirst
  omega

/-- What a search for the keywords of some rules reports: each keyword that occurs in the content
once, in the order in which they hit. -/
structure Reports (rules : List Rule) (content : Bytes) (reported : List Bytes) : Prop where
  mem_iff : ∀ keyword, keyword ∈ reported ↔
    (∃ rule ∈ rules, keyword ∈ rule.keywords) ∧ Hits content keyword
  nodup : reported.Nodup
  ordered : reported.Pairwise (Precedes content)

theorem reports_iff {rules : List Rule} {content : Bytes} {reported : List Bytes} :
    Reports rules content reported ↔ reported = hits rules content := by
  constructor
  · intro reports
    have same : reported.Perm (hits rules content) := by
      rw [List.perm_ext_iff_of_nodup reports.nodup (nodup_hits rules content)]
      intro keyword
      rw [reports.mem_iff, mem_hits_iff]
    apply same.eq_of_pairwise _ reports.ordered (pairwise_hits rules content)
    intro left right _ _ before after
    exact absurd after before.asymm
  · rintro rfl
    exact ⟨mem_hits_iff rules content, nodup_hits rules content, pairwise_hits rules content⟩

theorem mayMatchBy_iff {matcher : Matcher} {rules : List Rule} {content : Bytes}
    {found : List Nat} (gathered : candidatesBy matcher rules content = found) {position : Nat} :
    mayMatchBy matcher rules content position = true ↔ position ∈ found := by
  rw [mayMatchBy, gathered, List.contains_iff_mem]

/-- The candidates are the rules without keywords, as listed, and behind them the rules that hits
call, in the order in which they are called.  Any search that reports the hits finds them. -/
theorem candidates_exact (rules : List Rule) (content : Bytes) :
    ∃ always triggered, candidates rules content = always ++ triggered ∧
      (always ++ triggered).Nodup ∧
      (∀ position, position ∈ always ↔
        ∃ rule, rules[position]? = some rule ∧ rule.keywords = []) ∧
      always.Pairwise (· < ·) ∧
      (∀ position, position ∈ triggered ↔ ∃ rule, rules[position]? = some rule ∧
        ∃ keyword ∈ rule.keywords, Hits content keyword) ∧
      triggered.Pairwise (CalledBefore rules content) ∧
      (∀ position, mayMatch rules content position = true ↔ position ∈ always ++ triggered) ∧
      (∀ reported, Reports rules content reported ↔ reported = hits rules content) ∧
      ∀ (matcher : Matcher) reported, Reports rules content reported →
        Numbers rules (matcher (keywordsOf rules) content) reported →
        candidatesBy matcher rules content = always ++ triggered ∧
          ∀ position, mayMatchBy matcher rules content position = true ↔
            position ∈ always ++ triggered := by
  have memCalled (position : Nat) : position ∈ (called rules content).eraseDups ↔
      ∃ rule, rules[position]? = some rule ∧
        ∃ keyword ∈ rule.keywords, Hits content keyword :=
    List.mem_eraseDups.trans mem_called_iff
  have sorted : (free rules).Pairwise (· < ·) := pairwise_positions rules _
  refine ⟨free rules, (called rules content).eraseDups, candidates_eq rules content, ?_,
    fun _ => mem_free_iff, sorted, memCalled, pairwise_called rules content,
    fun _ => mayMatchBy_iff (candidates_eq rules content), fun _ => reports_iff, ?_⟩
  · apply List.nodup_append'.mpr
    refine ⟨sorted.imp Nat.ne_of_lt, nodup_eraseDups _, ?_⟩
    intro position isFree isCalled
    obtain ⟨rule, placed, none⟩ := mem_free_iff.mp isFree
    obtain ⟨other, otherPlaced, keyword, own, -⟩ := (memCalled position).mp isCalled
    obtain rfl : rule = other := Option.some.inj (placed.symm.trans otherPlaced)
    rw [none] at own
    exact List.not_mem_nil own
  · intro matcher reported reports numbered
    obtain rfl := reports_iff.mp reports
    have found := candidatesBy_eq numbered
    exact ⟨found, fun _ => mayMatchBy_iff found⟩

/-- A rule of which nothing is known but its keywords. -/
def keyworded (keywords : List Bytes) : Rule :=
  { (default : Rule) with keywords := keywords }

/-- Two keywords end together, and one rule lists the longer one twice and the other one too. -/
theorem candidates_exact_nested :
    let rules := [keyworded [utf8 "ab", utf8 "b", utf8 "ab"], keyworded [],
      keyworded [utf8 "b", []], keyworded [utf8 "zz"]]
    let matcher : Matcher := fun _ _ => [0, 1]
    candidatesBy matcher rules (utf8 "xab") = [1, 0, 2] ∧
      mayMatchBy matcher rules (utf8 "xab") 2 = true ∧
      mayMatchBy matcher rules (utf8 "xab") 3 = false := by
  intro rules matcher
  obtain ⟨always, triggered, same, -, -, -, -, -, -, -, searched⟩ :=
    candidates_exact rules (utf8 "xab")
  have hit : hits rules (utf8 "xab") = [utf8 "ab", utf8 "b"] := by
    rw [hits, occurring, List.mergeSort_of_pairwise (by decide +kernel)]
    decide +kernel
  have reports : Reports rules (utf8 "xab") [utf8 "ab", utf8 "b"] := reports_iff.mpr hit.symm
  have numbered : Numbers rules (matcher (keywordsOf rules) (utf8 "xab"))
      [utf8 "ab", utf8 "b"] :=
    .cons (by decide +kernel) (.cons (by decide +kernel) .nil)
  obtain ⟨found, taken⟩ := searched matcher _ reports numbered
  have listed : always ++ triggered = [1, 0, 2] := by
    rw [← same, candidates_eq, called, hit]
    decide +kernel
  rw [listed] at found taken
  refine ⟨found, (taken 2).mpr (by decide), ?_⟩
  rw [Bool.eq_false_iff, Ne, taken]
  decide

end Keyword

end Reroute

import Mathlib
import Reroute.Proofs.Overlay.Cutting
import Reroute.Rule.Document
import Reroute.Rule.Keyword

/-!
# What keywords announce

A keyword hits exactly if it occurs in a content, and a rule is a candidate exactly if it
has no keywords or one of them hits.  The keywords of a rule announce its pattern if one of
them is part of it: wherever the pattern occurs, that keyword hits.
-/

namespace Reroute

namespace Bytes

theorem isSome_findFrom_iff (needle : Bytes) (offset : Nat) (text : Bytes) :
    (findFrom needle offset text).isSome = true ↔ needle <:+: text := by
  induction text generalizing offset with
  | nil =>
      rw [findFrom, List.infix_nil, ← List.isEmpty_iff]
      cases needle.isEmpty <;> simp
  | cons byte rest induction =>
      rw [findFrom, List.infix_cons_iff, ← List.isPrefixOf_iff_prefix, ← induction (offset + 1)]
      cases needle.isPrefixOf (byte :: rest) <;> simp

theorem contains_iff (needle text : Bytes) : contains needle text = true ↔ needle <:+: text :=
  isSome_findFrom_iff needle 0 text

end Bytes

theorem occurrences_eq_nil {pattern text : Bytes} (missing : ¬pattern <:+: text) :
    occurrences pattern text = [] := by
  have nonempty : pattern ≠ [] := by
    rintro rfl
    exact missing (List.nil_infix)
  have cut := cut_occurrences nonempty text
  cases spans : occurrences pattern text with
  | nil => rfl
  | cons span spans =>
      rw [spans] at cut
      cases cut with
      | @occurrence _ tail _ kept _ =>
          exact absurd ⟨kept, tail, List.append_assoc kept pattern tail⟩ missing

namespace Keyword

/-- A keyword hits a content. -/
def Hits (content keyword : Bytes) : Prop :=
  keyword ≠ [] ∧ keyword <:+: content

theorem exists_hit?_iff (content keyword : Bytes) :
    (∃ hit, hit? content keyword = some hit ∧ hit.keyword = keyword) ↔
      Hits content keyword := by
  rw [Hits, ← Bytes.contains_iff, Bytes.contains, hit?]
  cases keyword with
  | nil => simp
  | cons byte keyword => simp [Option.isSome_iff_exists]

theorem keyword_of_hit? {content keyword : Bytes} {hit : Hit}
    (found : hit? content keyword = some hit) : hit.keyword = keyword := by
  rw [hit?] at found
  split at found
  · cases found
  · obtain ⟨start, -, rfl⟩ := Option.map_eq_some_iff.mp found
    rfl

/-- The distinct keywords of rules, in the order they are first listed. -/
def keywordsOf (rules : List Rule) : List Bytes :=
  (rules.flatMap Rule.keywords).eraseDups

/-- The keywords of rules that occur in a content, in hit order. -/
def hits (rules : List Rule) (content : Bytes) : List Bytes :=
  occurring (keywordsOf rules) content

theorem mem_hits_iff (rules : List Rule) (content keyword : Bytes) :
    keyword ∈ hits rules content ↔
      (∃ rule ∈ rules, keyword ∈ rule.keywords) ∧ Hits content keyword := by
  rw [hits, occurring, List.mem_map, ← exists_hit?_iff]
  constructor
  · rintro ⟨hit, member, rfl⟩
    rw [List.mem_mergeSort, List.mem_filterMap] at member
    obtain ⟨keyword, listed, found⟩ := member
    rw [keyword_of_hit? found]
    rw [keywordsOf, List.mem_eraseDups, List.mem_flatMap] at listed
    exact ⟨listed, hit, found, keyword_of_hit? found⟩
  · rintro ⟨listed, hit, found, same⟩
    refine ⟨hit, ?_, same⟩
    rw [List.mem_mergeSort, List.mem_filterMap]
    refine ⟨keyword, ?_, found⟩
    rw [keywordsOf, List.mem_eraseDups, List.mem_flatMap]
    exact listed

/-- The positions of the rules that a predicate selects. -/
def positions (rules : List Rule) (select : Rule → Bool) : List Nat :=
  (rules.zipIdx.filter fun (rule, _) => select rule).map Prod.snd

theorem mem_positions_iff (rules : List Rule) (select : Rule → Bool) (position : Nat) :
    position ∈ positions rules select ↔
      ∃ rule, rules[position]? = some rule ∧ select rule = true := by
  rw [positions, List.mem_map]
  constructor
  · rintro ⟨⟨rule, found⟩, member, rfl⟩
    obtain ⟨placed, selected⟩ := List.mem_filter.mp member
    exact ⟨rule, List.mem_zipIdx_iff_getElem?.mp placed, selected⟩
  · rintro ⟨rule, placed, selected⟩
    refine ⟨(rule, position), List.mem_filter.mpr ⟨?_, selected⟩, rfl⟩
    exact List.mem_zipIdx_iff_getElem?.mpr placed

/-- The rules that a keyword calls. -/
def callees (rules : List Rule) (keyword : Bytes) : List Nat :=
  positions rules fun rule => rule.keywords.contains keyword

theorem mem_callees_iff {rules : List Rule} {keyword : Bytes} {position : Nat} :
    position ∈ callees rules keyword ↔
      ∃ rule, rules[position]? = some rule ∧ keyword ∈ rule.keywords := by
  simp [callees, mem_positions_iff]

/-- The rules without keywords. -/
def free (rules : List Rule) : List Nat :=
  positions rules fun rule => rule.keywords.isEmpty

theorem mem_free_iff {rules : List Rule} {position : Nat} :
    position ∈ free rules ↔ ∃ rule, rules[position]? = some rule ∧ rule.keywords = [] := by
  simp [free, mem_positions_iff]

/-- The rules that hits call. -/
def called (rules : List Rule) (content : Bytes) : List Nat :=
  (hits rules content).flatMap (callees rules)

theorem mem_called_iff {rules : List Rule} {content : Bytes} {position : Nat} :
    position ∈ called rules content ↔ ∃ rule, rules[position]? = some rule ∧
      ∃ keyword ∈ rule.keywords, Hits content keyword := by
  rw [called, List.mem_flatMap]
  constructor
  · rintro ⟨keyword, hit, called⟩
    obtain ⟨rule, placed, own⟩ := mem_callees_iff.mp called
    exact ⟨rule, placed, keyword, own, ((mem_hits_iff _ _ _).mp hit).2⟩
  · rintro ⟨rule, placed, keyword, own, hits⟩
    refine ⟨keyword, (mem_hits_iff _ _ _).mpr ⟨⟨rule, ?_, own⟩, hits⟩, ?_⟩
    · exact List.mem_of_getElem? placed
    · exact mem_callees_iff.mpr ⟨rule, placed, own⟩

/-! ### The table of keywords -/

section

variable {α : Type} [BEq α] [LawfulBEq α]

theorem foldl_addOnce (items listed : List α) :
    items.foldl addOnce listed =
      listed ++ (items.filter fun item => !listed.contains item).eraseDups := by
  induction items generalizing listed with
  | nil => simp
  | cons item items induction =>
      rw [List.foldl_cons, induction, addOnce]
      cases found : listed.contains item with
      | true => rw [if_pos rfl, List.filter_cons_of_neg (by rw [found]; decide)]
      | false =>
          have others : (items.filter fun other => !(listed ++ [item]).contains other) =
              (items.filter fun other => !listed.contains other).filter fun other =>
                !other == item := by
            rw [List.filter_filter]
            refine List.filter_congr fun other _ => ?_
            rw [List.contains_append, Bool.not_or, Bool.and_comm, List.contains_cons,
              List.contains_nil, Bool.or_false]
          rw [if_neg Bool.false_ne_true, List.filter_cons_of_pos (by rw [found]; rfl),
            List.eraseDups_cons, others, List.append_assoc, List.singleton_append]

/-- Adding an item again and again adds it once. -/
theorem foldl_addOnce_replicate (times : Nat) (item : α) (listed : List α) :
    (List.replicate times item).foldl addOnce listed =
      if times = 0 then listed else addOnce listed item := by
  have again : addOnce (addOnce listed item) item = addOnce listed item := by
    simp only [addOnce]
    split <;> simp_all
  induction times with
  | zero => rfl
  | succ times induction =>
      rw [List.replicate_succ', List.foldl_append, induction]
      split
      · rfl
      · exact again

end

namespace Table

variable (table : Table) (position : Nat) (keyword : Bytes) (keywords : List Bytes)
  (placed : List (Rule × Nat))

theorem keywords_foldl_link :
    (keywords.foldl (link position) table).keywords =
      keywords.foldl addOnce table.keywords := by
  induction keywords generalizing table with
  | nil => rfl
  | cons keyword keywords induction => exact induction (table.link position keyword)

theorem always_foldl_link :
    (keywords.foldl (link position) table).always = table.always := by
  induction keywords generalizing table with
  | nil => rfl
  | cons keyword keywords induction => exact induction (table.link position keyword)

theorem rulesOf_foldl_link :
    (keywords.foldl (link position) table).rulesOf keyword =
      table.rulesOf keyword ++ List.replicate (keywords.count keyword) position := by
  induction keywords generalizing table with
  | nil => simp
  | cons first keywords induction =>
      rw [List.foldl_cons, induction, link, List.count_cons]
      by_cases same : keyword = first
      · simp [same, List.replicate_succ]
      · simp [same, Ne.symm same]

theorem keywords_add (rule : Rule) :
    (table.add (rule, position)).keywords = rule.keywords.foldl addOnce table.keywords := by
  rw [add]
  split
  · next none => rw [List.isEmpty_iff.mp none, List.foldl_nil]
  · exact table.keywords_foldl_link position rule.keywords

theorem rulesOf_add (rule : Rule) :
    (table.add (rule, position)).rulesOf keyword =
      table.rulesOf keyword ++ List.replicate (rule.keywords.count keyword) position := by
  rw [add]
  split
  · next none => simp [List.isEmpty_iff.mp none]
  · exact table.rulesOf_foldl_link position keyword rule.keywords

theorem always_add (rule : Rule) :
    (table.add (rule, position)).always =
      table.always ++ if rule.keywords.isEmpty then [position] else [] := by
  rw [add]
  split
  · rfl
  · rw [table.always_foldl_link, List.append_nil]

theorem keywords_foldl_add :
    (placed.foldl add table).keywords =
      (placed.flatMap fun entry => entry.1.keywords).foldl addOnce table.keywords := by
  induction placed generalizing table with
  | nil => rfl
  | cons entry placed induction =>
      rw [List.foldl_cons, induction, keywords_add, List.flatMap_cons, List.foldl_append]

theorem rulesOf_foldl_add :
    (placed.foldl add table).rulesOf keyword =
      table.rulesOf keyword ++ placed.flatMap fun entry =>
        List.replicate (entry.1.keywords.count keyword) entry.2 := by
  induction placed generalizing table with
  | nil => simp
  | cons entry placed induction =>
      rw [List.foldl_cons, induction, rulesOf_add, List.flatMap_cons, List.append_assoc]

theorem always_foldl_add :
    (placed.foldl add table).always =
      table.always ++ (placed.filter fun entry => entry.1.keywords.isEmpty).map Prod.snd := by
  induction placed generalizing table with
  | nil => simp
  | cons entry placed induction =>
      rw [List.foldl_cons, induction, always_add, List.filter_cons]
      split <;> simp

end Table

variable {rules : List Rule}

theorem keywords_ofRules (rules : List Rule) :
    (Table.ofRules rules).keywords = keywordsOf rules := by
  have listed : (rules.zipIdx.flatMap fun entry => entry.1.keywords) =
      rules.flatMap Rule.keywords := by
    conv_rhs => rw [← List.zipIdx_map_fst 0 rules, List.flatMap_map]
  rw [Table.ofRules, Table.keywords_foldl_add, foldl_addOnce, listed, keywordsOf]
  simp [Table.empty]

theorem always_ofRules (rules : List Rule) : (Table.ofRules rules).always = free rules := by
  rw [Table.ofRules, Table.always_foldl_add]
  rfl

/-- The rules of a keyword are added as if each listed it once. -/
theorem foldl_addOnce_rulesOf (keyword : Bytes) (listed : List Nat) :
    ((Table.ofRules rules).rulesOf keyword).foldl addOnce listed =
      (callees rules keyword).foldl addOnce listed := by
  rw [Table.ofRules, Table.rulesOf_foldl_add, show Table.empty.rulesOf keyword = [] from rfl,
    List.nil_append, List.foldl_flatMap, callees, positions, List.foldl_map, List.foldl_filter]
  simp only [foldl_addOnce_replicate, List.count_eq_zero, List.contains_iff_mem, ite_not]

/-- The numbers are those of keywords of some rules. -/
def Numbers (rules : List Rule) : List Nat → List Bytes → Prop :=
  List.Forall₂ fun number keyword => (keywordsOf rules)[number]? = some keyword

theorem numbers_report (rules : List Rule) (content : Bytes) :
    Numbers rules (report (keywordsOf rules) content) (hits rules content) := by
  rw [Numbers, report, hits, List.forall₂_map_left_iff, List.forall₂_same]
  intro keyword member
  have listed : keyword ∈ keywordsOf rules := by
    rw [keywordsOf, List.mem_eraseDups, List.mem_flatMap]
    exact ((mem_hits_iff rules content keyword).mp member).1
  exact List.getElem?_idxOf listed

theorem foldl_called {numbers : List Nat} {keywords : List Bytes}
    (numbered : Numbers rules numbers keywords) (found : List Nat) :
    numbers.foldl (fun found number => ((Table.ofRules rules).called number).foldl addOnce found)
        found =
      (keywords.flatMap (callees rules)).foldl addOnce found := by
  unfold Numbers at numbered
  induction numbered generalizing found with
  | nil => rfl
  | cons first _ induction =>
      rw [List.foldl_cons, induction, List.flatMap_cons, List.foldl_append, Table.called,
        keywords_ofRules, first, foldl_addOnce_rulesOf]

/-- The rules that keywords call are gathered behind those without keywords. -/
theorem candidatesBy_eq {matcher : Matcher} {content : Bytes} {keywords : List Bytes}
    (numbered : Numbers rules (matcher (keywordsOf rules) content) keywords) :
    candidatesBy matcher rules content =
      free rules ++ (keywords.flatMap (callees rules)).eraseDups := by
  have gathered : candidatesBy matcher rules content =
      (keywords.flatMap (callees rules)).foldl addOnce (free rules) := by
    rw [candidatesBy, keywords_ofRules, always_ofRules]
    split
    · next none =>
        generalize matcher (keywordsOf rules) content = numbers at numbered
        cases numbered with
        | nil => rfl
        | cons first _ => simp [List.isEmpty_iff.mp none] at first
    · exact foldl_called numbered (free rules)
  -- A rule that a keyword calls is none of those without keywords.
  have fresh : ((keywords.flatMap (callees rules)).filter fun position =>
      !(free rules).contains position) = keywords.flatMap (callees rules) := by
    rw [List.filter_eq_self]
    intro position member
    obtain ⟨keyword, -, called⟩ := List.mem_flatMap.mp member
    obtain ⟨rule, placed, own⟩ := mem_callees_iff.mp called
    rw [Bool.not_eq_true', Bool.eq_false_iff, Ne, List.contains_iff_mem, mem_free_iff]
    rintro ⟨other, otherPlaced, none⟩
    obtain rfl : rule = other := Option.some.inj (placed.symm.trans otherPlaced)
    rw [none] at own
    exact List.not_mem_nil own
  rw [gathered, foldl_addOnce, fresh]

theorem candidates_eq (rules : List Rule) (content : Bytes) :
    candidates rules content = free rules ++ (called rules content).eraseDups :=
  candidatesBy_eq (numbers_report rules content)

/-- A rule is a candidate if it has no keywords or one of them hits. -/
theorem mem_candidates_iff (rules : List Rule) (content : Bytes) (position : Nat) :
    position ∈ candidates rules content ↔
      ∃ rule, rules[position]? = some rule ∧
        (rule.keywords = [] ∨ ∃ keyword ∈ rule.keywords, Hits content keyword) := by
  rw [candidates_eq, List.mem_append, List.mem_eraseDups, mem_free_iff, mem_called_iff,
    ← exists_or]
  simp only [and_or_left]

theorem candidates_singleton_eq_nil_iff (rule : Rule) (content : Bytes) :
    candidates [rule] content = [] ↔
      rule.keywords ≠ [] ∧ ∀ keyword ∈ rule.keywords, ¬Hits content keyword := by
  rw [List.eq_nil_iff_forall_not_mem]
  constructor
  · intro none
    have out := none 0
    rw [mem_candidates_iff] at out
    push Not at out
    exact out rule rfl
  · rintro ⟨some, missed⟩ position member
    obtain ⟨found, placed, free | ⟨keyword, own, hit⟩⟩ := (mem_candidates_iff _ _ _).mp member
    · obtain rfl := List.mem_singleton.mp (List.mem_of_getElem? placed)
      exact some free
    · obtain rfl := List.mem_singleton.mp (List.mem_of_getElem? placed)
      exact missed keyword own hit

end Keyword

namespace Rule

/-- The rule has no keywords, or one that is part of its pattern. -/
def Announced (rule : Rule) : Prop :=
  rule.keywords = [] ∨ ∃ keyword ∈ rule.keywords, keyword <:+: rule.pattern

instance (rule : Rule) : Decidable rule.Announced :=
  inferInstanceAs
    (Decidable (rule.keywords = [] ∨ ∃ keyword ∈ rule.keywords, keyword <:+: rule.pattern))

theorem announced_of_keywords {left right : Rule} (keywords : left.keywords = right.keywords)
    (pattern : left.pattern = right.pattern) (announced : left.Announced) :
    right.Announced := by
  unfold Announced at announced ⊢
  rwa [← keywords, ← pattern]

theorem announced_builtin : builtin.Announced := by
  right
  exact ⟨utf8 "import(", List.mem_singleton_self _, List.infix_refl _⟩

/-- A document that names no keywords makes the pattern the only one. -/
theorem announced_finishLoaded {written : Rule} (none : written.keywords = []) :
    written.finishLoaded.Announced := by
  by_cases empty : written.pattern = []
  · left
    simp [finishLoaded, none, empty]
  · right
    refine ⟨written.pattern, ?_, ?_⟩
    · simp [finishLoaded, none, empty]
    · simp [finishLoaded, none, empty]

/-- Where no keyword of an announced rule hits, its pattern does not occur. -/
theorem Announced.occurrences_eq_nil {rule : Rule} (announced : rule.Announced)
    (proper : ∀ keyword ∈ rule.keywords, keyword ≠ []) {content : Bytes}
    (silent : Keyword.candidates [rule] content = []) :
    occurrences rule.pattern content = [] := by
  obtain ⟨some, missed⟩ := (Keyword.candidates_singleton_eq_nil_iff rule content).mp silent
  apply Reroute.occurrences_eq_nil
  intro occurs
  rcases announced with free | ⟨keyword, own, part⟩
  · exact some free
  · exact missed keyword own ⟨proper keyword own, part.trans occurs⟩

end Rule

end Reroute

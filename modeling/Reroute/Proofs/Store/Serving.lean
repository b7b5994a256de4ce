import Mathlib
import Reroute.Proofs.Store.Records

/-!
# Stores that serve every use

A store in memory and a file store that is open for everything answer every look-up and
carry out every change, unless a fault is to come.  Of what they hold, this module keeps the
outcomes in view: whether a chunk was changed under a key, and its code.  Both kinds of
store then answer alike.
-/

namespace Reroute

/-- The outcomes of a store, by chunk and key. -/
abbrev Outcomes := ChunkId → Bytes → Option (Bool × Bytes)

/-- The outcomes after a change. -/
def Outcomes.write (outcomes : Outcomes) : Write → Outcomes
  | .result result => fun id key =>
      if result.chunk = id ∧ result.key = key then some (result.changed, result.code)
      else outcomes id key
  | _ => outcomes

namespace Store

/-- No fault is to come, and a file is open for everything. -/
inductive Serves : Store → Prop where
  | memory (records : MemoryStore) : Serves ⟨.memory records, none⟩
  | file (tables : Tables) : Serves ⟨.file tables .everything, none⟩

def outcomes (store : Store) : Outcomes := fun id key =>
  let stored :=
    match store.backend with
    | .memory records => records.result? id key
    | .file tables _ => tables.result? id key
  stored.map fun result => (result.changed, result.code)

namespace Serves

variable {store : Store}

theorem getResult (serves : store.Serves) (id : ChunkId) (key : Bytes) :
    (store.getResult id key = (.error .notFound, store) ∧ store.outcomes id key = none) ∨
      ∃ stored, store.getResult id key = (.ok stored, store) ∧
        store.outcomes id key = some (stored.changed, stored.code) := by
  cases serves with
  | memory records =>
      simp only [Store.getResult, strike, ask, outcomes]
      cases records.result? id key with
      | none => exact .inl ⟨rfl, rfl⟩
      | some stored => exact .inr ⟨stored, rfl, rfl⟩
  | file tables =>
      simp only [Store.getResult, strike, ask, outcomes]
      cases tables.result? id key with
      | none => exact .inl ⟨rfl, rfl⟩
      | some stored => exact .inr ⟨stored, rfl, rfl⟩

theorem getSubstitutions (serves : store.Serves) (id : ChunkId) :
    ∃ records, store.getSubstitutions id = (.ok records, store) := by
  cases serves with
  | memory records => exact ⟨_, rfl⟩
  | file tables => exact ⟨_, rfl⟩

theorem write (serves : store.Serves) (change : Write) :
    ∃ after, store.write change = (.ok (), after) ∧ after.Serves ∧
      after.outcomes = store.outcomes.write change := by
  cases serves with
  | memory records =>
      refine ⟨_, rfl, .memory _, ?_⟩
      cases change with
      | chunk id size provenance => rfl
      | substitution record => rfl
      | result result =>
          funext id key
          simp only [outcomes, Outcomes.write, MemoryStore.result?_write_result]
          by_cases here : result.chunk = id ∧ result.key = key
          · simp only [if_pos here, Option.map_some]
          · simp only [if_neg here]
  | file tables =>
      refine ⟨_, rfl, .file _, ?_⟩
      cases change with
      | chunk id size provenance => rfl
      | substitution record => rfl
      | result result =>
          funext id key
          simp only [outcomes, Outcomes.write, Tables.write, Tables.result?,
            findResult?_replaceResult, StoredResult.withoutEmptyMap]
          by_cases here : result.chunk = id ∧ result.key = key
          · simp only [if_pos here, Option.map_some]
          · simp only [if_neg here]

end Serves

/-- The store serves and holds no outcomes yet. -/
structure Fresh (store : Store) : Prop where
  serves : store.Serves
  empty : ∀ id key, store.outcomes id key = none

theorem fresh_memory : Fresh .memory :=
  ⟨.memory .empty, fun _ _ => rfl⟩

end Store

end Reroute

import Reroute.Pipeline.Basic

/-!
# Batch results

The totals of a batch, and results as JSON values.
-/

namespace Reroute

namespace Batch

/-- How many chunks were changed. -/
def changed (results : List ChunkResult) : Nat :=
  results.countP fun result => result.changed

/-- How many chunks stayed as they were. -/
def unchanged (results : List ChunkResult) : Nat :=
  results.countP fun result => !result.changed

/-- How many results were taken from the store. -/
def cached (results : List ChunkResult) : Nat :=
  results.countP fun result => result.cached

/-- How many occurrences were replaced. -/
def substitutions (results : List ChunkResult) : Nat :=
  (results.flatMap fun result => result.substitutions).length

end Batch

/-- A result as a JSON value, without code and map. -/
def ChunkResult.value (result : ChunkResult) : Json.Value :=
  .object
    ([(utf8 "path", .string result.path), (utf8 "id", .string result.id.hex),
      (utf8 "changed", .bool result.changed), (utf8 "cached", .bool result.cached)]
      ++ if result.substitutions.isEmpty then []
        else [(utf8 "rewrites", .array (result.substitutions.map Substitution.value))])

/-- The results of a batch as a JSON value. -/
def Batch.value (results : List ChunkResult) : Json.Value :=
  .object
    [(utf8 "results", .array (results.map ChunkResult.value)),
      (utf8 "rewritten", Json.Value.integer (Batch.changed results)),
      (utf8 "unchanged", Json.Value.integer (Batch.unchanged results)),
      (utf8 "cached", Json.Value.integer (Batch.cached results)),
      (utf8 "rewrites", Json.Value.integer (Batch.substitutions results))]

end Reroute

import Mathlib
import Reroute.Hook.Server
import Reroute.Pipeline.Report
import Reroute.Proofs.Pipeline.Recognition

/-!
# A batch and its chunks

Chunks can be sent one by one or as a batch.  Both ways hand the same chunks to the pipeline in
the same order, each on the store that the one before it left, and so a batch is answered with
the answers to its chunks.
-/

namespace Reroute.Hook

/-- A request to transform the chunk that a text describes. -/
def chunkRequest (text : Bytes) : Request :=
  ⟨utf8 "render_chunk", text⟩

def batchRequest (text : Bytes) : Request :=
  ⟨utf8 "render_batch", text⟩

namespace Server

/-- The replies to requests that are carried out one after the other. -/
def replies : Server → List Request → List Reply
  | _, [] => []
  | server, request :: requests =>
      (server.handle request).1 :: (server.handle request).2.replies requests

/-- The server after requests were carried out one after the other. -/
def after (server : Server) (requests : List Request) : Server :=
  requests.foldl (fun server request => (server.handle request).2) server

@[simp] theorem after_nil (server : Server) : server.after [] = server := rfl

@[simp] theorem after_cons (server : Server) (request : Request) (requests : List Request) :
    server.after (request :: requests) = (server.handle request).2.after requests := rfl

@[simp] theorem length_replies (server : Server) (requests : List Request) :
    (server.replies requests).length = requests.length := by
  induction requests generalizing server with
  | nil => rfl
  | cons request requests induction => simp [replies, induction]

theorem handle_chunkRequest (server : Server) (text : Bytes) :
    server.handle (chunkRequest text) =
      match server.renderChunk text with
      | (.ok rendered, after) => (⟨some (.chunk rendered), none⟩, after)
      | (.error failure, after) => (failed (utf8 "render_chunk") failure, after) := by
  unfold handle
  exact if_pos (beq_self_eq_true (utf8 "render_chunk"))

theorem handle_batchRequest (server : Server) (text : Bytes) :
    server.handle (batchRequest text) =
      match server.renderBatch text with
      | (.ok rendered, after) => (⟨some (.batch rendered), none⟩, after)
      | (.error failure, after) => (failed (utf8 "render_batch") failure, after) := by
  have other : ¬(utf8 "render_batch" == utf8 "render_chunk") = true := by decide
  unfold handle
  exact (if_neg other).trans (if_pos (beq_self_eq_true (utf8 "render_batch")))

/-- No failure is answered like a success. -/
theorem failed_ne_chunk (kind : Bytes) (failure : Failure) (rendered : Option Rendered)
    (exit : Option Exit) : failed kind failure ≠ ⟨some (.chunk rendered), exit⟩ := by
  intro same
  unfold failed at same
  split at same
  · cases same
  · cases same
  · cases same
  · cases same

/-- A chunk that is answered was processed, and the store is the one that processing left. -/
theorem process_of_chunk {server : Server} {text : Bytes} {payload : Payload}
    {rendered : Option Rendered} (read : Payload.read? text = some payload)
    (answered : (server.handle (chunkRequest text)).1 = ⟨some (.chunk rendered), none⟩) :
    ∃ chunk result store, payload.chunk = .ok chunk ∧
      server.pipeline.process chunk server.store = (.ok result, store) ∧
      rendered = Rendered.ofResult result ∧
      (server.handle (chunkRequest text)).2 = { server with store } := by
  rw [handle_chunkRequest, renderChunk, read] at answered ⊢
  cases sent : payload.chunk with
  | error error =>
      simp only [sent] at answered
      exact absurd answered (failed_ne_chunk _ _ _ _)
  | ok chunk =>
      simp only [sent] at answered ⊢
      cases processed : server.pipeline.process chunk server.store with
      | mk answer store =>
          rw [processed] at answered
          cases answer with
          | error error => exact absurd answered (failed_ne_chunk _ _ _ _)
          | ok result =>
              cases answered
              exact ⟨chunk, result, store, rfl, processed, rfl, rfl⟩

/-- Chunks that are all answered one by one are processed as one batch with the same results. -/
theorem processBatch_of_replies {server : Server} {texts : List Bytes} {payloads : List Payload}
    {rendered : List (Option Rendered)}
    (read : texts.map Payload.read? = payloads.map some)
    (answered : server.replies (texts.map chunkRequest) =
      rendered.map fun entry => ⟨some (.chunk entry), none⟩) :
    ∃ chunks results, Payload.chunks payloads = .ok chunks ∧
      server.pipeline.processBatch none chunks server.store =
        (.ok results, (server.after (texts.map chunkRequest)).store) ∧
      server.pipeline.answers chunks server.store = chunks.zip (results.map .ok) ∧
      rendered = results.map Rendered.ofResult ∧
      server.after (texts.map chunkRequest) =
        { server with store := (server.after (texts.map chunkRequest)).store } := by
  induction texts generalizing server payloads rendered with
  | nil =>
      obtain rfl : payloads = [] := by simpa using read.symm
      obtain rfl : rendered = [] := by simpa [replies] using answered.symm
      exact ⟨[], [], rfl, rfl, rfl, rfl, rfl⟩
  | cons text texts induction =>
      cases payloads with
      | nil => simp at read
      | cons payload payloads =>
          rw [List.map_cons, List.map_cons, List.cons.injEq] at read
          rw [List.map_cons, replies] at answered
          cases rendered with
          | nil => simp at answered
          | cons entry rendered =>
              rw [List.map_cons, List.cons.injEq] at answered
              obtain ⟨chunk, result, store, sent, processed, rfl, next⟩ :=
                process_of_chunk read.1 answered.1
              rw [next] at answered
              obtain ⟨chunks, results, laterSent, laterProcessed, laterAnswers, rfl, kept⟩ :=
                induction read.2 answered.2
              refine ⟨chunk :: chunks, result :: results, ?_, ?_, ?_, rfl, ?_⟩
              · rw [Payload.chunks, sent, laterSent]
              · rw [Pipeline.processBatch_cons, processed, List.map_cons, after_cons, next]
                simp only [laterProcessed]
              · rw [Pipeline.answers, processed, laterAnswers]
                rfl
              · rw [List.map_cons, after_cons, next, kept]

end Server

end Reroute.Hook

namespace Reroute.Batch

theorem changed_add_unchanged (results : List ChunkResult) :
    changed results + unchanged results = results.length := by
  have total := List.length_eq_countP_add_countP (l := results) (fun result => result.changed)
  simpa [changed, unchanged] using total.symm

theorem substitutions_eq_sum (results : List ChunkResult) :
    substitutions results = (results.map fun result => result.substitutions.length).sum := by
  simp [substitutions, List.length_flatMap]

end Reroute.Batch

namespace Reroute.Hook

/-- A chunk with a call, and one that is its output. -/
def outputTexts : List Bytes :=
  [utf8 "\x7b\"code\":\"import(x)\",\"fileName\":\"a.js\"\x7d",
    utf8 "\x7b\"code\":\"window.import(x)\",\"fileName\":\"b.js\"\x7d"]

def outputMap : Bytes :=
  utf8 "\x7b\"version\":3,\"file\":\"a.js\",\"sources\":[\"a.js\"],\"names\":[],"
    ++ utf8 "\"mappings\":\"AAAA,cAAO,CAAC\"\x7d"

end Reroute.Hook

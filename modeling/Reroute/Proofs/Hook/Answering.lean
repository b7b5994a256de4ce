import Mathlib
import Reroute.Proofs.Hook.Replies
import Reroute.Proofs.Hook.Streams
import Reroute.Proofs.Pipeline.Failing
import Reroute.Proofs.Pipeline.Workers

/-!
# How requests are answered

A request is answered with what the pipeline made of its chunk or of its batch, or with the
failure that kept it from that, and the server goes on.  Or it ends the server: a request to
close does so without a response, and a defect with one.  A transform put in the rule's place can
also break down, and a map can have a difference that is never written to its end.  Nothing is
written then.

Any number of workers may take turns at a batch, so that there can be more than one answer to
it.  With a single worker there is one.
-/

namespace Reroute.Hook

open Pipeline (Gather Gathers GathersBy)

/-- The kinds of requests that are carried out by the pipeline. -/
def renderKinds : List Bytes :=
  [utf8 "render_chunk", utf8 "render_batch"]

/-- The failure does not let the server go on. -/
def Failure.halts : Failure → Bool
  | .pipeline (.defect _ _) => true
  | .pipeline error => error.isBreakdown || error.isEndless
  | _ => false

section

variable (asked : Int) (server : Server) (request : Request)

/-- A request fails, and the server that this leaves: its payload cannot be read, the map of a
chunk cannot be read, or the pipeline fails. -/
inductive Fails : Failure → Server → Prop where
  | chunkPayload :
      request.kind = utf8 "render_chunk" → Payload.read? request.payload = none →
      Fails .payload server
  | chunkMap {payload : Payload} {error : Payload.MapError} :
      request.kind = utf8 "render_chunk" → Payload.read? request.payload = some payload →
      payload.chunk = .error error → Fails (.map error) server
  | chunk {payload : Payload} {chunk : Chunk} {error : Pipeline.Error} {store : Store} :
      request.kind = utf8 "render_chunk" → Payload.read? request.payload = some payload →
      payload.chunk = .ok chunk →
      server.pipeline.process chunk server.store = (.error error, store) →
      Fails (.pipeline error) { server with store }
  | batchPayload :
      request.kind = utf8 "render_batch" → Batch.read? request.payload = none →
      Fails .payload server
  | batchMap {payloads : List Payload} {error : Payload.MapError} :
      request.kind = utf8 "render_batch" → Batch.read? request.payload = some payloads →
      Payload.chunks payloads = .error error → Fails (.map error) server
  | batch {payloads : List Payload} {chunks : List Chunk} {error : Pipeline.Error}
      {store : Store} :
      request.kind = utf8 "render_batch" → Batch.read? request.payload = some payloads →
      Payload.chunks payloads = .ok chunks →
      Gathers asked server.pipeline chunks server.store (.error error) store →
      Fails (.pipeline error) { server with store }

/-- A request is answered with a response, and the server that goes on. -/
inductive Responds : Response → Server → Prop where
  | chunk {payload : Payload} {chunk : Chunk} {result : ChunkResult} {store : Store} :
      request.kind = utf8 "render_chunk" → Payload.read? request.payload = some payload →
      payload.chunk = .ok chunk →
      server.pipeline.process chunk server.store = (.ok result, store) →
      Responds (.chunk (Rendered.ofResult result)) { server with store }
  | batch {payloads : List Payload} {chunks : List Chunk} {results : List ChunkResult}
      {store : Store} :
      request.kind = utf8 "render_batch" → Batch.read? request.payload = some payloads →
      Payload.chunks payloads = .ok chunks →
      Gathers asked server.pipeline chunks server.store (.ok results) store →
      Responds (.batch (results.map Rendered.ofResult)) { server with store }
  | failure {failure : Failure} {next : Server} :
      Fails asked server request failure next → failure.halts = false →
      Responds (.failure request.kind failure.message) next
  | unknown :
      request.kind ∉ utf8 "close" :: renderKinds →
      Responds (.failure (utf8 "unknown") (utf8 "unknown request type: " ++ request.kind)) server

/-- A request ends the server: what is still written, how it ends, and what it leaves. -/
inductive Halts : List Response → Exit → Server → Prop where
  | closed : request.kind = utf8 "close" → Halts [] .finished server
  | defect {path : Bytes} {refused : Overlay.Violation} {next : Server} :
      Fails asked server request (.pipeline (.defect path refused)) next →
      Halts [.failure request.kind (Pipeline.Error.defect path refused).message]
        (.stopped (.defect path refused)) next
  | breakdown {message : Bytes} {next : Server} :
      Fails asked server request (.pipeline (.breakdown message)) next →
      server.pipeline.transform ≠ none → Halts [] (.stopped (.breakdown message)) next
  | endless {path : Bytes} {next : Server} :
      Fails asked server request (.pipeline (.composition path .endless)) next →
      Halts [] .endless next

/-- What can come of a request, with so many workers for a batch. -/
def Handles (reply : Reply) (next : Server) : Prop :=
  ∃ gather, GathersBy asked gather ∧ server.handleBy gather request = (reply, next)

end

variable {asked : Int} {server next : Server} {request : Request}

/-- Only a transform that is put in the rule's place breaks down. -/
theorem Fails.transform_ne_none {message : Bytes}
    (broken : Fails asked server request (.pipeline (.breakdown message)) next) :
    server.pipeline.transform ≠ none := by
  intro default
  cases broken with
  | chunk _ _ _ processed =>
      exact Pipeline.process_ne_breakdown default _ _ message (congrArg Prod.fst processed)
  | batch _ _ _ gathers => exact Gathers.ne_breakdown default gathers

theorem failed_eq {failure : Failure} (goes : failure.halts = false) (kind : Bytes) :
    Server.failed kind failure = ⟨some (.failure kind failure.message), none⟩ := by
  unfold Server.failed
  split
  · cases goes
  · cases goes
  · cases goes
  · rfl

/-- A failure is answered, or it ends the server. -/
theorem Fails.cases {failure : Failure} (fails : Fails asked server request failure next) :
    failure.halts = false ∨
    ∃ exit, (Server.failed request.kind failure).exit = some exit ∧
      Halts asked server request (Server.failed request.kind failure).response.toList exit
        next := by
  unfold Server.failed
  split
  · exact .inr ⟨_, rfl, .defect fails⟩
  · exact .inr ⟨_, rfl, .breakdown fails fails.transform_ne_none⟩
  · exact .inr ⟨_, rfl, .endless fails⟩
  · next notDefect notBreakdown notEndless =>
      left
      cases failure with
      | payload => rfl
      | map error => rfl
      | pipeline error =>
          cases error with
          | defect path refused => exact absurd rfl (notDefect path refused)
          | breakdown message => exact absurd rfl (notBreakdown message)
          | composition path error =>
              cases error with
              | endless => exact absurd rfl (notEndless path)
              | _ => rfl
          | _ => rfl

/-- The reply to a failure is a response, or ends the server. -/
theorem Fails.reply_cases {failure : Failure} (fails : Fails asked server request failure next) :
    (∃ response, Server.failed request.kind failure = ⟨some response, none⟩ ∧
      Responds asked server request response next) ∨
    ∃ exit, (Server.failed request.kind failure).exit = some exit ∧
      Halts asked server request (Server.failed request.kind failure).response.toList exit
        next := by
  rcases fails.cases with goes | halts
  · exact .inl ⟨_, failed_eq goes request.kind, .failure fails goes⟩
  · exact .inr halts

theorem renderChunk_cases (asked : Int) (kind : request.kind = utf8 "render_chunk")
    {answer : Except Failure (Option Rendered)}
    (rendered : server.renderChunk request.payload = (answer, next)) :
    (∃ failure, answer = .error failure ∧ Fails asked server request failure next) ∨
      ∃ code, answer = .ok code ∧ Responds asked server request (.chunk code) next := by
  unfold Server.renderChunk at rendered
  cases read : Payload.read? request.payload with
  | none =>
      simp only [read] at rendered
      cases rendered
      exact .inl ⟨_, rfl, .chunkPayload kind read⟩
  | some payload =>
      simp only [read] at rendered
      cases sent : payload.chunk with
      | error error =>
          simp only [sent] at rendered
          cases rendered
          exact .inl ⟨_, rfl, .chunkMap kind read sent⟩
      | ok chunk =>
          simp only [sent] at rendered
          cases processed : server.pipeline.process chunk server.store with
          | mk result store =>
              simp only [processed] at rendered
              cases result with
              | error error =>
                  cases rendered
                  exact .inl ⟨_, rfl, .chunk kind read sent processed⟩
              | ok result =>
                  cases rendered
                  exact .inr ⟨_, rfl, .chunk kind read sent processed⟩

theorem renderBatchBy_cases {gather : Gather} (gathers : GathersBy asked gather)
    (kind : request.kind = utf8 "render_batch") {answer : Except Failure (List (Option Rendered))}
    (rendered : server.renderBatchBy gather request.payload = (answer, next)) :
    (∃ failure, answer = .error failure ∧ Fails asked server request failure next) ∨
      ∃ codes, answer = .ok codes ∧ Responds asked server request (.batch codes) next := by
  unfold Server.renderBatchBy at rendered
  cases read : Batch.read? request.payload with
  | none =>
      simp only [read] at rendered
      cases rendered
      exact .inl ⟨_, rfl, .batchPayload kind read⟩
  | some payloads =>
      simp only [read] at rendered
      cases sent : Payload.chunks payloads with
      | error error =>
          simp only [sent] at rendered
          cases rendered
          exact .inl ⟨_, rfl, .batchMap kind read sent⟩
      | ok chunks =>
          simp only [sent] at rendered
          have gathered := gathers server.pipeline chunks server.store
          cases answered : gather server.pipeline chunks server.store with
          | mk results store =>
              simp only [answered] at gathered rendered
              cases results with
              | error error =>
                  cases rendered
                  exact .inl ⟨_, rfl, .batch kind read sent gathered⟩
              | ok results =>
                  cases rendered
                  exact .inr ⟨_, rfl, .batch kind read sent gathered⟩

/-- What comes of a request is a response, or an end of the server. -/
theorem Handles.cases {reply : Reply} (handles : Handles asked server request reply next) :
    (∃ response, reply = ⟨some response, none⟩ ∧ Responds asked server request response next) ∨
      ∃ exit, reply.exit = some exit ∧
        Halts asked server request reply.response.toList exit next := by
  obtain ⟨gather, gathers, handled⟩ := handles
  unfold Server.handleBy at handled
  split at handled
  · next kind =>
      cases rendered : server.renderChunk request.payload with
      | mk answer after =>
          rw [rendered] at handled
          rcases renderChunk_cases asked (beq_iff_eq.mp kind) rendered with
            ⟨failure, rfl, fails⟩ | ⟨code, rfl, responds⟩
          · cases handled
            exact fails.reply_cases
          · cases handled
            exact .inl ⟨_, rfl, responds⟩
  split at handled
  · next kind =>
      cases rendered : server.renderBatchBy gather request.payload with
      | mk answer after =>
          rw [rendered] at handled
          rcases renderBatchBy_cases gathers (beq_iff_eq.mp kind) rendered with
            ⟨failure, rfl, fails⟩ | ⟨codes, rfl, responds⟩
          · cases handled
            exact fails.reply_cases
          · cases handled
            exact .inl ⟨_, rfl, responds⟩
  split at handled
  · next kind =>
      cases handled
      exact .inr ⟨_, rfl, .closed (beq_iff_eq.mp kind)⟩
  · next notChunk notBatch notClose =>
      rw [beq_iff_eq] at notChunk notBatch notClose
      cases handled
      exact .inl ⟨_, rfl, .unknown (by simp [renderKinds, notChunk, notBatch, notClose])⟩

theorem exists_handles (asked : Int) (server : Server) (request : Request) :
    ∃ reply next, Handles asked server request reply next := by
  obtain ⟨gather, gathers⟩ := Pipeline.exists_gathersBy asked
  exact ⟨_, _, gather, gathers, rfl⟩

/-- With a single worker, a request comes to one thing. -/
theorem Handles.eq_handle {reply : Reply} (lone : Pipeline.Group.capacity asked = 1)
    (handles : Handles asked server request reply next) :
    server.handle request = (reply, next) := by
  obtain ⟨gather, gathers, handled⟩ := handles
  rw [(Pipeline.gathersBy_iff_eq_processBatch lone).mp gathers] at handled
  exact handled

/-! ### One worker -/

section

variable {payload : Payload} {payloads : List Payload}

theorem handle_chunk (kind : request.kind = utf8 "render_chunk") :
    server.handle request =
      match server.renderChunk request.payload with
      | (.ok rendered, after) => (⟨some (.chunk rendered), none⟩, after)
      | (.error failure, after) => (Server.failed request.kind failure, after) := by
  unfold Server.handle Server.handleBy
  exact if_pos (beq_iff_eq.mpr kind)

theorem handle_batch (kind : request.kind = utf8 "render_batch") :
    server.handle request =
      match server.renderBatch request.payload with
      | (.ok rendered, after) => (⟨some (.batch rendered), none⟩, after)
      | (.error failure, after) => (Server.failed request.kind failure, after) := by
  have other : ¬(request.kind == utf8 "render_chunk") = true := by
    rw [kind]
    decide
  unfold Server.handle Server.handleBy
  rw [if_neg other, if_pos (beq_iff_eq.mpr kind)]
  rfl

end

/-- With a single worker, a request that fails fails in this way. -/
theorem Fails.handle_eq {failure : Failure} (lone : Pipeline.Group.capacity asked = 1)
    (fails : Fails asked server request failure next) :
    server.handle request = (Server.failed request.kind failure, next) := by
  cases fails with
  | chunkPayload kind read => rw [handle_chunk kind, Server.renderChunk, read]
  | chunkMap kind read sent => simp only [handle_chunk kind, Server.renderChunk, read, sent]
  | chunk kind read sent processed =>
      simp only [handle_chunk kind, Server.renderChunk, read, sent, processed]
  | batchPayload kind read =>
      rw [handle_batch kind, Server.renderBatch, Server.renderBatchBy, read]
  | batchMap kind read sent =>
      simp only [handle_batch kind, Server.renderBatch, Server.renderBatchBy, read, sent]
  | batch kind read sent gathers =>
      have gathered := gathers.eq_processBatch lone
      simp only [handle_batch kind, Server.renderBatch, Server.renderBatchBy, read, sent,
        ← gathered]

theorem Responds.handle_eq {response : Response} (lone : Pipeline.Group.capacity asked = 1)
    (responds : Responds asked server request response next) :
    server.handle request = (⟨some response, none⟩, next) := by
  cases responds with
  | chunk kind read sent processed =>
      simp only [handle_chunk kind, Server.renderChunk, read, sent, processed]
  | batch kind read sent gathers =>
      have gathered := gathers.eq_processBatch lone
      simp only [handle_batch kind, Server.renderBatch, Server.renderBatchBy, read, sent,
        ← gathered]
  | failure fails goes => rw [fails.handle_eq lone, failed_eq goes]
  | unknown kind =>
      simp only [renderKinds, List.mem_cons, List.not_mem_nil, or_false, not_or] at kind
      simp [Server.handle, Server.handleBy, kind]

theorem Halts.handle_eq {responses : List Response} {exit : Exit}
    (lone : Pipeline.Group.capacity asked = 1)
    (halts : Halts asked server request responses exit next) :
    ∃ reply, server.handle request = (reply, next) ∧ reply.exit = some exit ∧
      reply.response.toList = responses := by
  cases halts with
  | closed kind =>
      have notChunk : utf8 "close" ≠ utf8 "render_chunk" := by decide
      have notBatch : utf8 "close" ≠ utf8 "render_batch" := by decide
      refine ⟨⟨none, some .finished⟩, ?_, rfl, rfl⟩
      simp [Server.handle, Server.handleBy, notChunk, notBatch, kind]
  | defect fails => exact ⟨_, fails.handle_eq lone, rfl, rfl⟩
  | breakdown fails => exact ⟨_, fails.handle_eq lone, rfl, rfl⟩
  | endless fails => exact ⟨_, fails.handle_eq lone, rfl, rfl⟩

/-! ### A store in memory -/

theorem Fails.exists_ofRecords {failure : Failure} {records : MemoryStore}
    (memory : server.store = .ofRecords records)
    (fails : Fails asked server request failure next) :
    ∃ after, next.store = .ofRecords after := by
  cases fails with
  | chunk _ _ _ processed =>
      rw [memory] at processed
      obtain ⟨after, stored⟩ :=
        Pipeline.exists_ofRecords_of_process server.pipeline _ records
      rw [processed] at stored
      exact ⟨after, stored⟩
  | batch _ _ _ gathers =>
      rw [memory] at gathers
      exact gathers.exists_ofRecords
  | _ => exact ⟨records, memory⟩

theorem Responds.exists_ofRecords {response : Response} {records : MemoryStore}
    (memory : server.store = .ofRecords records)
    (responds : Responds asked server request response next) :
    ∃ after, next.store = .ofRecords after := by
  cases responds with
  | chunk _ _ _ processed =>
      rw [memory] at processed
      obtain ⟨after, stored⟩ :=
        Pipeline.exists_ofRecords_of_process server.pipeline _ records
      rw [processed] at stored
      exact ⟨after, stored⟩
  | batch _ _ _ gathers =>
      rw [memory] at gathers
      exact gathers.exists_ofRecords
  | failure fails => exact fails.exists_ofRecords memory
  | unknown => exact ⟨records, memory⟩

/-- A chunk that fails leaves a store in memory as it was. -/
theorem Fails.eq_of_chunk {failure : Failure} {records : MemoryStore}
    (memory : server.store = .ofRecords records) (kind : request.kind = utf8 "render_chunk")
    (fails : Fails asked server request failure next) : next = server := by
  have other : utf8 "render_chunk" ≠ utf8 "render_batch" := by decide
  cases fails with
  | chunkPayload => rfl
  | chunkMap => rfl
  | chunk _ _ _ processed =>
      rw [memory] at processed
      rw [Pipeline.process_ofRecords_error processed, ← memory]
  | batchPayload => rfl
  | batchMap => rfl
  | batch batch => exact absurd (kind.symm.trans batch) other

/-- A chunk that is answered with a failure leaves a store in memory as it was. -/
theorem Handles.eq_of_chunk_failure {reply : Reply} {records : MemoryStore} {named message : Bytes}
    (memory : server.store = .ofRecords records) (kind : request.kind = utf8 "render_chunk")
    (handles : Handles asked server request reply next)
    (failure : reply.response = some (.failure named message)) : next = server := by
  rcases handles.cases with ⟨response, rfl, responds⟩ | ⟨exit, -, halts⟩
  · cases failure
    cases responds with
    | failure fails => exact fails.eq_of_chunk memory kind
    | unknown other => exact absurd (by simp [renderKinds, kind]) other
  · rw [failure] at halts
    cases halts with
    | defect fails => exact fails.eq_of_chunk memory kind

/-! ### All requests -/

/-- Requests are answered in order, each with one response. -/
inductive Answered (asked : Int) : Server → List Request → List Response → Server → Prop where
  | nil {server : Server} : Answered asked server [] [] server
  | cons {server between last : Server} {request : Request} {response : Response}
      {requests : List Request} {responses : List Response} :
      Responds asked server request response between →
      Answered asked between requests responses last →
      Answered asked server (request :: requests) (response :: responses) last

/-- How a server ends that answered all requests before: with its input, or at the next
request. -/
inductive Ending (asked : Int) (malformed : Bool) (server : Server) :
    List Request → List Response → Exit → Server → Prop where
  | input :
      Ending asked malformed server [] (if malformed then [Server.malformedResponse] else [])
        .finished server
  | halted {request : Request} {rest : List Request} {responses : List Response} {exit : Exit}
      {next : Server} :
      Halts asked server request responses exit next →
      Ending asked malformed server (request :: rest) responses exit next

/-- Requests are answered in order, each once, up to an ending. -/
def AnswersInOrder (asked : Int) (malformed : Bool) (server : Server) (requests : List Request)
    (written : List Response) (exit : Exit) (last : Server) : Prop :=
  ∃ answered rest responses final between, requests = answered ++ rest ∧
    written = responses ++ final ∧ Answered asked server answered responses between ∧
    Ending asked malformed between rest final exit last

theorem Answered.append {last : Server} {requests others : List Request}
    {responses more : List Response}
    (answered : Answered asked server requests responses next)
    (later : Answered asked next others more last) :
    Answered asked server (requests ++ others) (responses ++ more) last := by
  induction answered with
  | nil => exact later
  | cons responds _ induction => exact .cons responds (induction later)

theorem Answered.concat {last : Server} {requests : List Request} {responses : List Response}
    {response : Response} (answered : Answered asked server requests responses next)
    (responds : Responds asked next request response last) :
    Answered asked server (requests ++ [request]) (responses ++ [response]) last :=
  answered.append (.cons responds .nil)

theorem Answered.exists_ofRecords {requests : List Request} {responses : List Response}
    {records : MemoryStore} (memory : server.store = .ofRecords records)
    (answered : Answered asked server requests responses next) :
    ∃ after, next.store = .ofRecords after := by
  induction answered generalizing records with
  | nil => exact ⟨records, memory⟩
  | cons responds _ induction =>
      obtain ⟨between, stored⟩ := responds.exists_ofRecords memory
      exact induction stored

/-- With a single worker, there is one way to answer requests. -/
theorem AnswersInOrder.answer_eq {malformed : Bool} {requests : List Request}
    {written : List Response} {exit : Exit} {last : Server}
    (lone : Pipeline.Group.capacity asked = 1)
    (inOrder : AnswersInOrder asked malformed server requests written exit last) :
    server.answer malformed requests = ⟨written, exit, last.store⟩ := by
  obtain ⟨answered, rest, responses, final, between, rfl, rfl, answers, ending⟩ := inOrder
  induction answers with
  | nil =>
      cases ending with
      | input => rfl
      | halted halts =>
          obtain ⟨reply, handled, exits, written⟩ := halts.handle_eq lone
          rw [List.nil_append, Server.answer, handled]
          simp only [exits, written, List.nil_append]
  | cons responds _ induction =>
      rw [List.cons_append, Server.answer, responds.handle_eq lone]
      simp [induction ending, Server.Transcript.push]

end Reroute.Hook

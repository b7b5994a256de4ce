import Reroute.Hook.Message

/-!
# The hook server

The server greets, answers every request with one response, in order, and ends with its
input or at a request to close.  A request that fails is answered with a failure and the
server goes on, unless the failure is a defect of the transform itself.  It does not get past
a request on which the work never ends.
-/

namespace Reroute.Hook

/-- Why a request is not carried out. -/
inductive Failure where
  | payload
  | map (error : Payload.MapError)
  | pipeline (error : Pipeline.Error)
  deriving DecidableEq, Repr

def Failure.message : Failure → Bytes
  | .payload => utf8 "decoding payload: <json>"
  | .map error => error.message
  | .pipeline error => error.message

/-- How a server ends: as asked or with its input, on an error that ends it, or never. -/
inductive Exit where
  | finished
  | stopped (error : Pipeline.Error)
  | endless
  deriving DecidableEq, Repr

/-- What comes of a request: at most one response, and possibly the end of the server. -/
structure Reply where
  response : Option Response
  exit : Option Exit
  deriving DecidableEq, Repr

/-- A server: a pipeline, the rule it names when it greets, and its store. -/
structure Server where
  pipeline : Pipeline
  ruleId : Bytes
  store : Store

namespace Server

def renderChunk (server : Server) (text : Bytes) :
    Except Failure (Option Rendered) × Server :=
  match Payload.read? text with
  | none => (.error .payload, server)
  | some payload =>
      match payload.chunk with
      | .error error => (.error (.map error), server)
      | .ok chunk =>
          match server.pipeline.process chunk server.store with
          | (.ok result, store) => (.ok (Rendered.ofResult result), { server with store })
          | (.error error, store) => (.error (.pipeline error), { server with store })

/-- Transform the chunks of a batch. -/
def renderBatchBy (gather : Pipeline.Gather) (server : Server) (text : Bytes) :
    Except Failure (List (Option Rendered)) × Server :=
  match Batch.read? text with
  | none => (.error .payload, server)
  | some payloads =>
      match Payload.chunks payloads with
      | .error error => (.error (.map error), server)
      | .ok chunks =>
          match gather server.pipeline chunks server.store with
          | (.ok results, store) =>
              (.ok (results.map Rendered.ofResult), { server with store })
          | (.error error, store) => (.error (.pipeline error), { server with store })

/-- Transform the chunks of a batch one after the other. -/
def renderBatch (server : Server) (text : Bytes) :
    Except Failure (List (Option Rendered)) × Server :=
  server.renderBatchBy (Pipeline.processBatch none) text

/-- The reply to a request that failed.  A defect also ends the server, a transform that broke
down ends it without a response, and work that never ends does not let it go on. -/
def failed (kind : Bytes) (failure : Failure) : Reply :=
  match failure with
  | .pipeline (.defect path refused) =>
      ⟨some (.failure kind failure.message), some (.stopped (.defect path refused))⟩
  | .pipeline (.breakdown message) => ⟨none, some (.stopped (.breakdown message))⟩
  | .pipeline (.composition _ .endless) => ⟨none, some .endless⟩
  | _ => ⟨some (.failure kind failure.message), none⟩

/-- Carry out a request. -/
def handleBy (gather : Pipeline.Gather) (server : Server) (request : Request) :
    Reply × Server :=
  if request.kind == utf8 "render_chunk" then
    match server.renderChunk request.payload with
    | (.ok rendered, server) => (⟨some (.chunk rendered), none⟩, server)
    | (.error failure, server) => (failed request.kind failure, server)
  else if request.kind == utf8 "render_batch" then
    match server.renderBatchBy gather request.payload with
    | (.ok rendered, server) => (⟨some (.batch rendered), none⟩, server)
    | (.error failure, server) => (failed request.kind failure, server)
  else if request.kind == utf8 "close" then (⟨none, some .finished⟩, server)
  else
    (⟨some (.failure (utf8 "unknown") (utf8 "unknown request type: " ++ request.kind)),
      none⟩, server)

/-- Carry out a request.  The chunks of a batch are transformed one after the other. -/
def handle (server : Server) (request : Request) : Reply × Server :=
  server.handleBy (Pipeline.processBatch none) request

/-- What a server wrote, how it ended, and what its store holds then. -/
structure Transcript where
  responses : List Response
  exit : Exit
  store : Store
  deriving DecidableEq, Repr

/-- Put a reply's response in front of a transcript. -/
def Transcript.push (reply : Reply) (transcript : Transcript) : Transcript :=
  { transcript with responses := reply.response.toList ++ transcript.responses }

/-- The response to something that is not a request. -/
def malformedResponse : Response :=
  .failure (utf8 "decode") (utf8 "<json>")

/-- Answer requests in order. -/
def answer (server : Server) (malformed : Bool) : List Request → Transcript
  | [] => ⟨if malformed then [malformedResponse] else [], .finished, server.store⟩
  | request :: requests =>
      match server.handle request with
      | (reply, after) =>
          match reply.exit with
          | some exit => ⟨reply.response.toList, exit, after.store⟩
          | none => (after.answer malformed requests).push reply

def greeting (server : Server) : Response :=
  .ready server.pipeline.mode server.ruleId

/-- Run a server over its input. -/
def run (server : Server) (input : Bytes) : Transcript :=
  let stream := Stream.read input
  let transcript := server.answer stream.malformed stream.requests
  { transcript with responses := server.greeting :: transcript.responses }

end Server

end Reroute.Hook

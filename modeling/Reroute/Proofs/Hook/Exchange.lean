import Mathlib
import Reroute.Proofs.Hook.Answering

/-!
# The reader and the loop of a server

A server reads its input ahead.  A reader decodes requests and passes them on one at a time,
through a channel that holds one, and reports the end of its input through a second channel.
The loop takes from either channel, whichever it pleases if both hold something.  Once it took
the end, it drains the channel of requests and returns.

The end is at one place at any time: ahead of the reader, in its channel, or with the loop.  It
only leaves the reader behind the last request, so that no request is left out when the loop
takes it early.  Whatever turns the two parties take, and whatever turns the workers of a batch
take, the loop therefore answers the requests of the input in order.
-/

namespace Reroute.Hook

/-! ### The parties -/

/-- What the reader is about to do. -/
inductive Reader where
  | decode (text : Bytes)
  | send (request : Request) (rest : Bytes)
  | report (malformed : Bool)
  | done

def Reader.ofHead : Stream.Head → Reader
  | .nothing => .report false
  | .malformed => .report true
  | .request request rest => .send request rest

/-- What the loop is about to do.  It knows the end of the input once it took it.  It ends when
it returns, and also when it does not get past a request. -/
inductive Loop where
  | take (known : Option Bool)
  | answer (request : Request) (known : Option Bool)
  | ended (exit : Exit)

def Loop.ofReply (reply : Reply) (known : Option Bool) : Loop :=
  match reply.exit with
  | some exit => .ended exit
  | none => .take known

/-- A server at work: the reader, a channel for a request and one for the end of the input, the
loop, and what is written so far. -/
structure Exchange where
  reader : Reader
  request : Option Request
  ending : Option Bool
  loop : Loop
  server : Server
  written : List Response

namespace Exchange

def start (server : Server) (input : Bytes) : Exchange :=
  ⟨.decode input, none, none, .take none, server, [server.greeting]⟩

/-- A step of one of the parties.  Sending waits for an empty channel.  The loop takes the end of
the input once, and after that it does not wait for requests. -/
inductive Step (asked : Int) : Exchange → Exchange → Prop where
  | decode {text request ending loop server written} :
      Step asked ⟨.decode text, request, ending, loop, server, written⟩
        ⟨.ofHead (Stream.head text), request, ending, loop, server, written⟩
  | send {request rest ending loop server written} :
      Step asked ⟨.send request rest, none, ending, loop, server, written⟩
        ⟨.decode rest, some request, ending, loop, server, written⟩
  | report {malformed request loop server written} :
      Step asked ⟨.report malformed, request, none, loop, server, written⟩
        ⟨.done, request, some malformed, loop, server, written⟩
  | takeRequest {reader request ending known server written} :
      Step asked ⟨reader, some request, ending, .take known, server, written⟩
        ⟨reader, none, ending, .answer request known, server, written⟩
  | takeEnding {reader request malformed server written} :
      Step asked ⟨reader, request, some malformed, .take none, server, written⟩
        ⟨reader, request, none, .take (some malformed), server, written⟩
  | answer {reader pending ending request known server written reply next} :
      Handles asked server request reply next →
      Step asked ⟨reader, pending, ending, .answer request known, server, written⟩
        ⟨reader, pending, ending, .ofReply reply known, next,
          written ++ reply.response.toList⟩
  | finish {reader ending malformed server written} :
      Step asked ⟨reader, none, ending, .take (some malformed), server, written⟩
        ⟨reader, none, ending, .ended .finished, server,
          written ++ if malformed then [Server.malformedResponse] else []⟩

end Exchange

/-! ### What is still to come -/

/-- What the reader still has to pass on. -/
def Reader.stream : Reader → Option Stream
  | .decode text => some (Stream.read text)
  | .send request rest => some ((Stream.read rest).push request)
  | .report malformed => some ⟨[], malformed⟩
  | .done => none

theorem Reader.stream_ofHead (text : Bytes) :
    (Reader.ofHead (Stream.head text)).stream = some (Stream.read text) := by
  rw [Stream.read_eq]
  cases Stream.head text with
  | nothing => rfl
  | malformed => rfl
  | request request rest => rfl

/-- The end of the input is ahead of the reader, in its channel, or known to the loop, and only
ahead of the reader there can be requests in front of it. -/
inductive Ahead : Reader → Option Bool → Option Bool → Stream → Prop where
  | unread {reader : Reader} {stream : Stream} :
      reader.stream = some stream → Ahead reader none none stream
  | reported {malformed : Bool} : Ahead .done (some malformed) none ⟨[], malformed⟩
  | known {malformed : Bool} : Ahead .done none (some malformed) ⟨[], malformed⟩

namespace Exchange

/-- An exchange keeps up with the requests of a stream: those that are not answered yet are with
the loop, in the channel or ahead of the reader, in this order, unless it has ended. -/
inductive Keeps (asked : Int) (server : Server) (requests : List Request) (malformed : Bool) :
    Exchange → Prop where
  | take {reader : Reader} {request : Option Request} {ending known : Option Bool}
      {reached : Server} {answered later : List Request} {responses : List Response} :
      Ahead reader ending known ⟨later, malformed⟩ →
      Answered asked server answered responses reached →
      answered ++ (request.toList ++ later) = requests →
      Keeps asked server requests malformed
        ⟨reader, request, ending, .take known, reached, server.greeting :: responses⟩
  | answer {reader : Reader} {taken : Request} {request : Option Request}
      {ending known : Option Bool} {reached : Server} {answered later : List Request}
      {responses : List Response} :
      Ahead reader ending known ⟨later, malformed⟩ →
      Answered asked server answered responses reached →
      answered ++ taken :: (request.toList ++ later) = requests →
      Keeps asked server requests malformed
        ⟨reader, request, ending, .answer taken known, reached, server.greeting :: responses⟩
  | ended {reader : Reader} {request : Option Request} {ending : Option Bool} {exit : Exit}
      {last : Server} {responses : List Response} :
      AnswersInOrder asked malformed server requests responses exit last →
      Keeps asked server requests malformed
        ⟨reader, request, ending, .ended exit, last, server.greeting :: responses⟩

variable {asked : Int} {server : Server} {requests : List Request} {malformed : Bool}
  {state next : Exchange}

theorem keeps_start {input : Bytes} (holds : Stream.Holds input requests malformed) :
    Keeps asked server requests malformed (start server input) := by
  have read := Stream.holds_iff.mp holds
  exact .take (.unread (congrArg some read)) .nil rfl

/-- The reader leaves an exchange keeping up when it leaves what is ahead of the loop. -/
theorem Keeps.of_reader {reader later : Reader} {request sent : Option Request}
    {ending reported : Option Bool} {loop : Loop} {reached : Server} {written : List Response}
    (keeps : Keeps asked server requests malformed
      ⟨reader, request, ending, loop, reached, written⟩)
    (passes : ∀ {known stream}, Ahead reader ending known stream →
      ∃ rest, Ahead later reported known rest ∧ rest.malformed = stream.malformed ∧
        sent.toList ++ rest.requests = request.toList ++ stream.requests) :
    Keeps asked server requests malformed ⟨later, sent, reported, loop, reached, written⟩ := by
  cases keeps with
  | take ahead answered whole =>
      obtain ⟨⟨rest, _⟩, restAhead, rfl, same⟩ := passes ahead
      exact .take restAhead answered (same ▸ whole)
  | answer ahead answered whole =>
      obtain ⟨⟨rest, _⟩, restAhead, rfl, same⟩ := passes ahead
      exact .answer restAhead answered (same ▸ whole)
  | ended inOrder => exact .ended inOrder

/-- Answering the request that the loop took keeps up, or ends the exchange. -/
theorem Keeps.of_handles {reader : Reader} {taken : Request} {request : Option Request}
    {ending known : Option Bool} {reached after : Server} {answered later : List Request}
    {responses : List Response} {reply : Reply}
    (ahead : Ahead reader ending known ⟨later, malformed⟩)
    (answers : Answered asked server answered responses reached)
    (whole : answered ++ taken :: (request.toList ++ later) = requests)
    (handles : Handles asked reached taken reply after) :
    Keeps asked server requests malformed
      ⟨reader, request, ending, .ofReply reply known, after,
        server.greeting :: responses ++ reply.response.toList⟩ := by
  rw [List.cons_append]
  rcases handles.cases with ⟨response, rfl, responds⟩ | ⟨exit, exits, halts⟩
  · refine .take ahead (answers.concat responds) ?_
    rw [List.append_assoc]
    exact whole
  · rw [Loop.ofReply, exits]
    exact .ended ⟨answered, _, responses, _, reached, whole.symm, rfl, answers, .halted halts⟩

/-- Every step keeps up. -/
theorem Keeps.step (keeps : Keeps asked server requests malformed state)
    (step : Step asked state next) : Keeps asked server requests malformed next := by
  cases step with
  | @decode text =>
      apply keeps.of_reader
      intro known stream ahead
      cases ahead with
      | unread unread =>
          obtain rfl := Option.some.inj unread
          exact ⟨_, .unread (Reader.stream_ofHead text), rfl, rfl⟩
  | send =>
      apply keeps.of_reader
      intro known stream ahead
      cases ahead with
      | unread unread =>
          obtain rfl := Option.some.inj unread
          exact ⟨_, .unread rfl, rfl, rfl⟩
  | report =>
      apply keeps.of_reader
      intro known stream ahead
      cases ahead with
      | unread unread =>
          obtain rfl := Option.some.inj unread
          exact ⟨_, .reported, rfl, rfl⟩
  | takeRequest =>
      cases keeps with
      | take ahead answered whole => exact .answer ahead answered whole
  | takeEnding =>
      cases keeps with
      | take ahead answered whole =>
          cases ahead with
          | reported => exact .take .known answered whole
  | answer handles =>
      cases keeps with
      | answer ahead answered whole => exact .of_handles ahead answered whole handles
  | finish =>
      cases keeps with
      | take ahead answered whole =>
          -- The reader is done, and the channel of requests is empty.
          cases ahead with
          | known =>
              refine .ended ⟨_, [], _, _, _, whole.symm, rfl, answered, .input⟩

theorem keeps_of_reachable {input : Bytes} (holds : Stream.Holds input requests malformed)
    (reachable : Relation.ReflTransGen (Step asked) (start server input) state) :
    Keeps asked server requests malformed state := by
  induction reachable with
  | refl => exact keeps_start holds
  | tail _ step induction => exact induction.step step

/-- Until the loop ends, one of the parties can take a step. -/
theorem Keeps.progress (keeps : Keeps asked server requests malformed state)
    (running : ∀ exit, state.loop ≠ .ended exit) : ∃ next, Step asked state next := by
  cases keeps with
  | @take reader request ending known reached answered later responses ahead =>
      cases request with
      | some request => exact ⟨_, .takeRequest⟩
      | none =>
          cases ahead with
          | unread unread =>
              cases reader with
              | decode text => exact ⟨_, .decode⟩
              | send request rest => exact ⟨_, .send⟩
              | report malformed => exact ⟨_, .report⟩
              | done => cases unread
          | reported => exact ⟨_, .takeEnding⟩
          | known => exact ⟨_, .finish⟩
  | @answer reader taken request ending known reached =>
      obtain ⟨reply, after, handles⟩ := exists_handles asked reached taken
      exact ⟨_, .answer handles⟩
  | ended => exact absurd rfl (running _)

/-- What is written before the end are the responses to the first requests. -/
theorem Keeps.answered (keeps : Keeps asked server requests malformed state)
    (running : ∀ exit, state.loop ≠ .ended exit) :
    ∃ answered rest responses, requests = answered ++ rest ∧
      state.written = server.greeting :: responses ∧
      Answered asked server answered responses state.server := by
  cases keeps with
  | take _ answered whole => exact ⟨_, _, _, whole.symm, rfl, answered⟩
  | answer _ answered whole => exact ⟨_, _, _, whole.symm, rfl, answered⟩
  | ended => exact absurd rfl (running _)

theorem Keeps.answersInOrder {exit : Exit} (keeps : Keeps asked server requests malformed state)
    (ended : state.loop = .ended exit) :
    ∃ responses, state.written = server.greeting :: responses ∧
      AnswersInOrder asked malformed server requests responses exit state.server := by
  cases keeps with
  | take => cases ended
  | answer => cases ended
  | ended inOrder =>
      cases ended
      exact ⟨_, rfl, inOrder⟩

end Exchange

/-! ### Every run ends -/

/-- A bound on the steps of the reader, and on the steps of the loop that they lead to. -/
def Reader.weight : Reader → Nat
  | .decode text => 4 * text.length + 3
  | .send _ rest => 4 * rest.length + 6
  | .report _ => 2
  | .done => 0

def Loop.weight : Loop → Nat
  | .take _ => 1
  | .answer _ _ => 2
  | .ended _ => 0

theorem Reader.weight_ofHead_lt (text : Bytes) :
    (Reader.ofHead (Stream.head text)).weight < (Reader.decode text).weight := by
  cases found : Stream.head text with
  | nothing => simp [ofHead, weight]
  | malformed => simp [ofHead, weight]
  | request request rest =>
      have shorter := Stream.length_lt_of_head found
      simp only [ofHead, weight]
      omega

theorem Loop.weight_ofReply_le (reply : Reply) (known : Option Bool) :
    (Loop.ofReply reply known).weight ≤ 1 := by
  unfold ofReply
  split
  · exact Nat.zero_le 1
  · exact Nat.le_refl 1

namespace Exchange

variable {asked : Int} {state next : Exchange}

/-- A bound on the steps that are still to come. -/
def weight (state : Exchange) : Nat :=
  state.reader.weight + 2 * state.request.toList.length + state.ending.toList.length
    + state.loop.weight

theorem Step.weight_lt (step : Step asked state next) : next.weight < state.weight := by
  cases step with
  | @decode text =>
      have shorter := Reader.weight_ofHead_lt text
      simp only [weight]
      omega
  | send => simp [weight, Reader.weight]
  | report =>
      simp only [weight, Reader.weight, Option.toList_some, Option.toList_none,
        List.length_singleton, List.length_nil]
      omega
  | takeRequest =>
      simp only [weight, Loop.weight, Option.toList_some, Option.toList_none,
        List.length_singleton, List.length_nil]
      omega
  | takeEnding => simp [weight, Loop.weight]
  | @answer reader pending ending request known server written reply after =>
      have light := Loop.weight_ofReply_le reply known
      have heavy : (Loop.answer request known).weight = 2 := rfl
      simp only [weight]
      omega
  | finish => simp [weight, Loop.weight]

theorem no_endless_run (run : Nat → Exchange) :
    ¬∀ count, Step asked (run count) (run (count + 1)) := by
  intro steps
  obtain ⟨count, heavy⟩ :=
    WellFounded.not_rel_apply_succ (r := (· < ·)) fun count => (run count).weight
  exact heavy (steps count).weight_lt

theorem Keeps.exists_ended {server : Server} {requests : List Request} {malformed : Bool}
    (keeps : Keeps asked server requests malformed state) :
    ∃ last exit, Relation.ReflTransGen (Step asked) state last ∧ last.loop = .ended exit := by
  induction left : state.weight using Nat.strong_induction_on generalizing state with
  | _ left induction =>
      by_cases ended : ∃ exit, state.loop = .ended exit
      · obtain ⟨exit, ended⟩ := ended
        exact ⟨state, exit, .refl, ended⟩
      · obtain ⟨next, step⟩ := keeps.progress (not_exists.mp ended)
        have lighter := step.weight_lt
        rw [left] at lighter
        obtain ⟨last, exit, reached, ended⟩ := induction _ lighter (keeps.step step) rfl
        exact ⟨last, exit, .head step reached, ended⟩

/-- With a single worker, a server that ended wrote what answering its requests one after the
other comes to. -/
theorem eq_run_of_ended {server : Server} {input : Bytes} {exit : Exit}
    (lone : Pipeline.Group.capacity asked = 1)
    (reachable : Relation.ReflTransGen (Step asked) (start server input) state)
    (ended : state.loop = .ended exit) :
    ⟨state.written, exit, state.server.store⟩ = server.run input := by
  have holds : Stream.Holds input (Stream.read input).requests (Stream.read input).malformed :=
    Stream.holds_iff.mpr rfl
  obtain ⟨responses, written, inOrder⟩ := (keeps_of_reachable holds reachable).answersInOrder ended
  rw [Server.run, inOrder.answer_eq lone, written]

/-- Whatever turns the reader, the loop and the workers of a batch take, the loop comes to its
end.  By then the requests that the input holds are answered in order, each once, up to the
first one that closes the server or that it does not get past, and before that they are answered
so far.  With a single worker there is one outcome.  A chunk that is answered with a failure
leaves a store in memory as it was. -/
theorem requests_answered_in_order {input : Bytes} {requests : List Request} {malformed : Bool}
    (holds : Stream.Holds input requests malformed) (asked : Int) (server : Server) :
    (∀ state, Relation.ReflTransGen (Step asked) (start server input) state →
      ((∀ exit, state.loop ≠ .ended exit) →
        (∃ answered rest responses, requests = answered ++ rest ∧
          state.written = server.greeting :: responses ∧
          Answered asked server answered responses state.server) ∧
        ∃ next, Step asked state next) ∧
      ∀ exit, state.loop = .ended exit →
        (∃ responses, state.written = server.greeting :: responses ∧
          AnswersInOrder asked malformed server requests responses exit state.server) ∧
        (Pipeline.Group.capacity asked = 1 →
          ⟨state.written, exit, state.server.store⟩ = server.run input)) ∧
      (∀ run : Nat → Exchange, ¬∀ count, Step asked (run count) (run (count + 1))) ∧
      ∀ records, server.store = .ofRecords records →
        ∀ answered responses reached request reply next named message,
          Answered asked server answered responses reached →
          request.kind = utf8 "render_chunk" → Handles asked reached request reply next →
          reply.response = some (.failure named message) → next = reached := by
  refine ⟨?_, no_endless_run, ?_⟩
  · intro state reachable
    have keeps := keeps_of_reachable holds reachable
    refine ⟨fun running => ⟨keeps.answered running, keeps.progress running⟩, ?_⟩
    intro exit ended
    exact ⟨keeps.answersInOrder ended, fun lone => eq_run_of_ended lone reachable ended⟩
  · intro records memory answered responses reached request reply next named message answers kind
      handles failure
    obtain ⟨after, stored⟩ := answers.exists_ofRecords memory
    exact handles.eq_of_chunk_failure stored kind failure

/-- A request to transform a chunk whose map is no map. -/
def spoiltRequest : Request :=
  chunkRequest
    (utf8 "\x7b\"code\":\"import(x)\",\"fileName\":\"a.js\",\"map\":\"[\"\x7d")

/-- That request, and something behind it that is none. -/
def spoiltInput : Bytes :=
  utf8 "\x7b\"type\":\"render_chunk\",\"payload\":" ++ spoiltRequest.payload ++ utf8 "\x7d\n]"

/-- The chunk is answered with a failure and leaves the store as it was, and what comes behind
it is answered as well. -/
theorem requests_answered_in_order_spoilt :
    let server : Server := ⟨Pipeline.incrementalPipeline, [], .memory⟩
    let message := (Pipeline.Error.composition (utf8 "a.js") (.parent .malformed)).message
    (∀ state exit, Relation.ReflTransGen (Step 1) (start server spoiltInput) state →
      state.loop = .ended exit →
      state.written =
          [server.greeting, .failure (utf8 "render_chunk") message, Server.malformedResponse] ∧
        exit = .finished) ∧
      ∀ reply next, Handles 1 server spoiltRequest reply next →
        reply.response = some (.failure (utf8 "render_chunk") message) ∧ next = server := by
  intro server message
  have holds : Stream.Holds spoiltInput [spoiltRequest] true :=
    Stream.holds_iff.mpr (by decide +kernel)
  obtain ⟨runs, -, intact⟩ := requests_answered_in_order holds 1 server
  constructor
  · intro state exit reachable ended
    obtain ⟨-, only⟩ := (runs state reachable).2 exit ended
    have whole : server.run spoiltInput =
        ⟨[server.greeting, .failure (utf8 "render_chunk") message, Server.malformedResponse],
          .finished, .memory⟩ := by
      decide +kernel
    obtain ⟨written, exits, -⟩ := Server.Transcript.mk.inj ((only rfl).trans whole)
    exact ⟨written, exits⟩
  · intro reply next handles
    have failure : reply.response = some (.failure (utf8 "render_chunk") message) := by
      have handled := congrArg Prod.fst (handles.eq_handle rfl)
      rw [← show _ = reply from handled]
      decide +kernel
    exact ⟨failure, intact .empty rfl [] [] server spoiltRequest reply next _ _ .nil rfl handles
      failure⟩

/-! ### A transform that breaks down -/

/-- A server with a transform in the rule's place that breaks down on every chunk. -/
def brokenServer : Server :=
  ⟨⟨.production, Rule.builtin, false, false,
    some (FixedTransform.run ⟨.breakDown (utf8 "boom"), []⟩)⟩, Rule.builtin.id, .memory⟩

def brokenRequest : Request :=
  chunkRequest (utf8 "\x7b\"code\":\"import(1)\",\"fileName\":\"a.js\"\x7d")

def brokenInput : Bytes :=
  utf8 "\x7b\"type\":\"render_chunk\",\"payload\":" ++ brokenRequest.payload ++ utf8 "\x7d"

/-- The only request of a stream gets no response if the transform breaks down, and the server
does not return as if it had closed or met a defect. -/
theorem breakdown_not_answered :
    Stream.Holds brokenInput [brokenRequest] false ∧ brokenRequest.kind ≠ utf8 "close" ∧
      (∀ state exit, Relation.ReflTransGen (Step 1) (start brokenServer brokenInput) state →
        state.loop = .ended exit →
        state.written = [brokenServer.greeting] ∧ exit = .stopped (.breakdown (utf8 "boom"))) ∧
      ∃ state, Relation.ReflTransGen (Step 1) (start brokenServer brokenInput) state ∧
        state.loop = .ended (.stopped (.breakdown (utf8 "boom"))) := by
  have holds : Stream.Holds brokenInput [brokenRequest] false :=
    Stream.holds_iff.mpr (by decide +kernel)
  have whole : brokenServer.run brokenInput =
      ⟨[brokenServer.greeting], .stopped (.breakdown (utf8 "boom")), .memory⟩ := by
    decide +kernel
  have only (state : Exchange) (exit : Exit)
      (reachable : Relation.ReflTransGen (Step 1) (start brokenServer brokenInput) state)
      (ended : state.loop = .ended exit) :
      state.written = [brokenServer.greeting] ∧ exit = .stopped (.breakdown (utf8 "boom")) := by
    obtain ⟨written, exits, -⟩ :=
      Server.Transcript.mk.inj ((eq_run_of_ended rfl reachable ended).trans whole)
    exact ⟨written, exits⟩
  refine ⟨holds, by decide +kernel, only, ?_⟩
  obtain ⟨last, exit, reachable, ended⟩ :=
    (keeps_start holds : Keeps 1 brokenServer _ _ _).exists_ended
  obtain ⟨-, rfl⟩ := only last exit reachable ended
  exact ⟨last, reachable, ended⟩

end Exchange

end Reroute.Hook

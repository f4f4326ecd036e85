import Scorebook.Engine

/-!
# Workers

The statistics of a scope are computed by several workers at once. The scores wait in a queue. A
worker takes the next score, reads the stream of its population row by row, sends the answer,
and goes on until the queue is empty. The queue, the cancellation flag and the channel of answers
are all that workers share. Which of them moves next is left open: a run of the pool is any
interleaving of their moves, and each access to something shared is a move of its own.
-/

namespace Scorebook

/-- The rows of a population that were read so far, by the kind of score. -/
inductive Accumulator (α : Type) where
  | numeric (sample : Numeric.Sample α)
  | nominal (coder : Coder) (sample : Nominal.Sample)
  | ordinal (coder : Coder) (sample : Ordinal.Sample)

namespace Accumulator

variable {α : Type} [Arithmetic α]

/-- No rows of a score with that definition. -/
def start (definition : Definition) : Accumulator α :=
  let coder := Coder.ofDefinition definition
  match definition.scoringType with
  | .numeric | .ragas => numeric .empty
  | .nominal => nominal coder .empty
  | .ordinal => ordinal coder (.empty definition.passRule coder)

/-- Takes in one more row. -/
def push : Accumulator α → ScoredRow → Accumulator α
  | numeric sample, row => numeric (sample.pushRaw row.raw)
  | nominal coder sample, row =>
    let (coder, sample) := Nominal.pushCoded (coder, sample) row
    nominal coder sample
  | ordinal coder sample, row => ordinal coder (sample.pushRaw coder row.raw).2

/-- The statistics of the rows so far. -/
def summary (settings : Settings) : Accumulator α → Summary α
  | numeric sample => .numeric (sample.summary settings)
  | nominal coder sample => .nominal (sample.summary coder)
  | ordinal coder sample => .ordinal (sample.summary coder settings.percentiles)

end Accumulator

/-- A population that is being read. -/
structure Reading (α : Type) where
  scoreId : String
  rows : Accumulator α
  /-- What is still to be pulled. -/
  events : List (Event ScoredRow)

/-- What a worker does next. -/
inductive Worker (α : Type) where
  /-- It takes a score from the queue. -/
  | idle
  /-- It looks up the definition of a score and opens the stream of its population. -/
  | opening (scoreId : String)
  /-- It pulls the next item of a stream. -/
  | pulling (reading : Reading α)
  /-- It looks at the cancellation flag before it uses what was pulled: a row, a fault, or the end
  of the stream. -/
  | checking (reading : Reading α) (pulled : Option (Except SourceFault ScoredRow))
  /-- It sends an answer. -/
  | sending (answer : ScoreAnswer α)
  /-- Nothing any more, because the queue was empty. -/
  | stopped
  /-- Nothing any more, because the source broke down while a score was computed. -/
  | crashed (scoreId : String)

/-- What all workers share. -/
structure Shared (α : Type) where
  /-- The scores that no worker has taken. -/
  queue : List String
  cancelled : Cancelled
  /-- The answers that were sent, in the order of their arrival. -/
  channel : List (ScoreAnswer α)

/-- What a move shows to an observer. -/
inductive Action (α : Type) where
  | take (scoreId : String)
  | send (answer : ScoreAnswer α)
  /-- Anything else. -/
  | work

namespace Action

variable {α : Type}

/-- The scores taken by an action. -/
def taken : Action α → List String
  | take scoreId => [scoreId]
  | _ => []

/-- The answers sent by an action. -/
def sent : Action α → List (ScoreAnswer α)
  | send answer => [answer]
  | _ => []

end Action

/-- A move of a worker: what it shows, and what the worker and the shared state are after it. -/
structure Move (α : Type) where
  action : Action α
  worker : Worker α
  shared : Shared α

/-- A request for the statistics of a scope, with the scores that its source lists. -/
structure Request where
  engine : Engine
  evaluationId : String
  scope : Scope
  /-- Whether cancellation was requested before. -/
  cancelled : Cancelled
  scoreIds : List String
  listed : engine.source.scoreIds evaluationId scope = .ok scoreIds

/-- The population of a score. -/
def Request.population (request : Request) (scoreId : String) : Population :=
  ⟨request.evaluationId, scoreId, request.scope⟩

/-- All workers of a request, with what they share. -/
structure Pool (α : Type) where
  workers : List (Worker α)
  shared : Shared α

namespace Pool

variable {α : Type}

/-- The pool before the first move. There are no more workers than scores, and at least one if
there are scores. -/
def start (request : Request) : Pool α :=
  ⟨List.replicate (min (max request.engine.settings.maxWorkers 1) request.scoreIds.length) .idle,
    ⟨request.scoreIds, request.cancelled, []⟩⟩

/-- No worker has anything left to do. -/
def Finished (pool : Pool α) : Prop :=
  ∀ worker ∈ pool.workers, worker = .stopped ∨ ∃ scoreId, worker = .crashed scoreId

/-- Whether a worker broke down. -/
def hasCrashed (pool : Pool α) : Bool :=
  pool.workers.any fun
    | .crashed _ => true
    | _ => false

/-- The report that is assembled from the channel of a finished pool. A broken worker leaves no
report. -/
def report (request : Request) (pool : Pool α) : Except EngineFault (Report α) :=
  if pool.hasCrashed then .error (.workerCrashed crashReason)
  else Engine.collect request.scope (.empty request.evaluationId request.scope) pool.shared.channel

end Pool

section Moves

variable {α : Type} [Arithmetic α] (request : Request)

/-- The next move of a worker, if it has one. A population that cannot be opened is answered with
the reason. -/
def Worker.move? : Worker α → Shared α → Option (Move α)
  | idle, shared =>
    match shared.queue with
    | [] => some ⟨.work, stopped, shared⟩
    | scoreId :: queue => some ⟨.take scoreId, opening scoreId, { shared with queue }⟩
  | opening scoreId, shared =>
    match request.engine.opened (request.population scoreId) with
    | .error fault => some ⟨.work, sending (scoreId, .error fault), shared⟩
    | .ok (definition, events) =>
      some ⟨.work, pulling ⟨scoreId, .start definition, events⟩, shared⟩
  | pulling reading, shared =>
    match reading.events with
    | [] => some ⟨.work, checking reading none, shared⟩
    | .row value :: events =>
      some ⟨.work, checking { reading with events } (some (.ok value)), shared⟩
    | .fault cause :: events =>
      some ⟨.work, checking { reading with events } (some (.error cause)), shared⟩
    | .cancel :: events =>
      some ⟨.work, pulling { reading with events }, { shared with cancelled := true }⟩
    | .crash :: _ => some ⟨.work, crashed reading.scoreId, shared⟩
  | checking reading pulled, shared =>
    if shared.cancelled then
      some ⟨.work, sending (reading.scoreId, .error .cancelled), shared⟩
    else match pulled with
      | some (.ok value) =>
        some ⟨.work, pulling { reading with rows := reading.rows.push value }, shared⟩
      | some (.error cause) =>
        some ⟨.work, sending (reading.scoreId, .error (.source cause)), shared⟩
      | none =>
        let summary := reading.rows.summary request.engine.settings
        some ⟨.work, sending (reading.scoreId, .ok summary), shared⟩
  | sending answer, shared =>
    some ⟨.send answer, idle, { shared with channel := shared.channel ++ [answer] }⟩
  | stopped, _ => none
  | crashed _, _ => none

namespace Pool

/-- One worker moves. -/
inductive Step : Pool α → Action α → Pool α → Prop
  | move {before after : List (Worker α)} {worker : Worker α} {shared : Shared α} {move : Move α}
    (hmove : worker.move? request shared = some move) :
    Step ⟨before ++ worker :: after, shared⟩ move.action
      ⟨before ++ move.worker :: after, move.shared⟩

/-- What the pool of a request can show and become, whichever workers move. -/
inductive Run : List (Action α) → Pool α → Prop
  | start : Run [] (start request)
  | step {trace : List (Action α)} {pool next : Pool α} {action : Action α}
    (hrun : Run trace pool) (hstep : Step request pool action next) :
    Run (trace ++ [action]) next

end Pool

end Moves

end Scorebook

import Mathlib.Algebra.Order.Ring.Nat
import Scorebook.Workers

/-!
# What the moves of a pool keep

Scores go from the queue to a worker and from the worker to the channel. At any time the scores
that were taken are those that were answered together with those that some worker holds, whoever
moved. Each move uses up some work, so that no run is longer than the work there is at first, and
a worker that has not come to its end can move.
-/

namespace Scorebook

variable {α : Type} {request : Request}

/-- The score that a worker has taken and not answered. -/
def Worker.held : Worker α → List String
  | opening scoreId | crashed scoreId => [scoreId]
  | pulling reading | checking reading _ => [reading.scoreId]
  | sending answer => [answer.1]
  | idle | stopped => []

/-- The events that are not used yet: in front the last one that was pulled. Behind the end of a
stream there are none. -/
def Reading.unused (reading : Reading α) :
    Option (Except SourceFault ScoredRow) → List (Event ScoredRow)
  | some (.ok value) => .row value :: reading.events
  | some (.error cause) => .fault cause :: reading.events
  | none => []

/-- The moves that a score needs at most, and one more to find the queue empty. -/
def Request.work (request : Request) (scoreId : String) : Nat :=
  match request.engine.opened (request.population scoreId) with
  | .error _ => 3
  | .ok (_, events) => 2 * events.length + 5

/-- The moves that a worker makes at most if it finds the queue empty after the score it holds. -/
def Worker.work (request : Request) : Worker α → Nat
  | idle => 1
  | opening scoreId => request.work scoreId
  | pulling reading => 2 * reading.events.length + 4
  | checking reading pulled => 2 * (reading.unused pulled).length + 3
  | sending _ => 2
  | stopped | crashed _ => 0

/-- The moves that are left at most. -/
def Pool.work (request : Request) (pool : Pool α) : Nat :=
  (pool.shared.queue.map request.work).sum + (pool.workers.map (Worker.work request)).sum

variable [Arithmetic α]

section Moves

variable {worker : Worker α} {shared : Shared α} {move : Move α}
  (hmove : worker.move? request shared = some move)

include hmove

/-- A move takes from the front of the queue, and what it sends arrives behind everything else in
the channel. -/
theorem Worker.move?_shared : move.action.taken ++ move.shared.queue = shared.queue ∧
    move.shared.channel = shared.channel ++ move.action.sent := by
  revert hmove
  fun_cases Worker.move? request worker shared <;> rintro ⟨⟩ <;>
    simp [Action.taken, Action.sent, *]

/-- A move leaves the flag as it is, unless it pulls a request of cancellation. -/
theorem Worker.move?_cancelled : move.shared.cancelled = shared.cancelled ∨
    ∃ reading events, worker = .pulling reading ∧ reading.events = .cancel :: events ∧
      move.shared.cancelled = true := by
  revert hmove
  fun_cases Worker.move? request worker shared <;> rintro ⟨⟩ <;> simp [*]

/-- An empty queue stays empty. -/
theorem Worker.move?_queue_eq_nil (hempty : shared.queue = []) : move.shared.queue = [] := by
  have hqueue := (Worker.move?_shared hmove).1
  rw [hempty] at hqueue
  exact (List.append_eq_nil_iff.mp hqueue).2

/-- The flag stays set. -/
theorem Worker.move?_cancelled_mono (hset : shared.cancelled = true) :
    move.shared.cancelled = true := by
  rcases Worker.move?_cancelled hmove with hsame | ⟨_, _, _, _, hraised⟩
  · rw [hsame, hset]
  · exact hraised

/-- What a move sends is what the worker was about to send. -/
theorem Worker.move?_sent {answer : ScoreAnswer α} (hsent : answer ∈ move.action.sent) :
    worker = .sending answer := by
  revert hsent hmove
  fun_cases Worker.move? request worker shared <;> rintro ⟨⟩ <;> simp [Action.sent, eq_comm]

/-- A worker holds what it held, with what it takes and without what it answers. -/
theorem Worker.move?_held :
    move.action.sent.map (·.1) ++ move.worker.held = move.action.taken ++ worker.held := by
  revert hmove
  fun_cases Worker.move? request worker shared <;> rintro ⟨⟩ <;>
    simp [held, Action.taken, Action.sent]

/-- A move uses up work. -/
theorem Worker.move?_work :
    (move.shared.queue.map request.work).sum + move.worker.work request <
      (shared.queue.map request.work).sum + worker.work request := by
  revert hmove
  fun_cases Worker.move? request worker shared <;> rintro ⟨⟩ <;>
    simp [work, Request.work, Reading.unused, *] <;> omega

end Moves

/-- A worker can move, unless it has come to its end. -/
theorem Worker.exists_move? (worker : Worker α) (shared : Shared α) :
    (∃ move, worker.move? request shared = some move) ∨
      worker = .stopped ∨ ∃ scoreId, worker = .crashed scoreId := by
  cases hmove : worker.move? request shared with
  | some move => exact Or.inl ⟨move, rfl⟩
  | none =>
    right
    revert hmove
    fun_cases Worker.move? request worker shared <;> simp

namespace Pool

/-- The scores are all accounted for. They were taken or wait in the queue, and those that were
taken were answered or are held by a worker. Scores do not wait without workers. -/
structure Balances (request : Request) (trace : List (Action α)) (pool : Pool α) : Prop where
  taken : trace.flatMap Action.taken ++ pool.shared.queue = request.scoreIds
  answered : ((trace.flatMap Action.sent).map (·.1) ++ pool.workers.flatMap Worker.held).Perm
    (trace.flatMap Action.taken)
  channel : pool.shared.channel = trace.flatMap Action.sent
  unmanned : pool.workers = [] → request.scoreIds = []

omit [Arithmetic α] in
theorem balances_start : (start request : Pool α).Balances request [] where
  taken := rfl
  answered := by simp [start, List.flatMap_replicate, Worker.held]
  channel := rfl
  unmanned := by
    intro hworkers
    have hlength := congrArg List.length hworkers
    rw [start, List.length_replicate, List.length_nil] at hlength
    exact List.eq_nil_of_length_eq_zero (by omega)

/-- A step keeps the balance, because the worker that moves answers what it no longer holds, and
holds what it has taken. -/
theorem Balances.step {trace : List (Action α)} {pool next : Pool α} {action : Action α}
    (hbalances : pool.Balances request trace) (hstep : Step request pool action next) :
    next.Balances request (trace ++ [action]) := by
  cases hstep with
  | @move before after worker shared move hmove =>
    obtain ⟨htaken, hanswered, hchannel, -⟩ := hbalances
    obtain ⟨hqueue, hsent⟩ := Worker.move?_shared hmove
    have hheld := Worker.move?_held hmove
    refine ⟨?_, List.perm_iff_count.mpr fun scoreId => ?_, ?_, by simp⟩
    · simpa [List.append_assoc, hqueue] using htaken
    -- Counted for one score, what the worker answers and then holds is what it takes and held.
    · have hmoved := congrArg (List.count scoreId) hheld
      have hbefore := hanswered.count_eq scoreId
      simp only [List.flatMap_append, List.flatMap_cons, List.flatMap_nil, List.append_nil,
        List.map_append, List.count_append] at hmoved hbefore ⊢
      omega
    · simpa [hsent] using hchannel

omit [Arithmetic α] in
/-- Workers hold listed scores only. -/
theorem Balances.held_listed {trace : List (Action α)} {pool : Pool α} {worker : Worker α}
    (hbalances : pool.Balances request trace) (hworker : worker ∈ pool.workers) :
    ∀ scoreId ∈ worker.held, scoreId ∈ request.scoreIds := by
  intro scoreId hscore
  have hheld : scoreId ∈ pool.workers.flatMap Worker.held :=
    List.mem_flatMap.mpr ⟨worker, hworker, hscore⟩
  have htaken : scoreId ∈ trace.flatMap Action.taken :=
    hbalances.answered.subset (List.mem_append_right _ hheld)
  rw [← hbalances.taken]
  exact List.mem_append_left _ htaken

/-- However the workers move, the scores are accounted for. -/
theorem Run.balances {trace : List (Action α)} {pool : Pool α} (hrun : Run request trace pool) :
    pool.Balances request trace := by
  induction hrun with
  | start => exact balances_start
  | step hrun hstep ih => exact ih.step hstep

/-- A step uses up work. -/
theorem Step.work_lt {pool next : Pool α} {action : Action α}
    (hstep : Step request pool action next) :
    next.work request < pool.work request := by
  cases hstep with
  | @move before after worker shared move hmove =>
    have hmoved := Worker.move?_work hmove
    simp only [work, List.map_append, List.map_cons, List.sum_append, List.sum_cons]
    omega

/-- The moves that were made and those that are left are no more than those at the start. -/
theorem Run.length_add_work_le {trace : List (Action α)} {pool : Pool α}
    (hrun : Run request trace pool) :
    trace.length + pool.work request ≤ (Pool.start request : Pool α).work request := by
  induction hrun with
  | start => exact Nat.le_of_eq (Nat.zero_add _)
  | step hrun hstep ih =>
    have hlt := hstep.work_lt
    rw [List.length_append, List.length_singleton]
    omega

/-- As long as a pool is not finished some worker can move. -/
theorem exists_step {pool : Pool α} (hunfinished : ¬pool.Finished) :
    ∃ action next, Step request pool action next := by
  obtain ⟨workers, shared⟩ := pool
  obtain ⟨worker, hworker⟩ := Classical.not_forall.mp hunfinished
  obtain ⟨hmem, hlive⟩ := Classical.not_imp.mp hworker
  obtain ⟨before, after, rfl⟩ : ∃ before after, workers = before ++ worker :: after :=
    List.append_of_mem hmem
  rcases worker.exists_move? shared with ⟨move, hmove⟩ | hend
  · exact ⟨_, _, .move hmove⟩
  · exact absurd hend hlive

/-- Every run can be completed. -/
theorem Run.complete {trace : List (Action α)} {pool : Pool α} (hrun : Run request trace pool) :
    ∃ more last, Run request (trace ++ more) last ∧ last.Finished := by
  induction hwork : pool.work request using Nat.strongRecOn generalizing trace pool with
  | ind work ih =>
    by_cases hfinished : pool.Finished
    · exact ⟨[], pool, by simpa using hrun, hfinished⟩
    · obtain ⟨action, next, hstep⟩ := exists_step hfinished
      have hlt : next.work request < work := hwork ▸ hstep.work_lt
      obtain ⟨more, last, hlast, hend⟩ := ih _ hlt (hrun.step hstep) rfl
      exact ⟨action :: more, last, by simpa using hlast, hend⟩

end Pool

end Scorebook

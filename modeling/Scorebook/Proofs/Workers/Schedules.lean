import Scorebook.Proofs.Workers.Answers

/-!
# Every schedule has the same report

However the moves of the workers interleave, they come to an end, and the report that is assembled
then is the one of computing the scores one after another. The answers of the scores may differ
between schedules, but only where some score is cancelled in every schedule, and then no report is
left in any of them.
-/

namespace Scorebook

variable {α : Type} [Arithmetic α] {request : Request}

namespace Request

section Sequential

variable {cancelled : Cancelled} (hcrash : request.engine.source.NeverCrashes)
  (hflags : request.Flags α cancelled)

include hcrash hflags

/-- Whatever the flag can be when a population is computed, the answer is one that the score can
have, and the flag is left as it can be. -/
theorem settles_population {scoreId : String} (hlisted : scoreId ∈ request.scoreIds) :
    request.Settles (α := α)
        (scoreId, (request.engine.population cancelled (request.population scoreId)).1) ∧
      request.Flags α
        (request.engine.population (α := α) cancelled (request.population scoreId)).2 := by
  rw [Engine.population_eq_verdict hcrash]
  cases hopened : request.engine.opened (request.population scoreId) with
  | error fault => exact ⟨Or.inl (alone_of_unopened hopened), hflags⟩
  | ok found =>
    obtain ⟨definition, events⟩ := found
    have halone := alone_eq_verdict (α := α) hcrash hopened
    cases cancelled with
    | true =>
      have hverdict : verdict true events = .error .cancelled :=
        verdict_of_cancelledBy (cancelledBy_true events)
      refine ⟨?_, hflags⟩
      rcases hflags.raised rfl with hcancelled | hcancels
      · exact Or.inl (by rw [halone, hcancelled])
      · exact Or.inr ⟨by simp only [hverdict, Except.map], hcancels⟩
    | false =>
      rw [hflags.cancelled_eq_false] at halone
      refine ⟨Or.inl halone, fun h => ?_, fun hcancelled => Or.inr ⟨scoreId, hlisted, ?_⟩⟩
      · cases hflags.kept h
      · rw [halone, verdict_of_cancelledBy hcancelled]
        rfl

/-- Computed one after another, the scores have answers that they can have. -/
theorem settles_answers {scoreIds : List String}
    (hlisted : ∀ scoreId ∈ scoreIds, scoreId ∈ request.scoreIds) :
    ∀ answer ∈ (request.engine.answers (α := α) request.evaluationId request.scope cancelled
      scoreIds).1, request.Settles answer := by
  induction scoreIds generalizing cancelled with
  | nil => simp [Engine.answers]
  | cons scoreId rest ih =>
    -- The flag that one population leaves is the one that the next starts with.
    obtain ⟨hfirst, hflags'⟩ := settles_population hcrash hflags (hlisted scoreId (by simp))
    have hrest := ih hflags' fun id hid => hlisted id (List.mem_cons_of_mem _ hid)
    simp only [Engine.answers]
    exact List.forall_mem_cons.mpr ⟨hfirst, hrest⟩

end Sequential

/-- No score can be answered with a crash. -/
theorem Settles.not_isCrash (hcrash : request.engine.source.NeverCrashes)
    {answer : ScoreAnswer α} (hsettles : request.Settles answer) :
    Engine.isCrash answer = false := by
  obtain ⟨scoreId, result⟩ := answer
  rcases hsettles with halone | ⟨rfl, -⟩
  · obtain rfl : result = request.alone scoreId := halone.symm
    exact Engine.not_isCrash_population hcrash _ _ _
  · rfl

section Assembly

variable {answers : List (ScoreAnswer α)} (hcrash : request.engine.source.NeverCrashes)
  (hscores : (answers.map (·.1)).Perm request.scoreIds)
  (hsettles : ∀ answer ∈ answers, request.Settles answer)

include hcrash hscores hsettles

/-- If some score is cancelled when no other is computed, its answer is a cancellation in any case,
and there is no report. -/
theorem assemble_of_cancels (hcancels : request.Cancels α) :
    Engine.assemble request.evaluationId request.scope answers = .error .cancelled := by
  have hwhole : answers.any Engine.isCrash = false :=
    List.any_eq_false.mpr fun answer hanswer => by
      simp [(hsettles answer hanswer).not_isCrash hcrash]
  have hstopped : answers.any Engine.isCancelled = true := by
    obtain ⟨scoreId, hlisted, halone⟩ := hcancels
    obtain ⟨answer, hanswer, rfl⟩ := List.mem_map.mp (hscores.mem_iff.mpr hlisted)
    have hcancelled : answer.2 = .error .cancelled := by
      rcases hsettles answer hanswer with hsame | ⟨hcancelled, -⟩
      · rw [← hsame, halone]
      · exact hcancelled
    exact List.any_eq_true.mpr ⟨answer, hanswer, Engine.isCancelled_iff.mpr hcancelled⟩
  rw [Engine.assemble_eq, hwhole, hstopped]
  rfl

/-- If no score is cancelled when no other is computed, all have the answers they have then. Their
order does not matter. -/
theorem assemble_of_not_cancels (hnodup : request.scoreIds.Nodup)
    (hcancels : ¬request.Cancels α) :
    Engine.assemble request.evaluationId request.scope answers =
      .ok (.ofAnswers request.evaluationId request.scope
        (request.scoreIds.map fun scoreId => (scoreId, request.alone scoreId))) := by
  have hsame : ∀ answer ∈ answers, (answer.1, request.alone answer.1) = answer := by
    intro answer hanswer
    rcases hsettles answer hanswer with halone | ⟨-, h⟩
    · rw [halone]
    · exact absurd h hcancels
  have hperm : answers.Perm (request.scoreIds.map fun id => (id, request.alone id)) := by
    have hmapped := hscores.map fun id => (id, request.alone (α := α) id)
    have hanswers : answers.map (fun answer => (answer.1, request.alone answer.1)) = answers := by
      simpa using List.map_congr_left hsame
    rw [List.map_map] at hmapped
    exact hanswers ▸ hmapped
  refine (Engine.assemble_eq_ok_iff _ _ _ _).mpr ⟨fun answer hanswer => ⟨?_, ?_⟩, ?_⟩
  · exact (hsettles answer hanswer).not_isCrash hcrash
  · refine Bool.eq_false_iff.mpr fun hcancelled => hcancels ⟨answer.1, ?_, ?_⟩
    · exact hscores.subset (List.mem_map_of_mem hanswer)
    · rw [← Engine.isCancelled_iff.mp hcancelled, ← hsame answer hanswer]
  · exact (Report.ofAnswers_eq_of_perm hnodup hperm).symm

/-- Whichever of the answers that they can have the scores have, and in whatever order, what is
reported of them is the same. -/
theorem assemble_eq (hnodup : request.scoreIds.Nodup) {others : List (ScoreAnswer α)}
    (hscores' : (others.map (·.1)).Perm request.scoreIds)
    (hsettles' : ∀ answer ∈ others, request.Settles answer) :
    Engine.assemble request.evaluationId request.scope answers =
      Engine.assemble request.evaluationId request.scope others := by
  by_cases hcancels : request.Cancels α
  · rw [assemble_of_cancels hcrash hscores hsettles hcancels,
      assemble_of_cancels hcrash hscores' hsettles' hcancels]
  · rw [assemble_of_not_cancels hcrash hscores hsettles hnodup hcancels,
      assemble_of_not_cancels hcrash hscores' hsettles' hnodup hcancels]

end Assembly

/-- The statistics of a scope are assembled from the answers of computing one score after
another. -/
theorem statistics_eq_assemble (request : Request) :
    (request.engine.statistics (α := α) request.cancelled request.evaluationId request.scope).1 =
      Engine.assemble request.evaluationId request.scope
        (request.engine.answers request.evaluationId request.scope request.cancelled
          request.scoreIds).1 := by
  simp only [Engine.statistics, request.listed]

/-- Computed one after another, the scores are answered in the order in which they are listed. -/
theorem map_fst_answers (engine : Engine) (evaluationId : String) (scope : Scope)
    (cancelled : Cancelled) (scoreIds : List String) :
    (engine.answers (α := α) evaluationId scope cancelled scoreIds).1.map (·.1) = scoreIds := by
  induction scoreIds generalizing cancelled with
  | nil => rfl
  | cons scoreId rest ih => simp only [Engine.answers, List.map_cons, ih]

end Request

namespace Pool

variable {trace : List (Action α)} {pool : Pool α}

section Finished

variable (hcrash : request.engine.source.NeverCrashes) (hrun : Run request trace pool)
  (hfinished : pool.Finished)

include hcrash hrun hfinished

/-- The workers of a finished pool have stopped. -/
theorem Run.stopped : ∀ worker ∈ pool.workers, worker = .stopped := by
  intro worker hworker
  rcases hfinished worker hworker with hstopped | ⟨scoreId, rfl⟩
  · exact hstopped
  · exact ((hrun.sound hcrash).workers _ hworker).elim

/-- No score is left in the queue of a finished pool. -/
theorem Run.queue_eq_nil : pool.shared.queue = [] := by
  have hbalances := hrun.balances
  cases hworkers : pool.workers with
  | nil =>
    have hnone := hbalances.taken.trans (hbalances.unmanned hworkers)
    exact (List.append_eq_nil_iff.mp hnone).2
  | cons worker others =>
    have hmem : worker ∈ pool.workers := by simp [hworkers]
    have hsound := (hrun.sound hcrash).workers worker hmem
    rwa [hrun.stopped hcrash hfinished worker hmem] at hsound

/-- In a finished pool each score was taken, in the order in which the scores are listed. -/
theorem Run.taken_eq : trace.flatMap Action.taken = request.scoreIds := by
  simpa [hrun.queue_eq_nil hcrash hfinished] using hrun.balances.taken

/-- In a finished pool each score was answered once. -/
theorem Run.answered_perm :
    ((trace.flatMap Action.sent).map (·.1)).Perm request.scoreIds := by
  have hheld : pool.workers.flatMap Worker.held = [] := by
    refine List.flatMap_eq_nil_iff.mpr fun worker hworker => ?_
    rw [hrun.stopped hcrash hfinished worker hworker]
    rfl
  simpa [hheld, hrun.taken_eq hcrash hfinished] using hrun.balances.answered

/-- The report of a finished pool is assembled from what it has sent. -/
theorem Run.report_eq : pool.report request =
    Engine.assemble request.evaluationId request.scope (trace.flatMap Action.sent) := by
  have hcrashed : pool.hasCrashed = false :=
    List.any_eq_false.mpr fun worker hworker => by
      simp [hrun.stopped hcrash hfinished worker hworker]
  have hwhole : pool.shared.channel.any Engine.isCrash = false :=
    List.any_eq_false.mpr fun answer hanswer => by
      simp [((hrun.sound hcrash).channel answer hanswer).not_isCrash hcrash]
  rw [← hrun.balances.channel, report, hcrashed, Engine.assemble, hwhole]

end Finished

/-- The statistics of a scope do not depend on how the moves of the workers interleave. No run
goes on for ever, and as long as it is not finished some worker can move. When it is finished each
score was taken once, in the order in which the scores are listed, and answered once, and what is
reported is what one gets by computing the scores one after another. -/
theorem runs_report_statistics (request : Request) (hnodup : request.scoreIds.Nodup)
    (hcrash : request.engine.source.NeverCrashes) :
    (∃ bound, ∀ (trace : List (Action α)) (pool : Pool α),
      Run request trace pool → trace.length ≤ bound) ∧
    ∀ (trace : List (Action α)) (pool : Pool α), Run request trace pool →
      (pool.Finished ∨ ∃ action next, Step request pool action next) ∧
      (pool.Finished →
        trace.flatMap Action.taken = request.scoreIds ∧
        ((trace.flatMap Action.sent).map (·.1)).Perm request.scoreIds ∧
        pool.report request =
          (request.engine.statistics request.cancelled request.evaluationId request.scope).1) := by
  refine ⟨⟨(Pool.start request : Pool α).work request, fun trace pool hrun => ?_⟩,
    fun trace pool hrun => ⟨?_, fun hfinished => ⟨?_, ?_, ?_⟩⟩⟩
  · have hbound := hrun.length_add_work_le
    omega
  · by_cases hfinished : pool.Finished
    · exact Or.inl hfinished
    · exact Or.inr (exists_step hfinished)
  · exact hrun.taken_eq hcrash hfinished
  · exact hrun.answered_perm hcrash hfinished
  · rw [hrun.report_eq hcrash hfinished, Request.statistics_eq_assemble]
    refine Request.assemble_eq hcrash (hrun.answered_perm hcrash hfinished) ?_ hnodup ?_ ?_
    · rw [← hrun.balances.channel]
      exact (hrun.sound hcrash).channel
    · rw [Request.map_fst_answers]
    · exact Request.settles_answers hcrash ⟨id, Or.inl⟩ fun _ hlisted => hlisted

/-- Two workers, and a score whose stream requests cancellation behind its last row. Whether the
other score is still summarized depends on the schedule, and what is reported does not. -/
theorem runs_report_statistics_cancelled :
    let source : ScoreSource := {
      scoreIds := fun _ _ => .ok ["topic", "late"]
      rows := fun population =>
        .ok (.row ⟨1, .label "x"⟩ :: if population.scoreId = "late" then [.cancel] else []) }
    let settings : Settings := { Settings.standard with maxWorkers := 2 }
    let engine : Engine := ⟨fun id => .ok (.nominal id none), source, settings⟩
    let request : Request := ⟨engine, "eval", .dataset, false, ["topic", "late"], rfl⟩
    request.scoreIds.Nodup ∧ request.engine.source.NeverCrashes ∧
    (Pool.start request : Pool Float).workers.length = 2 ∧
    ∃ (trace : List (Action Float)) (pool : Pool Float), Run request trace pool ∧ pool.Finished ∧
      trace.flatMap Action.taken = ["topic", "late"] ∧
      pool.report request = .error .cancelled := by
  intro source settings engine request
  have hnodup : request.scoreIds.Nodup := by decide
  have hcrash : request.engine.source.NeverCrashes := by
    rintro population events ⟨⟩
    grind
  have hstart : Run (α := Float) request [] (Pool.start request) := .start
  obtain ⟨trace, pool, hrun, hfinished⟩ := hstart.complete
  obtain ⟨htaken, -, hreport⟩ :=
    ((runs_report_statistics request hnodup hcrash).2 trace pool hrun).2 hfinished
  exact ⟨hnodup, hcrash, rfl, trace, pool, hrun, hfinished, htaken, hreport⟩

end Pool

end Scorebook

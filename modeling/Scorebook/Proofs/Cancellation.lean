import Scorebook.Proofs.Statistics

/-!
# Requests after a cancellation

Once cancellation is requested no population is summarized and no experiments are compared any
more. A request for the statistics of a scope fails as soon as one of the listed populations can be
opened. It still succeeds if none can, because the flag is only looked at while a stream is read;
its report then has no entries.
-/

namespace Scorebook

/-- A pass that starts cancelled gives no result: it reports the cancellation, or the source breaks
down on the first pull. -/
theorem pass_true_cases {σ β : Type} (step : σ → β → σ) (sample : σ) (events : List (Event β)) :
    pass step sample true events = (.error .cancelled, true) ∨
      pass step sample true events = (.error (.workerCrashed crashReason), true) := by
  induction events with
  | nil => simp [pass]
  | cons event rest ih => cases event <;> simp [pass, ih]

/-- An outcome that leaves no report: a cancellation or a crash, with the flag set. -/
def Stopped {τ : Type} (outcome : Except EngineFault τ × Cancelled) : Prop :=
  outcome = (.error .cancelled, true) ∨ outcome = (.error (.workerCrashed crashReason), true)

/-- A finished pass that starts cancelled is stopped. -/
theorem finish_pass_stopped {σ τ β : Type} (f : σ → τ) (step : σ → β → σ) (sample : σ)
    (events : List (Event β)) : Stopped (finish f (pass step sample true events)) := by
  rcases pass_true_cases step sample events with h | h
  · exact Or.inl (by rw [h]; rfl)
  · exact Or.inr (by rw [h]; rfl)

theorem Stopped.ne_ok {τ : Type} {outcome : Except EngineFault τ × Cancelled}
    (h : Stopped outcome) (result : τ) : outcome.1 ≠ .ok result := by
  rcases h with rfl | rfl <;> simp

variable {α : Type} [Arithmetic α] (definition : Definition) (settings : Settings)

/-- No population is summarized after a cancellation. -/
theorem summarize_stopped (events : List (Event ScoredRow)) :
    Stopped (summarize (α := α) definition settings true events) := by
  cases htype : definition.scoringType <;> simp only [summarize, htype] <;>
    exact finish_pass_stopped _ _ _ _

/-- No experiments are compared after a cancellation. -/
theorem compareExperiments_stopped [TailTable α] (experimentA experimentB : String)
    (events : List (Event PairedRow)) :
    Stopped (compareExperiments (α := α) definition experimentA experimentB settings true
      events) := by
  have hrows : Stopped (compareRows (α := α) definition settings true events) := by
    cases htype : definition.scoringType <;> simp only [compareRows, htype] <;>
      exact finish_pass_stopped _ _ _ _
  rcases hrows with h | h
  · exact Or.inl (by rw [compareExperiments, h]; rfl)
  · exact Or.inr (by rw [compareExperiments, h]; rfl)

namespace Engine

variable (engine : Engine) (evaluationId : String) (scope : Scope)

/-- After a cancellation a population is answered with the reason why it cannot be opened, or its
pass is stopped. -/
theorem population_true_cases (population : Population) :
    (∃ fault, engine.opened population = .error fault ∧
      engine.population (α := α) true population = (.error fault, true)) ∨
    ((∃ found, engine.opened population = .ok found) ∧
      Stopped (engine.population (α := α) true population)) := by
  rw [population_eq_opened]
  cases hopened : engine.opened population with
  | error fault => exact Or.inl ⟨fault, rfl, rfl⟩
  | ok found => exact Or.inr ⟨⟨found, rfl⟩, summarize_stopped _ _ _⟩

/-- After a cancellation no population is summarized. -/
theorem population_true_ne_ok (population : Population) (summary : Summary α) :
    (engine.population true population).1 ≠ .ok summary := by
  rcases population_true_cases (α := α) engine population with ⟨fault, -, h⟩ | ⟨-, h⟩
  · simp [h]
  · exact h.ne_ok summary

/-- After a cancellation no experiments are compared. -/
theorem comparison_true_ne_ok [TailTable α] (experimentA experimentB scoreId : String)
    (comparison : Comparison α) :
    (engine.comparison true evaluationId experimentA experimentB scoreId).1 ≠ .ok comparison := by
  unfold Engine.comparison
  split
  · simp
  · split
    · simp
    · exact (compareExperiments_stopped _ _ _ _ _).ne_ok comparison

/-- After a cancellation the answers of a request are those of the single populations. -/
theorem answers_true (scoreIds : List String) :
    engine.answers (α := α) evaluationId scope true scoreIds =
      (scoreIds.map fun scoreId =>
        (scoreId, (engine.population true ⟨evaluationId, scoreId, scope⟩).1), true) := by
  refine answers_eq_map fun scoreId _ => ?_
  rcases population_true_cases (α := α) engine ⟨evaluationId, scoreId, scope⟩ with
    ⟨fault, -, h⟩ | ⟨-, h | h⟩ <;> rw [h]

/-- The answer of a population ends the whole request exactly if the population can be opened. -/
theorem ends_iff_opened (scoreId : String) :
    let answer : ScoreAnswer α :=
      (scoreId, (engine.population true ⟨evaluationId, scoreId, scope⟩).1)
    (isCrash answer = false ∧ isCancelled answer = false) ↔
      ∃ fault, engine.opened ⟨evaluationId, scoreId, scope⟩ = .error fault := by
  intro answer
  rcases population_true_cases (α := α) engine ⟨evaluationId, scoreId, scope⟩ with
    ⟨fault, hopened, h⟩ | ⟨⟨found, hopened⟩, h⟩
  · have hanswer : answer = (scoreId, .error fault) := by simp only [answer, h]
    rw [hanswer]
    exact iff_of_true (not_ends_of_opened hopened scoreId) ⟨fault, hopened⟩
  · refine iff_of_false ?_ (by simp [hopened])
    rcases h with h | h <;> simp [answer, h, isCrash, isCancelled]

/-- A request for statistics after a cancellation succeeds exactly if the scores can be listed and
none of their populations can be opened. -/
theorem statistics_true_eq_ok_iff (report : Report α) :
    (engine.statistics true evaluationId scope).1 = .ok report ↔
      ∃ scoreIds, engine.source.scoreIds evaluationId scope = .ok scoreIds ∧
        (∀ scoreId ∈ scoreIds, ∃ fault,
          engine.opened ⟨evaluationId, scoreId, scope⟩ = .error fault) ∧
        report = .ofAnswers evaluationId scope (scoreIds.map fun scoreId =>
          (scoreId, (engine.population true ⟨evaluationId, scoreId, scope⟩).1)) := by
  cases hlisted : engine.source.scoreIds evaluationId scope with
  | error cause => simp [statistics, hlisted]
  | ok scoreIds =>
    simp only [statistics, hlisted, answers_true, assemble_eq_ok_iff, List.forall_mem_map,
      ends_iff_opened, Except.ok.injEq, exists_eq_left']

/-- The report of populations that cannot be opened has no entries. -/
theorem entries_of_unopened {scoreIds : List String}
    (hunopened : ∀ scoreId ∈ scoreIds, ∃ fault,
      engine.opened ⟨evaluationId, scoreId, scope⟩ = .error fault) :
    (Report.ofAnswers evaluationId scope (scoreIds.map fun scoreId =>
      (scoreId, (engine.population (α := α) true ⟨evaluationId, scoreId, scope⟩).1))).entries =
        [] := by
  have hnone : (scoreIds.filterMap fun scoreId => ReportEntry.ofAnswer? scope
      (scoreId, (engine.population (α := α) true ⟨evaluationId, scoreId, scope⟩).1)) = [] := by
    refine List.filterMap_eq_nil_iff.mpr fun scoreId hscore => ?_
    obtain ⟨fault, hopened⟩ := hunopened scoreId hscore
    rw [population_eq_opened, hopened]
    rfl
  rw [Report.entries_ofAnswers, hnone, List.mergeSort_nil]

/-- After a cancellation no population is summarized and no experiments are compared. A request for the
statistics of a scope succeeds exactly if the scores can be listed and none of their populations can
be opened, and its report then has no entries. -/
theorem cancelled_requests_give_no_statistics [TailTable α] :
    (∀ (population : Population) (summary : Summary α),
      (engine.population true population).1 ≠ .ok summary) ∧
    (∀ (evaluationId experimentA experimentB scoreId : String) (comparison : Comparison α),
      (engine.comparison true evaluationId experimentA experimentB scoreId).1 ≠ .ok comparison) ∧
    ∀ (evaluationId : String) (scope : Scope),
      ((∃ report : Report α, (engine.statistics true evaluationId scope).1 = .ok report) ↔
        ∃ scoreIds, engine.source.scoreIds evaluationId scope = .ok scoreIds ∧
          ∀ scoreId ∈ scoreIds, ∃ fault,
            engine.opened ⟨evaluationId, scoreId, scope⟩ = .error fault) ∧
      ∀ report : Report α, (engine.statistics true evaluationId scope).1 = .ok report →
        report.entries = [] := by
  refine ⟨population_true_ne_ok engine, fun evaluationId => comparison_true_ne_ok engine evaluationId,
    fun evaluationId scope => ?_⟩
  simp only [statistics_true_eq_ok_iff]
  constructor
  · constructor
    · rintro ⟨report, scoreIds, hlisted, hunopened, -⟩
      exact ⟨scoreIds, hlisted, hunopened⟩
    · rintro ⟨scoreIds, hlisted, hunopened⟩
      exact ⟨_, scoreIds, hlisted, hunopened, rfl⟩
  · rintro report ⟨scoreIds, -, hunopened, rfl⟩
    exact entries_of_unopened engine evaluationId scope hunopened

/-- A cancelled request for the statistics of a scope without scores succeeds all the same: it is
answered before the flag is looked at. -/
theorem statistics_of_no_scores_ignore_cancellation :
    ¬∀ engine : Engine, engine.source.NeverCrashes → ∀ (evaluationId : String) (scope : Scope),
      (∀ (scoreId : String) (summary : Summary Float),
        (engine.population true ⟨evaluationId, scoreId, scope⟩).1 ≠ .ok summary) ∧
      (∀ (experimentA experimentB scoreId : String) (comparison : Comparison Float),
        (engine.comparison true evaluationId experimentA experimentB scoreId).1 ≠
          .ok comparison) ∧
      ∀ report : Report Float, (engine.statistics true evaluationId scope).1 ≠ .ok report := by
  intro h
  let source : ScoreSource := ⟨fun _ _ => .ok [], fun _ => .ok []⟩
  have hcrash : source.NeverCrashes := by
    rintro population events ⟨⟩
    simp
  exact (h ⟨fun id => .error (.notFound id), source, .standard⟩ hcrash "eval" .dataset).2.2 _ rfl

end Engine

end Scorebook

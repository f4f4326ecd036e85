import Scorebook.Proofs.Passes
import Scorebook.Proofs.Reports

/-!
# The statistics of a scope

A request for statistics answers one population after another. As long as no cancellation is
requested the answers do not depend on each other, and the report accounts for exactly the
scores that the source lists. What a report says of a score thereby depends on the definition and
the rows of that score only.
-/

namespace Scorebook

namespace ScoreSource

/-- No stream of the source breaks down. -/
def NeverCrashes (source : ScoreSource) : Prop :=
  ∀ population events, source.rows population = .ok events → Event.crash ∉ events

/-- No stream of the source requests cancellation. -/
def NeverCancels (source : ScoreSource) : Prop :=
  ∀ population events, source.rows population = .ok events → Event.cancel ∉ events

end ScoreSource

namespace Engine

variable {α : Type} {engine : Engine} {population : Population} {evaluationId : String}
  {scope : Scope}

/-- The stream of an opened population is the one that the source gives. -/
theorem rows_of_opened {definition : Definition} {events : List (Event ScoredRow)}
    (h : engine.opened population = .ok (definition, events)) :
    engine.source.rows population = .ok events := by
  unfold opened at h
  grind

/-- The reason why a population cannot be opened does not end a whole request. -/
theorem not_ends_of_opened {fault : EngineFault} (h : engine.opened population = .error fault)
    (scoreId : String) :
    isCrash ((scoreId, .error fault) : ScoreAnswer α) = false ∧
      isCancelled ((scoreId, .error fault) : ScoreAnswer α) = false := by
  unfold opened at h
  split at h
  · obtain rfl := Except.error.inj h
    exact ⟨rfl, rfl⟩
  · split at h
    · obtain rfl := Except.error.inj h
      exact ⟨rfl, rfl⟩
    · cases h

variable [Arithmetic α]

/-- A population that cannot be opened is answered with the reason, and any other is summarized. -/
theorem population_eq_opened (engine : Engine) (cancelled : Cancelled) (population : Population) :
    engine.population (α := α) cancelled population =
      match engine.opened population with
      | .error fault => (.error fault, cancelled)
      | .ok (definition, events) => summarize definition engine.settings cancelled events := by
  unfold Engine.population opened
  grind

/-- On a source whose streams do not break down, an opened population is answered with the verdict
on its stream. -/
theorem population_eq_verdict (hcrash : engine.source.NeverCrashes) (cancelled : Cancelled)
    (population : Population) :
    engine.population (α := α) cancelled population =
      match engine.opened population with
      | .error fault => (.error fault, cancelled)
      | .ok (definition, events) =>
        ((verdict cancelled events).map (Summary.ofRows definition engine.settings),
          cancelledBy cancelled events) := by
  rw [population_eq_opened]
  split
  · rfl
  · rename_i definition events hopened
    exact summarize_eq_verdict _ _ _ (hcrash _ _ (rows_of_opened hopened))

/-- No answer is a crash if no stream breaks down. -/
theorem not_isCrash_population (hcrash : engine.source.NeverCrashes) (cancelled : Cancelled)
    (population : Population) (scoreId : String) :
    isCrash (α := α) (scoreId, (engine.population cancelled population).1) = false := by
  rw [population_eq_verdict hcrash]
  split
  · rename_i fault hopened
    exact (not_ends_of_opened hopened scoreId).1
  · rename_i definition events hopened
    cases hverdict : verdict cancelled events with
    | ok rows => rfl
    | error fault =>
      cases fault with
      | workerCrashed reason => exact absurd hverdict (verdict_ne_crash _ _ _)
      | _ => rfl

/-- Where no stream requests cancellation, an uncancelled request leaves the flag as it is, and
the answer is no cancellation. -/
theorem population_uncancelled (hcrash : engine.source.NeverCrashes)
    (hcancel : engine.source.NeverCancels) (population : Population) (scoreId : String) :
    (engine.population (α := α) false population).2 = false ∧
      isCancelled (α := α) (scoreId, (engine.population false population).1) = false := by
  rw [population_eq_verdict hcrash]
  split
  · rename_i fault hopened
    exact ⟨rfl, (not_ends_of_opened hopened scoreId).2⟩
  · rename_i definition events hopened
    have hflag : cancelledBy false events = false :=
      cancelledBy_of_not_mem (hcancel _ _ (rows_of_opened hopened))
    refine ⟨hflag, ?_⟩
    cases hverdict : verdict false events with
    | ok rows => rfl
    | error fault =>
      cases fault with
      | cancelled => simp [verdict_eq_cancelled_iff, hflag] at hverdict
      | _ => rfl

/-- If no population changes the flag, the answers are those of the single populations. -/
theorem answers_eq_map {cancelled : Cancelled} {scoreIds : List String}
    (hflag : ∀ scoreId ∈ scoreIds,
      (engine.population (α := α) cancelled ⟨evaluationId, scoreId, scope⟩).2 = cancelled) :
    engine.answers evaluationId scope cancelled scoreIds =
      (scoreIds.map fun scoreId =>
        (scoreId, (engine.population (α := α) cancelled ⟨evaluationId, scoreId, scope⟩).1),
        cancelled) := by
  induction scoreIds with
  | nil => rfl
  | cons scoreId rest ih =>
    simp only [answers, hflag scoreId (by simp), ih fun id hid => hflag id (by simp [hid]),
      List.map_cons]

/-- Without crashes and cancellations the statistics of a scope are a report on the answers of
the listed scores. -/
theorem statistics_eq_ofAnswers (hcrash : engine.source.NeverCrashes)
    (hcancel : engine.source.NeverCancels) {scoreIds : List String}
    (hlisted : engine.source.scoreIds evaluationId scope = .ok scoreIds) :
    engine.statistics (α := α) false evaluationId scope =
      (.ok (.ofAnswers evaluationId scope (scoreIds.map fun scoreId =>
        (scoreId, (engine.population false ⟨evaluationId, scoreId, scope⟩).1))), false) := by
  have hflag (scoreId : String) :
      (engine.population (α := α) false ⟨evaluationId, scoreId, scope⟩).2 = false :=
    (population_uncancelled hcrash hcancel _ scoreId).1
  have hanswers := answers_eq_map fun scoreId (_ : scoreId ∈ scoreIds) => hflag scoreId
  simp only [statistics, hlisted, hanswers]
  rw [assemble_eq, if_neg, if_neg]
  · simp [(population_uncancelled hcrash hcancel _ _).2]
  · simp [not_isCrash_population hcrash]

/-- Two engines have the same settings, and for the score of a population the same definition and
the same rows. -/
structure AgreesOn (engine other : Engine) (population : Population) : Prop where
  settings : other.settings = engine.settings
  definition : other.lookup population.scoreId = engine.lookup population.scoreId
  rows : other.source.rows population = engine.source.rows population

/-- Engines that agree on a population answer it alike. -/
theorem AgreesOn.population_eq {other : Engine} (h : engine.AgreesOn other population)
    (cancelled : Cancelled) :
    other.population (α := α) cancelled population = engine.population cancelled population := by
  simp only [Engine.population, h.settings, h.definition, h.rows]

/-- The statistics of a scope succeed when nothing crashes and nothing is cancelled, and the report
accounts for the answers of exactly the listed scores. Whatever else changes in another engine
that answers the request, a score on which the two agree keeps its entry or its failure. -/
theorem statistics_accounts_for_scores (hcrash : engine.source.NeverCrashes)
    (hcancel : engine.source.NeverCancels) {scoreIds : List String}
    (hlisted : engine.source.scoreIds evaluationId scope = .ok scoreIds)
    (hnodup : scoreIds.Nodup) :
    ∃ report : Report α,
      (engine.statistics false evaluationId scope).1 = .ok report ∧
      (report.Accounts scope scoreIds fun scoreId =>
        (engine.population false ⟨evaluationId, scoreId, scope⟩).1) ∧
      ∀ (other : Engine) (otherIds : List String), other.source.NeverCrashes →
        other.source.NeverCancels → other.source.scoreIds evaluationId scope = .ok otherIds →
        otherIds.Nodup →
        ∃ changed : Report α,
          (other.statistics false evaluationId scope).1 = .ok changed ∧
          ∀ scoreId ∈ scoreIds, scoreId ∈ otherIds →
            engine.AgreesOn other ⟨evaluationId, scoreId, scope⟩ →
            changed.entriesOf scoreId = report.entriesOf scoreId ∧
              changed.failuresOf scoreId = report.failuresOf scoreId := by
  refine ⟨_, by rw [statistics_eq_ofAnswers hcrash hcancel hlisted],
    Report.ofAnswers_accounts hnodup, ?_⟩
  intro other otherIds hcrash' hcancel' hlisted' hnodup'
  refine ⟨_, by rw [statistics_eq_ofAnswers hcrash' hcancel' hlisted'], ?_⟩
  intro scoreId hscore hscore' hagrees
  constructor
  · rw [Report.entriesOf_ofAnswers hnodup' hscore', Report.entriesOf_ofAnswers hnodup hscore,
      hagrees.population_eq]
  · rw [Report.failuresOf_ofAnswers hnodup' hscore', Report.failuresOf_ofAnswers hnodup hscore,
      hagrees.population_eq]

/-- A score without a definition, one without rows and one that is summarized, listed in no
order. -/
theorem statistics_accounts_for_scores_mixed :
    let engine : Engine := {
      lookup := fun id => if id = "missing" then .error (.notFound id) else .ok (.nominal id none)
      source := {
        scoreIds := fun _ _ => .ok ["topic", "missing", "empty"]
        rows := fun population =>
          .ok (if population.scoreId = "topic" then [.row ⟨1, .label "x"⟩] else []) }
      settings := .standard }
    engine.source.NeverCrashes ∧ engine.source.NeverCancels ∧
    engine.source.scoreIds "eval" .dataset = .ok ["topic", "missing", "empty"] ∧
    ["topic", "missing", "empty"].Nodup ∧
    ∃ report : Report Float,
      (engine.statistics false "eval" .dataset).1 = .ok report ∧
      (∃ entry, report.entriesOf "topic" = [entry]) ∧
      report.failuresOf "missing" = [⟨"missing", "Score not found: missing", false⟩] ∧
      report.entriesOf "empty" = [] ∧ report.failuresOf "empty" = [] := by
  intro engine
  have hcrash : engine.source.NeverCrashes := by
    rintro population events ⟨⟩
    grind
  have hcancel : engine.source.NeverCancels := by
    rintro population events ⟨⟩
    grind
  have hlisted : engine.source.scoreIds "eval" .dataset = .ok ["topic", "missing", "empty"] := rfl
  have hnodup : ["topic", "missing", "empty"].Nodup := by decide
  obtain ⟨report, hreport, haccounts, -⟩ :=
    statistics_accounts_for_scores (α := Float) hcrash hcancel hlisted hnodup
  refine ⟨hcrash, hcancel, hlisted, hnodup, report, hreport, ?_, ?_, ?_⟩
  · exact ⟨_, (haccounts.entry_iff "topic" (by simp) _).mpr ⟨_, rfl, by decide, rfl⟩⟩
  · exact (haccounts.failure_iff "missing" (by simp) _).mpr
      ⟨.definition (.notFound "missing"), rfl, rfl⟩
  · exact (haccounts.absent_iff "empty" (by simp)).mpr ⟨_, rfl, rfl⟩

end Engine

end Scorebook

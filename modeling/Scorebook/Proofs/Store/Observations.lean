import Scorebook.Arithmetic.Double
import Scorebook.Engine
import Scorebook.Proofs.Join.Stream
import Scorebook.Proofs.Passes
import Scorebook.Proofs.Store.Histories
import Scorebook.Tail.Double

/-!
# What a comparison sees of a store

A comparison of two experiments on a score reads the join of two populations of the store. It
depends on the values of the rows that both experiments have scored, and on nothing else that was
ever written: not on rows of one experiment alone, not on other populations, and not on the order
or the repetition of the writes.
-/

namespace Scorebook

/-- The values that a row has in two experiments after a history of writes, if it has one in
both. -/
def sharedValues? (writes : List Write) (evaluationId scoreId experimentA experimentB : String)
    (key : ℕ) : Option (RawValue × RawValue) :=
  match lastValue? writes ⟨evaluationId, scoreId, .experiment experimentA⟩ key,
    lastValue? writes ⟨evaluationId, scoreId, .experiment experimentB⟩ key with
  | some a, some b => some (a, b)
  | _, _ => none

/-- A row is shared with two values exactly if these are its last values in the experiments. -/
theorem sharedValues?_eq_some_iff {writes : List Write}
    {evaluationId scoreId experimentA experimentB : String} {key : ℕ} {a b : RawValue} :
    sharedValues? writes evaluationId scoreId experimentA experimentB key = some (a, b) ↔
      lastValue? writes ⟨evaluationId, scoreId, .experiment experimentA⟩ key = some a ∧
      lastValue? writes ⟨evaluationId, scoreId, .experiment experimentB⟩ key = some b := by
  unfold sharedValues?
  split
  · rename_i a' b' hA hB
    simp [hA, hB]
  · rename_i hnone
    simp only [reduceCtorEq, false_iff, not_and]
    exact hnone a b

namespace Store

variable (evaluationId scoreId experimentA experimentB : String)

/-- The rows that two experiments have both scored, in ascending order of their keys. -/
def sharedRows (store : Store) : List PairedRow :=
  (mergeRows (store.listed ⟨evaluationId, scoreId, .experiment experimentA⟩)
    (store.listed ⟨evaluationId, scoreId, .experiment experimentB⟩)).pairs

/-- The paired stream of a store brings its shared rows and nothing else. -/
theorem pairedStream_eq_sharedRows (store : Store) :
    store.pairedStream evaluationId scoreId experimentA experimentB =
      (store.sharedRows evaluationId scoreId experimentA experimentB).map .row := by
  have hevents := Join.events_ascending
    (store.listed_ascending ⟨evaluationId, scoreId, .experiment experimentA⟩)
    (store.listed_ascending ⟨evaluationId, scoreId, .experiment experimentB⟩)
  rw [pairedStream, sharedRows, ← hevents, ← stream_eq_listed, ← stream_eq_listed]

/-- A store as a source opens its paired stream. -/
theorem pairedRows_ofStore (store : Store) :
    (ScoreSource.ofStore store).pairedRows evaluationId scoreId experimentA experimentB =
      .ok ((store.sharedRows evaluationId scoreId experimentA experimentB).map .row) := by
  rw [← pairedStream_eq_sharedRows]
  rfl

/-- Histories after which two experiments share the same values leave stores with the same shared
rows. -/
theorem sharedRows_ofWrites_eq {writes other : List Write}
    (hshared : ∀ key, sharedValues? writes evaluationId scoreId experimentA experimentB key =
      sharedValues? other evaluationId scoreId experimentA experimentB key) :
    (ofWrites writes).sharedRows evaluationId scoreId experimentA experimentB =
      (ofWrites other).sharedRows evaluationId scoreId experimentA experimentB := by
  refine mergeRows_pairs_eq (listed_ascending _ _) (listed_ascending _ _) (listed_ascending _ _)
    (listed_ascending _ _) fun pair => ?_
  simp only [mem_listed_iff, getElem?_rows_ofWrites, ← sharedValues?_eq_some_iff, hshared]

end Store

/-- The verdict on a stream of rows alone is all of the rows, unless cancellation was requested
before. -/
theorem verdict_rows {α : Type} (cancelled : Cancelled) (rows : List α) :
    verdict cancelled (rows.map .row) = if cancelled then .error .cancelled else .ok rows := by
  cases cancelled with
  | true => rfl
  | false =>
    induction rows with
    | nil => exact verdict_nil
    | cons row rest ih => simp [verdict_row, ih, Except.map]

namespace Engine

variable {α : Type} [Arithmetic α] [TailTable α]

section Comparisons

variable (lookup : String → Except DefinitionFault Definition) (settings : Settings)
  (cancelled : Cancelled)

/-- A comparison over a store fails if its score has no usable definition or if it is cancelled, and
for no other reason. Otherwise it is that of the shared rows. -/
theorem comparison_ofStore (store : Store)
    (evaluationId experimentA experimentB scoreId : String) :
    comparison (α := α) ⟨lookup, .ofStore store, settings⟩ cancelled evaluationId experimentA
        experimentB scoreId =
      match lookup scoreId with
      | .error fault => (.error (.definition fault), cancelled)
      | .ok definition =>
        (if cancelled then .error .cancelled
          else .ok ⟨experimentA, experimentB, definition.scoreId, definition.scoringType,
            .ofRows definition settings
              (store.sharedRows evaluationId scoreId experimentA experimentB)⟩, cancelled) := by
  let events := (store.sharedRows evaluationId scoreId experimentA experimentB).map Event.row
  have hcrash : Event.crash ∉ events := by simp [events]
  have hcancel : Event.cancel ∉ events := by simp [events]
  unfold comparison
  simp only [Store.pairedRows_ofStore]
  cases lookup scoreId with
  | error fault => rfl
  | ok definition =>
    have hrows := compareRows_eq_verdict (α := α) definition settings cancelled hcrash
    simp only [compareExperiments, hrows, events, verdict_rows]
    cases cancelled with
    | true => rfl
    | false =>
      rw [cancelledBy_of_not_mem hcancel]
      rfl

/-- A comparison over a store depends only on the values of the rows that both experiments have
scored, and never fails because of its source. Two histories after which the experiments share the
same values give the same answer, whatever else they have written and in whatever order. -/
theorem comparison_eq_of_sharedValues
    {evaluationId scoreId experimentA experimentB : String} {writes other : List Write}
    (hshared : ∀ key, sharedValues? writes evaluationId scoreId experimentA experimentB key =
      sharedValues? other evaluationId scoreId experimentA experimentB key) :
    let answer (writes : List Write) : Except EngineFault (Comparison α) × Cancelled :=
      comparison ⟨lookup, .ofStore (.ofWrites writes), settings⟩ cancelled evaluationId
        experimentA experimentB scoreId
    answer writes = answer other ∧
      ∀ cause, (answer writes).1 ≠ .error (.source cause) := by
  intro answer
  have hrows := Store.sharedRows_ofWrites_eq evaluationId scoreId experimentA experimentB hshared
  constructor
  · simp only [answer, comparison_ofStore, hrows]
  · intro cause
    simp only [answer, comparison_ofStore]
    cases lookup scoreId with
    | error fault => simp
    | ok definition => cases cancelled <;> simp

end Comparisons

/-- A history that wrote its one shared row twice, a row of one experiment alone, a row of the
dataset and a row of another evaluation, and one that wrote the shared row once, last and out of a
record. -/
theorem comparison_eq_of_sharedValues_rewritten :
    let row (evaluationId experiment : String) (key : ℕ) (label : String) : Write :=
      .insert ⟨evaluationId, "verdict", .experiment experiment⟩ key (.label label)
    let writes : List Write :=
      [row "eval" "first" 3 "bad", row "eval" "first" 1 "alone", row "eval" "second" 3 "good",
        row "eval" "first" 3 "fine", row "other" "second" 1 "good",
        .insert ⟨"eval", "verdict", .dataset⟩ 1 (.label "good")]
    let other : List Write :=
      [.record ⟨"eval", "verdict", some "second", 3, .done, some (.label "good")⟩,
        .record ⟨"eval", "verdict", some "second", 3, .failed, some (.label "bad")⟩,
        row "eval" "first" 3 "fine"]
    let answer (writes : List Write) : Except EngineFault (Comparison Float) × Cancelled :=
      comparison ⟨fun id => .ok (.nominal id none), .ofStore (.ofWrites writes), .standard⟩ false
        "eval" "first" "second" "verdict"
    (∀ key, sharedValues? writes "eval" "verdict" "first" "second" key =
      sharedValues? other "eval" "verdict" "first" "second" key) ∧
    answer writes = answer other ∧ ∀ cause, (answer writes).1 ≠ .error (.source cause) := by
  intro row writes other answer
  have hshared (key : ℕ) : sharedValues? writes "eval" "verdict" "first" "second" key =
      sharedValues? other "eval" "verdict" "first" "second" key := by
    by_cases hrow : 3 = key <;>
      simp [writes, other, row, sharedValues?, lastValue?, Write.value?, Write.IsAbout, Write.key,
        Write.stored?, Scope.experimentId?, hrow]
  exact ⟨hshared, comparison_eq_of_sharedValues _ .standard false hshared⟩

end Engine

end Scorebook

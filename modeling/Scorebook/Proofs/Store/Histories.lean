import Mathlib.Data.List.Induction
import Scorebook.Proofs.Join.Merge
import Scorebook.Store

/-!
# Stores and their histories

A store is what a history of writes leaves. Of every row it holds what the last write of that row
said, whatever was written between and around. The stream of a population brings these rows in
strictly ascending order of their keys.
-/

namespace Scorebook

/-- A write to a store: a row that is stored as it is, or a record that is stored if it is a
score. -/
inductive Write where
  | insert (population : Population) (key : ℕ) (raw : RawValue)
  | record (record : Record)

namespace Write

/-- A write is about a population: it stores a row there, or a record with the evaluation and the
score of the population and with its experiment, which a record of the dataset does not have. -/
def IsAbout (population : Population) : Write → Prop
  | .insert target _ _ => target = population
  | .record stored =>
    stored.evaluationId = population.evaluationId ∧ stored.scoreId = population.scoreId ∧
      stored.experimentId = population.scope.experimentId?

instance (population : Population) : DecidablePred (IsAbout population)
  | .insert target _ _ => inferInstanceAs (Decidable (target = population))
  | .record _ => inferInstanceAs (Decidable (_ ∧ _ ∧ _))

/-- The key of the row that a write is about. -/
def key : Write → ℕ
  | .insert _ key _ => key
  | .record stored => stored.rowKey

/-- The value that a write stores. A record stores one if it is finished and has one. -/
def stored? : Write → Option RawValue
  | .insert _ _ raw => some raw
  | .record stored => if stored.status = .done then stored.value else none

/-- The value that a write gives to a row of a population, if it writes that row at all. -/
def value? (population : Population) (key : ℕ) (write : Write) : Option RawValue :=
  if write.IsAbout population ∧ write.key = key then write.stored? else none

/-- A record is stored in the population that it is about. -/
theorem isAbout_record_iff {record : Record} {population : Population} :
    (Write.record record).IsAbout population ↔ Store.populationOf record = population := by
  obtain ⟨evaluationId, scoreId, scope⟩ := population
  rw [IsAbout, ← Record.scope_eq_iff, Store.populationOf, Population.mk.injEq]

end Write

/-- The value of a row after a history of writes: that of the last write of the row. -/
def lastValue? (writes : List Write) (population : Population) (key : ℕ) : Option RawValue :=
  writes.reverse.findSome? (·.value? population key)

/-- One more write gives its value to the row that it writes, and leaves all other rows. -/
theorem lastValue?_concat (writes : List Write) (write : Write) (population : Population)
    (key : ℕ) : lastValue? (writes ++ [write]) population key =
      (write.value? population key).or (lastValue? writes population key) := by
  simp only [lastValue?, List.reverse_append, List.reverse_singleton, List.singleton_append,
    List.findSome?_cons]
  cases write.value? population key <;> rfl

namespace Store

variable (store : Store) (population : Population) (key : ℕ)

/-- Carries out a write. -/
def write (store : Store) : Write → Store
  | .insert population key raw => store.insert population key raw
  | .record record => (store.insertRecord record).2

/-- The store that a history of writes leaves. -/
def ofWrites (writes : List Write) : Store := writes.foldl write empty

/-- Storing a row changes the value of this row and of no other. -/
theorem getElem?_rows_insert (target : Population) (row : ℕ) (raw : RawValue) :
    ((store.insert target row raw).rows population)[key]? =
      if target = population ∧ row = key then some raw else (store.rows population)[key]? := by
  by_cases htarget : target = population
  · subst htarget
    by_cases hrow : row = key
    · simp [insert, rows, hrow]
    · simp [insert, rows, hrow, Std.TreeMap.getElem?_insert]
  · simp [insert, rows, htarget, Std.TreeMap.getElem?_insert]

/-- A write changes the row that it writes and no other. -/
theorem getElem?_rows_write (write : Write) :
    ((store.write write).rows population)[key]? =
      (write.value? population key).or (store.rows population)[key]? := by
  cases write with
  | insert target row raw =>
    rw [Store.write, getElem?_rows_insert]
    by_cases hrow : target = population ∧ row = key <;>
      simp [Write.value?, Write.IsAbout, Write.key, Write.stored?, hrow]
  | record stored =>
    have hstored : (Write.record stored).stored? = scoreOf? stored := rfl
    simp only [Store.write, insertRecord, Write.value?, Write.isAbout_record_iff, hstored]
    cases hscore : scoreOf? stored with
    | none => simp
    | some raw =>
      rw [getElem?_rows_insert]
      by_cases hrow : populationOf stored = population ∧ stored.rowKey = key <;>
        simp [Write.key, hrow]

/-- A store holds of every row what the last write of the row said. -/
theorem getElem?_rows_ofWrites (writes : List Write) :
    ((ofWrites writes).rows population)[key]? = lastValue? writes population key := by
  induction writes using List.reverseRecOn with
  | nil => simp [ofWrites, rows, empty, lastValue?]
  | append_singleton writes write ih =>
    rw [lastValue?_concat, ← ih, ← getElem?_rows_write, ofWrites, List.foldl_append]
    rfl

/-- The rows of a population as they are streamed. -/
def listed : List ScoredRow := (store.rows population).toList.map fun (key, raw) => ⟨key, raw⟩

/-- A stream brings the rows of its population and nothing else. -/
theorem stream_eq_listed : store.stream population = (store.listed population).map .row := by
  simp [stream, listed]

/-- A stream brings its rows in strictly ascending order of their keys. -/
theorem listed_ascending : AscendingRows (store.listed population) := by
  have hordered := (store.rows population).ordered_keys_toList
  refine List.pairwise_map.mpr (hordered.imp fun hlt => ?_)
  exact Nat.compare_eq_lt.mp hlt

/-- A stream brings a row exactly if the row is stored with that value. -/
theorem mem_listed_iff (raw : RawValue) :
    ⟨key, raw⟩ ∈ store.listed population ↔ (store.rows population)[key]? = some raw := by
  rw [← Std.TreeMap.mem_toList_iff_getElem?_eq_some]
  simp [listed]

end Store

end Scorebook

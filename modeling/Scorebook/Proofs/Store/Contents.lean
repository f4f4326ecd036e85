import Mathlib.Algebra.BigOperators.Group.Finset.Basic
import Mathlib.Data.String.Basic
import Scorebook.Proofs.Store.Observations

/-!
# What a store tells

A store is asked for the stream of a population, for the scores of a scope, for the rows that two
experiments share and for the number of its rows. All of these answers are about the same map: of
every row the value that was written there last. A write changes the stream of its own population
and no other.
-/

namespace Scorebook

/-- A row has a value after a history exactly if a write of the history gave it one. -/
theorem isSome_lastValue?_iff {writes : List Write} {population : Population} {key : ℕ} :
    (lastValue? writes population key).isSome ↔
      ∃ write ∈ writes, (write.value? population key).isSome := by
  simp [lastValue?]

namespace Store

section Populations

variable (store : Store)

/-- A listed population comes with its rows. -/
theorem rows_eq_of_mem {entry} (hmem : entry ∈ store.populations.toList) :
    store.rows entry.1 = entry.2 := by
  have hfound := Std.TreeMap.mem_toList_iff_getElem?_eq_some.mp hmem
  rw [Store.rows, hfound, Option.getD_some]

/-- A population with rows is listed. -/
theorem mem_keys_of_rows {population : Population} (hrows : ¬(store.rows population).isEmpty) :
    population ∈ store.populations.keys := by
  rw [Std.TreeMap.mem_keys, Std.TreeMap.mem_iff_isSome_getElem?]
  cases hfound : store.populations[population]? with
  | none => simp [Store.rows, hfound] at hrows
  | some rows => rfl

/-- A stream is as long as its population has rows. -/
theorem length_stream (population : Population) :
    (store.stream population).length = (store.rows population).size := by
  rw [stream, List.length_map, Std.TreeMap.length_toList]

/-- A stream is empty exactly if its population has no rows. -/
theorem stream_eq_nil_iff {population : Population} :
    store.stream population = [] ↔ (store.rows population).isEmpty = true := by
  rw [stream, List.map_eq_nil_iff, ← List.isEmpty_iff, Std.TreeMap.isEmpty_toList]

/-- The scores of a scope are listed once each and in ascending order. -/
theorem scoreIds_ascending (evaluationId : String) (scope : Scope) :
    (store.scoreIds evaluationId scope).Pairwise (· < ·) := by
  have hordered := store.populations.ordered_keys_toList
  refine List.pairwise_map.mpr ((hordered.filter _).imp_of_mem ?_)
  intro first second hfirst hsecond hlt
  have hfirst := (List.mem_filter.mp hfirst).2
  have hsecond := (List.mem_filter.mp hsecond).2
  simp only [decide_eq_true_eq] at hfirst hsecond
  obtain ⟨hevaluation, hscope, -⟩ := hfirst
  obtain ⟨hevaluation', hscope', -⟩ := hsecond
  -- Evaluation and scope are the same, so the scores decide the order.
  have horder : (compare first.1.evaluationId second.1.evaluationId).then
      ((compare first.1.scoreId second.1.scoreId).then
        (compare first.1.scope second.1.scope)) = .lt := hlt
  rw [hevaluation, hevaluation', hscope, hscope', Std.ReflOrd.compare_self,
    Std.ReflOrd.compare_self, Ordering.eq_then, Ordering.then_eq] at horder
  exact compare_lt_iff_lt.mp horder

/-- The scores of a scope are those whose stream there is not empty. -/
theorem mem_scoreIds_iff {evaluationId scoreId : String} {scope : Scope} :
    scoreId ∈ store.scoreIds evaluationId scope ↔
      store.stream ⟨evaluationId, scoreId, scope⟩ ≠ [] := by
  rw [ne_eq, stream_eq_nil_iff, scoreIds, List.mem_map]
  constructor
  · rintro ⟨⟨population, rows⟩, hmem, rfl⟩
    obtain ⟨hlisted, hmatch⟩ := List.mem_filter.mp hmem
    simp only [decide_eq_true_eq] at hmatch
    obtain ⟨rfl, rfl, hrows⟩ := hmatch
    rwa [store.rows_eq_of_mem hlisted]
  · intro hrows
    have hlisted := store.mem_keys_of_rows hrows
    rw [← Std.TreeMap.map_fst_toList_eq_keys, List.mem_map] at hlisted
    obtain ⟨⟨population, rows⟩, hmem, rfl⟩ := hlisted
    rw [store.rows_eq_of_mem hmem] at hrows
    exact ⟨_, List.mem_filter.mpr ⟨hmem, by simpa using hrows⟩, rfl⟩

/-- The size of a store is the total length of its streams. -/
theorem size_eq_sum : ∃ populations : Finset Population,
    (∀ population, population ∈ populations ↔ store.stream population ≠ []) ∧
    store.size = ∑ population ∈ populations, (store.stream population).length := by
  have hsize : store.size =
      (store.populations.keys.map fun population => (store.stream population).length).sum := by
    have hentries : store.populations.toList.map (fun entry => entry.2.size) =
        store.populations.toList.map (fun entry => (store.stream entry.1).length) :=
      List.map_congr_left fun entry hentry => by
        rw [length_stream, store.rows_eq_of_mem hentry]
    rw [← Std.TreeMap.map_fst_toList_eq_keys, List.map_map]
    refine Eq.trans ?_ (congrArg List.sum hentries)
    rw [List.sum_eq_foldl, List.foldl_map]
    rfl
  refine ⟨store.populations.keys.toFinset.filter (store.stream · ≠ []), fun population => ?_, ?_⟩
  · rw [Finset.mem_filter, List.mem_toFinset, and_iff_right_iff_imp]
    intro hrows
    exact store.mem_keys_of_rows (by rwa [ne_eq, stream_eq_nil_iff] at hrows)
  · rw [hsize, ← List.sum_toFinset _ Std.TreeMap.nodup_keys]
    refine (Finset.sum_filter_of_ne fun population _ hlength => ?_).symm
    exact fun hnil => hlength (by rw [hnil, List.length_nil])

/-- Storing a row leaves the rows of all other populations. -/
theorem rows_insert_of_ne {target population : Population} (hne : target ≠ population) (key : ℕ)
    (raw : RawValue) : (store.insert target key raw).rows population = store.rows population := by
  simp [insert, rows, hne, Std.TreeMap.getElem?_insert]

/-- A write leaves the streams of all populations that it is not about. -/
theorem stream_write_of_not_isAbout {write : Write} {population : Population}
    (hother : ¬write.IsAbout population) :
    (store.write write).stream population = store.stream population := by
  cases write with
  | insert target key raw =>
    rw [Store.write, stream, stream, store.rows_insert_of_ne hother]
  | record stored =>
    have htarget : populationOf stored ≠ population := by
      rwa [Write.isAbout_record_iff] at hother
    rw [Store.write, insertRecord]
    cases scoreOf? stored with
    | none => rfl
    | some raw =>
      simp only [stream, store.rows_insert_of_ne htarget]

end Populations

/-- What a store tells after a history of writes. -/
structure Tells (store : Store) (writes : List Write) : Prop where
  /-- A stream brings the rows that were ever written, in ascending order and with the values that
  were written last. -/
  stream : ∀ population, ∃ rows : List ScoredRow,
    store.stream population = rows.map .row ∧ AscendingRows rows ∧
    (∀ key, key ∈ rows.map (·.key) ↔ ∃ write ∈ writes, (write.value? population key).isSome) ∧
    ∀ key raw, ⟨key, raw⟩ ∈ rows ↔ lastValue? writes population key = some raw
  /-- A paired stream brings the rows that are in the streams of both experiments. -/
  pairedStream : ∀ evaluationId scoreId experimentA experimentB, ∃ rows : List PairedRow,
    store.pairedStream evaluationId scoreId experimentA experimentB = rows.map .row ∧
    rows.Pairwise (fun x y => x.key < y.key) ∧
    ∀ key a b, ⟨key, a, b⟩ ∈ rows ↔
      .row ⟨key, a⟩ ∈ store.stream ⟨evaluationId, scoreId, .experiment experimentA⟩ ∧
      .row ⟨key, b⟩ ∈ store.stream ⟨evaluationId, scoreId, .experiment experimentB⟩
  scoreIds_ascending : ∀ evaluationId scope,
    (store.scoreIds evaluationId scope).Pairwise (· < ·)
  /-- Exactly the scores with a stream that is not empty are listed. -/
  mem_scoreIds : ∀ evaluationId scope scoreId, scoreId ∈ store.scoreIds evaluationId scope ↔
    store.stream ⟨evaluationId, scoreId, scope⟩ ≠ []
  /-- The rows of all streams are counted. -/
  size : ∃ populations : Finset Population,
    (∀ population, population ∈ populations ↔ store.stream population ≠ []) ∧
    store.size = ∑ population ∈ populations, (store.stream population).length

/-- A row is in a stream exactly if the row is stored. -/
theorem row_mem_stream_iff {store : Store} {population : Population} {row : ScoredRow} :
    .row row ∈ store.stream population ↔ row ∈ store.listed population := by
  simp [stream_eq_listed]

/-- The stream of a population after a history brings what was written there. -/
theorem stream_ofWrites (writes : List Write) (population : Population) :
    ∃ rows : List ScoredRow,
      (ofWrites writes).stream population = rows.map .row ∧ AscendingRows rows ∧
      (∀ key, key ∈ rows.map (·.key) ↔ ∃ write ∈ writes, (write.value? population key).isSome) ∧
      ∀ key raw, ⟨key, raw⟩ ∈ rows ↔ lastValue? writes population key = some raw := by
  have hrow (key : ℕ) (raw : RawValue) : ⟨key, raw⟩ ∈ (ofWrites writes).listed population ↔
      lastValue? writes population key = some raw := by
    rw [mem_listed_iff, getElem?_rows_ofWrites]
  refine ⟨_, stream_eq_listed _ _, listed_ascending _ _, fun key => ?_, hrow⟩
  rw [← isSome_lastValue?_iff, Option.isSome_iff_exists, List.mem_map]
  constructor
  · rintro ⟨⟨key, raw⟩, hmem, rfl⟩
    exact ⟨raw, (hrow key raw).mp hmem⟩
  · rintro ⟨raw, hraw⟩
    exact ⟨⟨key, raw⟩, (hrow key raw).mpr hraw, rfl⟩

/-- The paired stream of a store brings what the streams of both experiments bring. -/
theorem exists_pairedStream_eq (store : Store)
    (evaluationId scoreId experimentA experimentB : String) : ∃ rows : List PairedRow,
    store.pairedStream evaluationId scoreId experimentA experimentB = rows.map .row ∧
    rows.Pairwise (fun x y => x.key < y.key) ∧
    ∀ key a b, ⟨key, a, b⟩ ∈ rows ↔
      .row ⟨key, a⟩ ∈ store.stream ⟨evaluationId, scoreId, .experiment experimentA⟩ ∧
      .row ⟨key, b⟩ ∈ store.stream ⟨evaluationId, scoreId, .experiment experimentB⟩ := by
  have hleft := store.listed_ascending ⟨evaluationId, scoreId, .experiment experimentA⟩
  have hright := store.listed_ascending ⟨evaluationId, scoreId, .experiment experimentB⟩
  refine ⟨_, store.pairedStream_eq_sharedRows _ _ _ _, pairwise_mergeRows_pairs hleft hright,
    fun key a b => ?_⟩
  rw [sharedRows, row_mem_stream_iff, row_mem_stream_iff, mem_mergeRows_pairs hleft hright]

/-- A history leaves a store that tells of every row what was written there last. One more write
changes no stream but that of its own population, and a row of the dataset is in another population
than any row of an experiment. -/
theorem ofWrites_tells (writes : List Write) :
    (ofWrites writes).Tells writes ∧
    (∀ (write : Write) population, ¬write.IsAbout population →
      (ofWrites (writes ++ [write])).stream population = (ofWrites writes).stream population) ∧
    ∀ evaluationId scoreId id, (⟨evaluationId, scoreId, .dataset⟩ : Population) ≠
      ⟨evaluationId, scoreId, .experiment id⟩ := by
  refine ⟨?_, fun write population hother => ?_, by simp⟩
  · constructor
    case stream => exact stream_ofWrites writes
    case pairedStream => exact exists_pairedStream_eq (ofWrites writes)
    case scoreIds_ascending => exact scoreIds_ascending _
    case mem_scoreIds => exact fun _ _ _ => mem_scoreIds_iff _
    case size => exact size_eq_sum _
  · have hrun : ofWrites (writes ++ [write]) = (ofWrites writes).write write := by
      simp [ofWrites]
    rw [hrun]
    exact stream_write_of_not_isAbout _ hother

/-- Two experiments, the dataset and two scores. A row of the first experiment is stored again out
of a record, a failed record of the second one stores nothing, and a record of the dataset leaves
the streams of the experiments. -/
theorem ofWrites_tells_overwritten :
    let first : Population := ⟨"eval", "verdict", .experiment "first"⟩
    let writes : List Write :=
      [.insert first 3 (.label "bad"), .insert first 1 (.label "alone"),
        .record ⟨"eval", "verdict", some "second", 3, .done, some (.label "good")⟩,
        .record ⟨"eval", "verdict", some "second", 3, .failed, some (.label "bad")⟩,
        .record ⟨"eval", "verdict", some "first", 3, .done, some (.label "fine")⟩,
        .record ⟨"eval", "verdict", none, 3, .done, some (.label "whole")⟩,
        .record ⟨"eval", "tone", some "first", 7, .done, some (.label "calm")⟩]
    let later : Write := .record ⟨"eval", "verdict", none, 1, .done, some (.label "late")⟩
    let store := ofWrites writes
    store.Tells writes ∧
      store.stream first = [.row ⟨1, .label "alone"⟩, .row ⟨3, .label "fine"⟩] ∧
      store.stream ⟨"eval", "verdict", .dataset⟩ = [.row ⟨3, .label "whole"⟩] ∧
      store.pairedStream "eval" "verdict" "first" "second" =
        [.row ⟨3, .label "fine", .label "good"⟩] ∧
      store.scoreIds "eval" (.experiment "first") = ["tone", "verdict"] ∧ store.size = 5 ∧
      ¬later.IsAbout first ∧
      (ofWrites (writes ++ [later])).stream first = store.stream first := by
  exact ⟨(ofWrites_tells _).1, by rfl, by rfl, by rfl, by decide +kernel, by decide +kernel,
    by decide, (ofWrites_tells _).2.1 _ _ (by decide)⟩

end Store

end Scorebook

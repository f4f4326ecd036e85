import Mathlib.Data.List.Nodup
import Mathlib.Data.String.Basic
import Scorebook.Engine

/-!
# Assembling a report

A report is assembled from answers, one for each score. A crash or a cancellation among them
leaves no report. Otherwise each answer becomes an entry, a failure, or nothing, whatever the
other answers are. In the end both lists are sorted by score, so that the order in which the
answers came does not show.
-/

namespace Scorebook

section Sorting

variable {β : Type} {key : β → String} {items others : List β}

/-- Sorting by keys that differ makes the keys strictly ascending. -/
theorem pairwise_mergeSort_lt (hnodup : (items.map key).Nodup) :
    (items.mergeSort fun a b => key a ≤ key b).Pairwise fun a b => key a < key b := by
  have hle : (items.mergeSort fun a b => key a ≤ key b).Pairwise
      fun a b => decide (key a ≤ key b) = true :=
    List.pairwise_mergeSort
      (fun a b c hab hbc => by simpa using (of_decide_eq_true hab).trans (of_decide_eq_true hbc))
      (fun a b => by simpa using le_total (key a) (key b)) items
  have hne : (items.mergeSort fun a b => key a ≤ key b).Pairwise fun a b => key a ≠ key b := by
    have hperm := (List.mergeSort_perm items fun a b => key a ≤ key b).map key
    exact List.pairwise_map.mp (hperm.nodup_iff.mpr hnodup)
  exact hle.imp₂ (fun a b hab hne => lt_of_le_of_ne (of_decide_eq_true hab) hne) hne

/-- Lists of the same items whose keys differ are sorted into the same list. -/
theorem mergeSort_eq_of_perm (hperm : items.Perm others) (hnodup : (items.map key).Nodup) :
    (items.mergeSort fun a b => key a ≤ key b) = others.mergeSort fun a b => key a ≤ key b := by
  have hnodup' := (hperm.map key).nodup_iff.mp hnodup
  refine List.Perm.eq_of_pairwise (fun a b _ _ hab hba => absurd (hab.trans hba) (lt_irrefl _))
    (pairwise_mergeSort_lt hnodup) (pairwise_mergeSort_lt hnodup') ?_
  exact (List.mergeSort_perm items _).trans (hperm.trans (List.mergeSort_perm others _).symm)

variable {keys : List String} {item? : String → Option β} {k : String}

/-- Nothing is found under a key that is not among those of the items. -/
theorem filter_filterMap_eq_nil (hkey : ∀ k b, item? k = some b → key b = k) (hk : k ∉ keys) :
    ((keys.filterMap item?).filter fun b => key b = k) = [] := by
  refine List.filter_eq_nil_iff.mpr fun b hb => ?_
  obtain ⟨k', hk', hitem⟩ := List.mem_filterMap.mp hb
  have hne : k' ≠ k := fun heq => hk (heq ▸ hk')
  simpa [hkey k' b hitem] using hne

/-- What is found under a key is the item of that key, if each key has at most one. -/
theorem filter_filterMap_eq (hkey : ∀ k b, item? k = some b → key b = k) (hnodup : keys.Nodup)
    (hk : k ∈ keys) : ((keys.filterMap item?).filter fun b => key b = k) = (item? k).toList := by
  obtain ⟨before, after, rfl⟩ := List.append_of_mem hk
  have hbefore : k ∉ before := by grind
  have hafter : k ∉ after := by grind
  rw [List.filterMap_append, List.filter_append, filter_filterMap_eq_nil hkey hbefore,
    List.filterMap_cons]
  cases hitem : item? k with
  | none => exact filter_filterMap_eq_nil hkey hafter
  | some b => simp [hkey k b hitem, filter_filterMap_eq_nil hkey hafter]

/-- Items of keys that differ have keys that differ. -/
theorem nodup_map_filterMap (hkey : ∀ k b, item? k = some b → key b = k) (hnodup : keys.Nodup) :
    ((keys.filterMap item?).map key).Nodup := by
  rw [List.map_filterMap]
  refine hnodup.filterMap fun k k' j hk hk' => ?_
  obtain ⟨b, hb, rfl⟩ := Option.map_eq_some_iff.mp hk
  obtain ⟨b', hb', hj⟩ := Option.map_eq_some_iff.mp hk'
  rw [← hkey k b hb, ← hkey k' b' hb', hj]

/-- Sorting does not change what is found under a key. -/
theorem filter_mergeSort_eq (hkey : ∀ k b, item? k = some b → key b = k) (hnodup : keys.Nodup)
    (hk : k ∈ keys) :
    (((keys.filterMap item?).mergeSort fun a b => key a ≤ key b).filter fun b => key b = k) =
      (item? k).toList := by
  have hperm := (List.mergeSort_perm (keys.filterMap item?) fun a b => key a ≤ key b).filter
    fun b => key b = k
  rw [filter_filterMap_eq hkey hnodup hk] at hperm
  cases hitem : item? k with
  | none => simpa [hitem] using hperm
  | some b => simpa [hitem] using hperm

end Sorting

/-- Whether the computation of a score was cancelled. -/
def Engine.isCancelled {α : Type} : ScoreAnswer α → Bool
  | (_, .error .cancelled) => true
  | _ => false

variable {α : Type} (evaluationId : String) (scope : Scope)

theorem Engine.isCancelled_iff {answer : ScoreAnswer α} :
    isCancelled answer = true ↔ answer.2 = .error .cancelled := by
  obtain ⟨scoreId, result⟩ := answer
  cases result with
  | ok summary => simp [isCancelled]
  | error fault => cases fault <;> simp [isCancelled]

/-- The entry that an answer becomes, if it is the summary of scored rows. -/
def ReportEntry.ofAnswer? : ScoreAnswer α → Option (ReportEntry α)
  | (scoreId, .ok summary) =>
    if summary.scored = 0 then none else some ⟨scoreId, scope.experimentId?, summary⟩
  | (_, .error _) => none

/-- The failure that an answer becomes, if it is a fault. -/
def ReportFailure.ofAnswer? : ScoreAnswer α → Option ReportFailure
  | (_, .ok _) => none
  | (scoreId, .error fault) => some ⟨scoreId, fault.message, fault.retryable⟩

namespace Report

/-- A report to which is added what some answers become. -/
def addAnswers (report : Report α) (answers : List (ScoreAnswer α)) : Report α :=
  { report with
    entries := report.entries ++ answers.filterMap (ReportEntry.ofAnswer? scope)
    failures := report.failures ++ answers.filterMap ReportFailure.ofAnswer? }

variable {scope}

theorem addAnswers_nil (report : Report α) : report.addAnswers scope [] = report := by
  simp [addAnswers]

/-- Pushing a summary adds what it becomes, and the answers behind it follow. -/
theorem addAnswers_pushSummary (report : Report α) (scoreId : String) (summary : Summary α)
    (answers : List (ScoreAnswer α)) :
    (report.pushSummary scoreId scope summary).2.addAnswers scope answers =
      report.addAnswers scope ((scoreId, .ok summary) :: answers) := by
  by_cases hscored : summary.scored = 0 <;>
    simp [addAnswers, pushSummary, ReportEntry.ofAnswer?, ReportFailure.ofAnswer?, hscored,
      List.filterMap_cons]

/-- Pushing a failure adds what its fault becomes, and the answers behind it follow. -/
theorem addAnswers_pushFailure (report : Report α) (scoreId : String) (fault : EngineFault)
    (answers : List (ScoreAnswer α)) :
    (report.pushFailure scoreId fault).addAnswers scope answers =
      report.addAnswers scope ((scoreId, .error fault) :: answers) := by
  simp [addAnswers, pushFailure, ReportEntry.ofAnswer?, ReportFailure.ofAnswer?,
    List.filterMap_cons]

end Report

/-- The report that consists of what the answers become. -/
def Report.ofAnswers (answers : List (ScoreAnswer α)) : Report α :=
  ((Report.empty evaluationId scope).addAnswers scope answers).sort

namespace Engine

/-- Collecting answers adds to a report what they become, unless one of them is cancelled. -/
theorem collect_eq (report : Report α) (answers : List (ScoreAnswer α)) :
    collect scope report answers =
      if answers.any isCancelled then .error .cancelled
      else .ok (report.addAnswers scope answers).sort := by
  fun_induction collect scope report answers with
  | case1 report => simp [Report.addAnswers_nil]
  | case2 report scoreId summary rest ih =>
    rw [ih, Report.addAnswers_pushSummary, List.any_cons]
    rfl
  | case3 report scoreId rest => simp [isCancelled]
  | case4 report scoreId fault rest hfault ih =>
    have hnot : isCancelled ((scoreId, .error fault) : ScoreAnswer α) = false := by
      cases fault <;> simp_all [isCancelled]
    rw [ih, Report.addAnswers_pushFailure, List.any_cons, hnot, Bool.false_or]

/-- A crash leaves no report, then a cancellation leaves none, and otherwise the report consists
of what the answers become. -/
theorem assemble_eq (answers : List (ScoreAnswer α)) :
    assemble evaluationId scope answers =
      if answers.any isCrash then .error (.workerCrashed crashReason)
      else if answers.any isCancelled then .error .cancelled
      else .ok (.ofAnswers evaluationId scope answers) := by
  rw [assemble, collect_eq, Report.ofAnswers]

/-- A request succeeds exactly if no answer is a crash or a cancellation. -/
theorem assemble_eq_ok_iff (answers : List (ScoreAnswer α)) (report : Report α) :
    assemble evaluationId scope answers = .ok report ↔
      (∀ answer ∈ answers, isCrash answer = false ∧ isCancelled answer = false) ∧
        report = .ofAnswers evaluationId scope answers := by
  rw [assemble_eq]
  by_cases hcrash : answers.any isCrash = true
  · obtain ⟨answer, hmem, h⟩ := List.any_eq_true.mp hcrash
    simp only [hcrash, if_true, reduceCtorEq, false_iff]
    rintro ⟨hnone, -⟩
    simp [(hnone answer hmem).1] at h
  · by_cases hcancelled : answers.any isCancelled = true
    · obtain ⟨answer, hmem, h⟩ := List.any_eq_true.mp hcancelled
      simp only [hcrash, hcancelled, if_true, Bool.false_eq_true, if_false, reduceCtorEq, false_iff]
      rintro ⟨hnone, -⟩
      simp [(hnone answer hmem).2] at h
    · rw [if_neg hcrash, if_neg hcancelled, Except.ok.injEq, eq_comm]
      refine (and_iff_right fun answer hmem => ⟨?_, ?_⟩).symm
      · simpa using fun h => hcrash (List.any_eq_true.mpr ⟨answer, hmem, h⟩)
      · simpa using fun h => hcancelled (List.any_eq_true.mpr ⟨answer, hmem, h⟩)

end Engine

/-- The entry that an answer becomes is one of its score. -/
theorem ReportEntry.scoreId_of_ofAnswer? {scope : Scope} {scoreId : String}
    {answer : Except EngineFault (Summary α)} {entry : ReportEntry α}
    (h : ofAnswer? scope (scoreId, answer) = some entry) : entry.scoreId = scoreId := by
  cases answer <;> grind [ofAnswer?]

/-- The failure that an answer becomes is one of its score. -/
theorem ReportFailure.scoreId_of_ofAnswer? {scoreId : String}
    {answer : Except EngineFault (Summary α)} {failure : ReportFailure}
    (h : ofAnswer? (scoreId, answer) = some failure) : failure.scoreId = scoreId := by
  cases answer <;> grind [ofAnswer?]

namespace Report

/-- The entries of one score. -/
def entriesOf (report : Report α) (scoreId : String) : List (ReportEntry α) :=
  report.entries.filter (·.scoreId = scoreId)

/-- The failures of one score. -/
def failuresOf (report : Report α) (scoreId : String) : List ReportFailure :=
  report.failures.filter (·.scoreId = scoreId)

/-- A report accounts for the answers of some scores. A score has one entry if its answer is the
summary of scored rows, one failure if its answer is a fault, and neither if its answer is the
summary of no rows. There is nothing else in the report, and both lists are ordered by score. -/
structure Accounts (report : Report α) (scope : Scope) (scoreIds : List String)
    (answer : String → Except EngineFault (Summary α)) : Prop where
  entries_ascending : report.entries.Pairwise fun a b => a.scoreId < b.scoreId
  failures_ascending : report.failures.Pairwise fun a b => a.scoreId < b.scoreId
  entries_listed : ∀ entry ∈ report.entries, entry.scoreId ∈ scoreIds
  failures_listed : ∀ failure ∈ report.failures, failure.scoreId ∈ scoreIds
  entry_iff : ∀ scoreId ∈ scoreIds, ∀ entry, report.entriesOf scoreId = [entry] ↔
    ∃ summary, answer scoreId = .ok summary ∧ 0 < summary.scored ∧
      entry = ⟨scoreId, scope.experimentId?, summary⟩
  failure_iff : ∀ scoreId ∈ scoreIds, ∀ failure, report.failuresOf scoreId = [failure] ↔
    ∃ fault, answer scoreId = .error fault ∧
      failure = ⟨scoreId, fault.message, fault.retryable⟩
  absent_iff : ∀ scoreId ∈ scoreIds,
    report.entriesOf scoreId = [] ∧ report.failuresOf scoreId = [] ↔
      ∃ summary, answer scoreId = .ok summary ∧ summary.scored = 0

section OfAnswers

variable {evaluationId scope} {scoreIds : List String}
  {answer : String → Except EngineFault (Summary α)}

/-- The entries of a report on some scores are the sorted ones of their answers. -/
theorem entries_ofAnswers :
    (ofAnswers evaluationId scope (scoreIds.map fun id => (id, answer id))).entries =
      (scoreIds.filterMap fun id => ReportEntry.ofAnswer? scope (id, answer id)).mergeSort
        (·.scoreId ≤ ·.scoreId) := by
  simp [ofAnswers, addAnswers, empty, sort, List.filterMap_map]

/-- The failures of a report on some scores are the sorted ones of their answers. -/
theorem failures_ofAnswers :
    (ofAnswers evaluationId scope (scoreIds.map fun id => (id, answer id))).failures =
      (scoreIds.filterMap fun id => ReportFailure.ofAnswer? (id, answer id)).mergeSort
        (·.scoreId ≤ ·.scoreId) := by
  simp [ofAnswers, addAnswers, empty, sort, List.filterMap_map]

variable {scoreId : String} (hnodup : scoreIds.Nodup) (hscore : scoreId ∈ scoreIds)

include hnodup hscore

/-- What a score has in the entries depends on its own answer only. -/
theorem entriesOf_ofAnswers :
    (ofAnswers evaluationId scope (scoreIds.map fun id => (id, answer id))).entriesOf scoreId =
      (ReportEntry.ofAnswer? scope (scoreId, answer scoreId)).toList := by
  rw [entriesOf, entries_ofAnswers]
  exact filter_mergeSort_eq (fun _ _ h => ReportEntry.scoreId_of_ofAnswer? h) hnodup hscore

/-- What a score has in the failures depends on its own answer only. -/
theorem failuresOf_ofAnswers :
    (ofAnswers evaluationId scope (scoreIds.map fun id => (id, answer id))).failuresOf scoreId =
      (ReportFailure.ofAnswer? (scoreId, answer scoreId)).toList := by
  rw [failuresOf, failures_ofAnswers]
  exact filter_mergeSort_eq (fun _ _ h => ReportFailure.scoreId_of_ofAnswer? h) hnodup hscore

omit hscore

/-- The order in which the answers came does not show in the report. -/
theorem ofAnswers_eq_of_perm {answers : List (ScoreAnswer α)}
    (hperm : answers.Perm (scoreIds.map fun id => (id, answer id))) :
    ofAnswers evaluationId scope answers =
      ofAnswers evaluationId scope (scoreIds.map fun id => (id, answer id)) := by
  have hentries := hperm.filterMap (ReportEntry.ofAnswer? scope)
  have hfailures := hperm.filterMap ReportFailure.ofAnswer?
  rw [List.filterMap_map] at hentries hfailures
  have hsortedEntries := mergeSort_eq_of_perm hentries.symm
    (nodup_map_filterMap (fun _ _ h => ReportEntry.scoreId_of_ofAnswer? h) hnodup)
  have hsortedFailures := mergeSort_eq_of_perm hfailures.symm
    (nodup_map_filterMap (fun _ _ h => ReportFailure.scoreId_of_ofAnswer? h) hnodup)
  simp only [ofAnswers, addAnswers, empty, sort, List.nil_append, List.filterMap_map,
    ← hsortedEntries, ← hsortedFailures]

/-- The report on the answers of scores that differ accounts for them. -/
theorem ofAnswers_accounts :
    (ofAnswers evaluationId scope (scoreIds.map fun id => (id, answer id))).Accounts scope
      scoreIds answer where
  entries_ascending := by
    rw [entries_ofAnswers]
    exact pairwise_mergeSort_lt
      (nodup_map_filterMap (fun _ _ h => ReportEntry.scoreId_of_ofAnswer? h) hnodup)
  failures_ascending := by
    rw [failures_ofAnswers]
    exact pairwise_mergeSort_lt
      (nodup_map_filterMap (fun _ _ h => ReportFailure.scoreId_of_ofAnswer? h) hnodup)
  entries_listed := by
    intro entry hentry
    rw [entries_ofAnswers, List.mem_mergeSort] at hentry
    obtain ⟨id, hid, hitem⟩ := List.mem_filterMap.mp hentry
    rwa [ReportEntry.scoreId_of_ofAnswer? hitem]
  failures_listed := by
    intro failure hfailure
    rw [failures_ofAnswers, List.mem_mergeSort] at hfailure
    obtain ⟨id, hid, hitem⟩ := List.mem_filterMap.mp hfailure
    rwa [ReportFailure.scoreId_of_ofAnswer? hitem]
  entry_iff := by
    intro scoreId hscore entry
    rw [entriesOf_ofAnswers hnodup hscore]
    cases hanswer : answer scoreId with
    | error fault => simp [ReportEntry.ofAnswer?]
    | ok summary =>
      by_cases hscored : summary.scored = 0
      · simp [ReportEntry.ofAnswer?, hscored]
      · simp [ReportEntry.ofAnswer?, hscored, Nat.pos_of_ne_zero hscored, eq_comm]
  failure_iff := by
    intro scoreId hscore failure
    rw [failuresOf_ofAnswers hnodup hscore]
    cases hanswer : answer scoreId with
    | error fault => simp [ReportFailure.ofAnswer?, eq_comm]
    | ok summary => simp [ReportFailure.ofAnswer?]
  absent_iff := by
    intro scoreId hscore
    rw [entriesOf_ofAnswers hnodup hscore, failuresOf_ofAnswers hnodup hscore]
    cases hanswer : answer scoreId with
    | error fault => simp [ReportFailure.ofAnswer?]
    | ok summary => simp [ReportEntry.ofAnswer?, ReportFailure.ofAnswer?]

end OfAnswers

end Report

end Scorebook

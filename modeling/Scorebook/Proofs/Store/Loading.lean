import Scorebook.Proofs.Store.Contents
import Scorebook.Proofs.Text.Lines
import Scorebook.Store.Lines

/-!
# Loading a store from lines

A store is loaded by taking in the records on the lines of a text one after another. Blank lines
bring nothing, and neither do records that are no score, so the store holds of every row the last
score that a line gives it. The first line that is neither blank nor a record ends the load with its
number, and nothing of what was loaded before it is left.
-/

namespace Scorebook

/-- A record is a score of a row: it is about the row, finished, and has a value. -/
structure Record.Scores (record : Record) (population : Population) (key : ℕ) (raw : RawValue) :
    Prop where
  evaluation : record.evaluationId = population.evaluationId
  score : record.scoreId = population.scoreId
  scope : record.scope = population.scope
  row : record.rowKey = key
  finished : record.status = .done
  value : record.value = some raw

/-- A value is that of the last score which some records give a row. -/
def IsLastScore (records : List Record) (population : Population) (key : ℕ) (raw : RawValue) :
    Prop :=
  ∃ before record after, records = before ++ record :: after ∧
    record.Scores population key raw ∧ ∀ later ∈ after, ∀ other, ¬later.Scores population key other

/-- A stored record gives a row the value that it scores the row with. -/
theorem Write.value?_record_eq_some_iff {record : Record} {population : Population} {key : ℕ}
    {raw : RawValue} :
    (Write.record record).value? population key = some raw ↔
      record.Scores population key raw := by
  simp only [value?, IsAbout, ← Record.scope_eq_iff, Write.key, stored?]
  constructor
  · intro hvalue
    split_ifs at hvalue with habout hfinished
    obtain ⟨⟨hevaluation, hscore, hscope⟩, hrow⟩ := habout
    exact ⟨hevaluation, hscore, hscope, hrow, hfinished, hvalue⟩
  · rintro ⟨hevaluation, hscore, hscope, hrow, hfinished, hvalue⟩
    rw [if_pos ⟨⟨hevaluation, hscore, hscope⟩, hrow⟩, if_pos hfinished, hvalue]

/-- The value of a row after some records were stored is that of its last score. -/
theorem lastValue?_records_iff {records : List Record} {population : Population} {key : ℕ}
    {raw : RawValue} :
    lastValue? (records.map .record) population key = some raw ↔
      IsLastScore records population key raw := by
  have hnone (record : Record) : (Write.record record).value? population key = none ↔
      ∀ other, ¬record.Scores population key other := by
    simp only [Option.eq_none_iff_forall_ne_some, ne_eq, Write.value?_record_eq_some_iff]
  rw [lastValue?, ← List.map_reverse, List.findSome?_map, List.findSome?_eq_some_iff]
  simp only [Function.comp_apply, Write.value?_record_eq_some_iff, hnone]
  constructor
  · rintro ⟨after, record, before, hsplit, hscores, hafter⟩
    refine ⟨before.reverse, record, after.reverse, ?_, hscores, by simpa using hafter⟩
    simpa using congrArg List.reverse hsplit
  · rintro ⟨before, record, after, rfl, hscores, hafter⟩
    exact ⟨after.reverse, record, before.reverse, by simp, hscores, by simpa using hafter⟩

namespace Store

/-- A line can be loaded if it is blank or holds a record. -/
def IsLoadable (line : String) : Prop :=
  allBlank line.toList = true ∨ (Record.ofText? line).isSome = true

instance (line : String) : Decidable (IsLoadable line) := inferInstanceAs (Decidable (_ ∨ _))

/-- The records on some lines. -/
def recordsOn (lines : List String) : List Record :=
  (lines.filter fun line => !allBlank line.toList).filterMap Record.ofText?

/-- Stores some records one after another. -/
def insertRecords (store : Store) (records : List Record) : Store :=
  records.foldl (fun store record => (store.insertRecord record).2) store

/-- A line that can be loaded brings the record on it, if there is one. -/
theorem loadLine_of_isLoadable {line : String} (hline : IsLoadable line) (store : Store)
    (number : ℕ) :
    store.loadLine number (some line) = .ok (store.insertRecords (recordsOn [line])) := by
  rw [loadLine]
  split_ifs with hblank
  · simp [recordsOn, insertRecords, hblank]
  · obtain ⟨record, hrecord⟩ := Option.isSome_iff_exists.mp (hline.resolve_left hblank)
    simp [recordsOn, insertRecords, hblank, hrecord]

/-- Any other line ends the load with its number. -/
theorem loadLine_of_not_isLoadable {line : String} (hline : ¬IsLoadable line) (store : Store)
    (number : ℕ) :
    store.loadLine number (some line) = .error (.malformed number "not a score record") := by
  rw [IsLoadable, not_or, Option.not_isSome_iff_eq_none] at hline
  rw [loadLine, if_neg hline.1, hline.2]

/-- Lines that can be loaded bring the records on them, and the load goes on behind them. -/
theorem loadFrom_append {lines : List String} (hlines : ∀ line ∈ lines, IsLoadable line)
    (number : ℕ) (store : Store) (rest : List (Option String)) :
    loadFrom number store (lines.map some ++ rest) =
      loadFrom (number + lines.length) (store.insertRecords (recordsOn lines)) rest := by
  induction lines generalizing number store with
  | nil => rfl
  | cons line lines ih =>
    obtain ⟨hline, hlines⟩ := List.forall_mem_cons.mp hlines
    have hrecords : recordsOn (line :: lines) = recordsOn [line] ++ recordsOn lines := by
      simp [recordsOn, ← List.filterMap_append, ← List.filter_append]
    have hload := ih hlines (number + 1) (store.insertRecords (recordsOn [line]))
    rw [List.map_cons, List.cons_append, loadFrom, loadLine_of_isLoadable hline]
    refine hload.trans ?_
    rw [hrecords, insertRecords, insertRecords, insertRecords, List.foldl_append,
      List.length_cons, Nat.add_right_comm, Nat.add_assoc]

/-- The rows of a store are counted as pairs of a population and a key. -/
theorem size_eq_card (store : Store) : ∃ keys : Finset (Population × ℕ),
    (∀ population key, (population, key) ∈ keys ↔
      ∃ raw, ⟨key, raw⟩ ∈ store.listed population) ∧ store.size = keys.card := by
  obtain ⟨populations, hpopulations, hsize⟩ := store.size_eq_sum
  let keysOf (population : Population) : List (Population × ℕ) :=
    (store.listed population).map fun row => (population, row.key)
  have hmem (population : Population) (entry : Population × ℕ) :
      entry ∈ keysOf population ↔ population = entry.1 ∧
        ∃ raw, ⟨entry.2, raw⟩ ∈ store.listed population := by
    rw [List.mem_map]
    constructor
    · rintro ⟨⟨key, raw⟩, hrow, rfl⟩
      exact ⟨rfl, raw, hrow⟩
    · rintro ⟨rfl, raw, hrow⟩
      exact ⟨⟨entry.2, raw⟩, hrow, rfl⟩
  have hnodup (population : Population) : (keysOf population).Nodup :=
    List.pairwise_map.mpr ((store.listed_ascending population).imp fun hlt heq =>
      hlt.ne (congrArg Prod.snd heq))
  refine ⟨populations.biUnion fun population => (keysOf population).toFinset, ?_, ?_⟩
  · intro population key
    simp only [Finset.mem_biUnion, List.mem_toFinset, hmem, hpopulations]
    constructor
    · rintro ⟨_, -, rfl, hrow⟩
      exact hrow
    · rintro ⟨raw, hrow⟩
      refine ⟨population, ?_, rfl, raw, hrow⟩
      exact List.ne_nil_of_mem (row_mem_stream_iff.mpr hrow)
  · rw [hsize, Finset.card_biUnion]
    · refine Finset.sum_congr rfl fun population _ => ?_
      rw [List.toFinset_card_of_nodup (hnodup population), List.length_map, stream_eq_listed,
        List.length_map]
    · intro first _ second _ hne
      refine Finset.disjoint_left.mpr fun entry hfirst hsecond => hne ?_
      rw [List.mem_toFinset, hmem] at hfirst hsecond
      rw [hfirst.1, hsecond.1]

/-- A store holds of every row the last score that some records give it, and nothing else. -/
structure HoldsLastScores (store : Store) (records : List Record) : Prop where
  /-- A stream brings the scored rows of its population in ascending order. -/
  stream : ∀ population, ∃ rows : List ScoredRow,
    store.stream population = rows.map .row ∧ AscendingRows rows ∧
      ∀ key raw, ⟨key, raw⟩ ∈ rows ↔ IsLastScore records population key raw
  /-- Every row that is scored counts once. -/
  size : ∃ keys : Finset (Population × ℕ),
    (∀ population key, (population, key) ∈ keys ↔
      ∃ record ∈ records, ∃ raw, record.Scores population key raw) ∧ store.size = keys.card

/-- A row has a last score exactly if a record scores it. -/
theorem exists_isLastScore_iff {records : List Record} {population : Population} {key : ℕ} :
    (∃ raw, IsLastScore records population key raw) ↔
      ∃ record ∈ records, ∃ raw, record.Scores population key raw := by
  simp only [← lastValue?_records_iff, ← Option.isSome_iff_exists, isSome_lastValue?_iff,
    List.mem_map, exists_exists_and_eq_and]
  simp only [Option.isSome_iff_exists, Write.value?_record_eq_some_iff]

/-- Storing some records one after another leaves the last scores of their rows. -/
theorem insertRecords_holdsLastScores (records : List Record) :
    (empty.insertRecords records).HoldsLastScores records := by
  have hwrites : empty.insertRecords records = ofWrites (records.map .record) := by
    rw [insertRecords, ofWrites, List.foldl_map]
    rfl
  have hlisted (population : Population) (key : ℕ) (raw : RawValue) :
      ⟨key, raw⟩ ∈ (empty.insertRecords records).listed population ↔
        IsLastScore records population key raw := by
    rw [hwrites, mem_listed_iff, getElem?_rows_ofWrites, lastValue?_records_iff]
  constructor
  case stream =>
    intro population
    exact ⟨_, stream_eq_listed _ _, listed_ascending _ _, hlisted population⟩
  case size =>
    obtain ⟨keys, hkeys, hsize⟩ := (empty.insertRecords records).size_eq_card
    refine ⟨keys, fun population key => ?_, hsize⟩
    simp only [hkeys, hlisted, exists_isLastScore_iff]

/-- The bytes of a text are loaded by its lines. -/
theorem ofBytes_eq_loadFrom {text : String} {lines : List String}
    (hlines : Lines.AreLinesOf (lines.map String.toList) text.toList) :
    ofBytes text.toUTF8 = loadFrom 1 empty (lines.map some) := by
  rw [ofBytes, linesOfBytes_toUTF8, hlines.eq, List.map_map]
  simp only [Function.comp_def, String.ofList_toList]

/-- Lines that can all be loaded leave the last scores of the records on them. -/
theorem loadFrom_of_isLoadable {lines : List String} (hlines : ∀ line ∈ lines, IsLoadable line)
    (number : ℕ) : loadFrom number empty (lines.map some) =
      .ok (empty.insertRecords (recordsOn lines)) := by
  have hload := loadFrom_append hlines number empty []
  rwa [List.append_nil, loadFrom] at hload

/-- The first line that cannot be loaded is reported by its number, whatever follows it. -/
theorem loadFrom_of_not_isLoadable {lines : List String}
    (hlines : ¬∀ line ∈ lines, IsLoadable line) (number : ℕ) (store : Store) :
    loadFrom number store (lines.map some) =
      .error (.malformed (number + lines.findIdx (¬IsLoadable ·)) "not a score record") := by
  set first := lines.findIdx (¬IsLoadable ·) with hfirst
  have hlt : first < lines.length := by
    rw [hfirst, List.findIdx_lt_length]
    simpa using hlines
  have hline : ¬IsLoadable lines[first] := of_decide_eq_true (List.findIdx_getElem (w := hlt))
  have hbefore : ∀ earlier ∈ lines.take first, IsLoadable earlier := by
    intro earlier hearlier
    obtain ⟨position, hposition, rfl⟩ := List.mem_take_iff_getElem.mp hearlier
    have hfirst := List.not_of_lt_findIdx (hposition.trans_le (min_le_left _ _))
    exact Decidable.not_not.mp (of_decide_eq_false hfirst)
  -- The load goes through the lines before the first one that is broken, and stops there.
  have hsplit : lines.map some =
      (lines.take first).map some ++ some lines[first] :: (lines.drop (first + 1)).map some := by
    rw [← List.map_cons, ← List.map_append, ← List.drop_eq_getElem_cons hlt,
      List.take_append_drop]
  rw [hsplit, loadFrom_append hbefore, loadFrom, loadLine_of_not_isLoadable hline,
    List.length_take_of_le hlt.le]
  rfl

/-- The lines of a text are loaded one after another. Where all of them can be loaded, the store
holds the last scores of the records on them. Otherwise the first line that cannot be loaded is
reported by its number, whatever stands before and behind it. -/
theorem ofBytes_loadsLines (text : String) :
    (∃ lines : List String, Lines.AreLinesOf (lines.map String.toList) text.toList) ∧
    ∀ lines : List String, Lines.AreLinesOf (lines.map String.toList) text.toList →
      ((∀ line ∈ lines, IsLoadable line) → ∃ store, ofBytes text.toUTF8 = .ok store ∧
        store.HoldsLastScores (recordsOn lines)) ∧
      ((¬∀ line ∈ lines, IsLoadable line) → ∃ reason, ofBytes text.toUTF8 =
        .error (.malformed (lines.findIdx (¬IsLoadable ·) + 1) reason)) := by
  constructor
  · refine ⟨(linesOfText text.toList).map String.ofList, ?_⟩
    rw [List.map_map]
    simpa [Function.comp_def] using Lines.areLinesOf_linesOfText text.toList
  · intro lines hlines
    rw [ofBytes_eq_loadFrom hlines]
    constructor
    · intro hloadable
      exact ⟨_, loadFrom_of_isLoadable hloadable 1, insertRecords_holdsLastScores _⟩
    · intro hbroken
      rw [loadFrom_of_not_isLoadable hbroken, Nat.add_comm]
      exact ⟨_, rfl⟩

/-- A score with a failed attempt and a blank line behind it, and a line that is no record between
two scores. -/
theorem ofBytes_loadsLines_failed_later :
    let score := "[\"eval\",\"tone\",null,7,\"DONE\",\"good\"]"
    let attempt := "[\"eval\",\"tone\",null,7,\"FAILED\",\"bad\"]"
    let lines := [score, " ", attempt]
    let text := score ++ "\r\n \n" ++ attempt ++ "\n"
    let broken := score ++ "\n\nno record\n" ++ score
    (Lines.AreLinesOf (lines.map String.toList) text.toList ∧ (∀ line ∈ lines, IsLoadable line) ∧
      ∃ store, ofBytes text.toUTF8 = .ok store ∧ store.HoldsLastScores (recordsOn lines)) ∧
    Lines.AreLinesOf ([score, "", "no record", score].map String.toList) broken.toList ∧
    (¬∀ line ∈ [score, "", "no record", score], IsLoadable line) ∧
    ∃ reason, ofBytes broken.toUTF8 = .error (.malformed 3 reason) := by
  intro score attempt lines text broken
  have hlines : Lines.AreLinesOf (lines.map String.toList) text.toList := by
    have hcut : linesOfText text.toList = lines.map String.toList := by decide +kernel
    exact hcut ▸ Lines.areLinesOf_linesOfText _
  have hbroken : Lines.AreLinesOf ([score, "", "no record", score].map String.toList)
      broken.toList := by
    have hcut : linesOfText broken.toList = [score, "", "no record", score].map String.toList := by
      decide +kernel
    exact hcut ▸ Lines.areLinesOf_linesOfText _
  have hloadable : ∀ line ∈ lines, IsLoadable line := by decide +kernel
  have hnone : ¬∀ line ∈ [score, "", "no record", score], IsLoadable line := by decide +kernel
  have hnumber : [score, "", "no record", score].findIdx (¬IsLoadable ·) + 1 = 3 := by
    decide +kernel
  refine ⟨⟨hlines, hloadable, ((ofBytes_loadsLines text).2 lines hlines).1 hloadable⟩, hbroken,
    hnone, ?_⟩
  rw [← hnumber]
  exact ((ofBytes_loadsLines broken).2 _ hbroken).2 hnone

end Store

end Scorebook

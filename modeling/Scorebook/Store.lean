import Std.Data.TreeMap
import Scorebook.Join
import Scorebook.Record

/-!
# The store of scored rows

Rows are kept by population, and within a population by row key, so that a stream of it runs in
ascending order. A row that is stored again replaces the earlier one. Only finished records
that hold a value are stored.
-/

namespace Scorebook

/-- The rows that one score gave over one scope of an evaluation. -/
structure Population where
  evaluationId : String
  scoreId : String
  scope : Scope
  deriving Repr, DecidableEq

/-- The dataset comes before every experiment, and experiments are ordered by their names. -/
instance : Ord Scope := ⟨compareOn Scope.experimentId?⟩

instance : Std.TransOrd Scope := inferInstanceAs (Std.TransCmp (compareOn Scope.experimentId?))

instance : Std.LawfulEqOrd Scope where
  eq_of_compare h := Scope.experimentId?_inj (Std.LawfulEqOrd.eq_of_compare h)

namespace Population

/-- Populations are ordered by evaluation, then by score, then by scope. -/
def order : Population → Population → Ordering :=
  compareLex (compareOn evaluationId) (compareLex (compareOn scoreId) (compareOn scope))

instance : Ord Population := ⟨order⟩

instance : Std.TransOrd Population :=
  inferInstanceAs (Std.TransCmp
    (compareLex (compareOn evaluationId) (compareLex (compareOn scoreId) (compareOn scope))))

instance : Std.LawfulEqOrd Population where
  eq_of_compare {a b} h := by
    obtain ⟨hevaluation, hrest⟩ := Ordering.then_eq_eq.mp h
    obtain ⟨hscore, hscope⟩ := Ordering.then_eq_eq.mp hrest
    cases a; cases b
    congr
    · exact Std.LawfulEqOrd.eq_of_compare hevaluation
    · exact Std.LawfulEqOrd.eq_of_compare hscore
    · exact Std.LawfulEqOrd.eq_of_compare hscope

end Population

/-- Scored rows by population and row key. -/
structure Store where
  populations : Std.TreeMap Population (Std.TreeMap Nat RawValue)

namespace Store

/-- The store without rows. -/
def empty : Store := ⟨∅⟩

/-- The rows of a population by row key. -/
def rows (store : Store) (population : Population) : Std.TreeMap Nat RawValue :=
  (store.populations[population]?).getD ∅

/-- Stores a row, in place of any earlier one of that key in its population. -/
def insert (store : Store) (population : Population) (key : Nat) (raw : RawValue) : Store :=
  ⟨store.populations.insert population ((store.rows population).insert key raw)⟩

/-- The population of a record. -/
def populationOf (record : Record) : Population :=
  ⟨record.evaluationId, record.scoreId, record.scope⟩

/-- The value of a record that is a score: finished, and with a value. -/
def scoreOf? (record : Record) : Option RawValue :=
  if record.status = .done then record.value else none

/-- Stores a record if it is a score, and says whether it was. -/
def insertRecord (store : Store) (record : Record) : Bool × Store :=
  match scoreOf? record with
  | some raw => (true, store.insert (populationOf record) record.rowKey raw)
  | none => (false, store)

/-- The number of rows over all populations. -/
def size (store : Store) : Nat :=
  store.populations.toList.foldl (fun total (_, rows) => total + rows.size) 0

/-- Whether no row is stored. -/
def isEmpty (store : Store) : Bool := store.size = 0

/-- The scores with a row in a scope of an evaluation, in ascending order. -/
def scoreIds (store : Store) (evaluationId : String) (scope : Scope) : List String :=
  (store.populations.toList.filter fun (population, rows) =>
    population.evaluationId = evaluationId ∧ population.scope = scope ∧ ¬rows.isEmpty).map
      (·.1.scoreId)

/-- The stream of a population, in ascending order of its row keys. -/
def stream (store : Store) (population : Population) : List (Event ScoredRow) :=
  (store.rows population).toList.map fun (key, raw) => .row ⟨key, raw⟩

/-- The stream of the rows that two experiments both scored. -/
def pairedStream (store : Store) (evaluationId scoreId experimentA experimentB : String) :
    List (Event PairedRow) :=
  Join.events (store.stream ⟨evaluationId, scoreId, .experiment experimentA⟩)
    (store.stream ⟨evaluationId, scoreId, .experiment experimentB⟩)

end Store

end Scorebook

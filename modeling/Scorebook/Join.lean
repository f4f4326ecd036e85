import Scorebook.Score.RawValue
import Scorebook.Stream

/-!
# The merge join of two streams

Two streams in ascending order of their row keys are joined on the keys they share. The join
holds one row of each side at a time. A key that does not exceed the one before it on its side
is a fault of that stream, and after a fault the join yields nothing more.
-/

namespace Scorebook

/-- A scored row. -/
structure ScoredRow where
  key : Nat
  raw : RawValue
  deriving Repr

/-- A row that both sides scored. -/
structure PairedRow where
  key : Nat
  rawA : RawValue
  rawB : RawValue
  deriving Repr

/-- Puts a fault in place of every row whose key does not exceed the greatest key accepted so
far. -/
def inOrder : Option Nat → List (Event ScoredRow) → List (Event ScoredRow)
  | _, [] => []
  | none, .row value :: rest => .row value :: inOrder (some value.key) rest
  | some last, .row value :: rest =>
    if value.key ≤ last then .fault (.outOfOrder last value.key) :: inOrder (some last) rest
    else .row value :: inOrder (some value.key) rest
  | last, event :: rest => event :: inOrder last rest

/-- A join under way: what is left of the two sides, in order or with the faults of disorder. -/
structure Join where
  left : List (Event ScoredRow)
  right : List (Event ScoredRow)
  /-- Whether a fault was reported. -/
  failed : Bool

/-- What a poll of a join brings. -/
inductive Polled where
  /-- The next shared row. -/
  | pair (value : PairedRow)
  | fault (cause : SourceFault)
  | crash
  /-- One side has no more rows, or a fault was reported before. -/
  | ended
  deriving Repr

/-- A poll: what it brings, whether cancellation was requested while rows were pulled for it,
and the join after it. -/
structure Poll where
  polled : Polled
  cancelled : Cancelled
  join : Join

namespace Join

/-- The join of two streams at its beginning. -/
def ofEvents (left right : List (Event ScoredRow)) : Join :=
  ⟨inOrder none left, inOrder none right, false⟩

/-- Pulls rows on the right until one meets the row `a` held on the left. Once the right side is
beyond that row, the left side has to be pulled on. -/
def meetRight (a : ScoredRow) (left : List (Event ScoredRow))
    (pullLeft : Cancelled → ScoredRow → List (Event ScoredRow) → Poll) :
    Cancelled → List (Event ScoredRow) → Poll
  | cancelled, [] => ⟨.ended, cancelled, left, [], false⟩
  | _, .cancel :: right => meetRight a left pullLeft true right
  | cancelled, .fault cause :: right => ⟨.fault cause, cancelled, left, right, true⟩
  | cancelled, .crash :: right => ⟨.crash, cancelled, left, right, true⟩
  | cancelled, .row b :: right =>
    match compare a.key b.key with
    | .eq => ⟨.pair ⟨a.key, a.raw, b.raw⟩, cancelled, left, right, false⟩
    | .lt => pullLeft cancelled b right
    | .gt => meetRight a left pullLeft cancelled right

/-- Pulls rows on the left, with the row held on the right if there is one, until a shared row
is found. A row that is held when a side ends is dropped. -/
def meetLeft : List (Event ScoredRow) → Cancelled → Option ScoredRow →
    List (Event ScoredRow) → Poll
  | [], cancelled, _, right => ⟨.ended, cancelled, [], right, false⟩
  | .cancel :: left, _, held, right => meetLeft left true held right
  | .fault cause :: left, cancelled, _, right => ⟨.fault cause, cancelled, left, right, true⟩
  | .crash :: left, cancelled, _, right => ⟨.crash, cancelled, left, right, true⟩
  | .row a :: left, cancelled, none, right =>
    meetRight a left (fun cancelled b => meetLeft left cancelled (some b)) cancelled right
  | .row a :: left, cancelled, some b, right =>
    match compare a.key b.key with
    | .eq => ⟨.pair ⟨a.key, a.raw, b.raw⟩, cancelled, left, right, false⟩
    | .lt => meetLeft left cancelled (some b) right
    | .gt =>
      meetRight a left (fun cancelled b => meetLeft left cancelled (some b)) cancelled right

/-- Asks a join for its next shared row. -/
def poll (join : Join) : Poll :=
  if join.failed then ⟨.ended, false, join⟩ else meetLeft join.left false none join.right

/-- What a number of polls bring, one after another. -/
def polls : Nat → Join → List Polled
  | 0, _ => []
  | count + 1, join => join.poll.polled :: polls count join.poll.join

/-- The events of the joined stream, up to the first poll that brings no row. Every poll that
brings one has pulled a row on the left, so the number of left events bounds the polls. -/
def drain : Nat → Join → List (Event PairedRow)
  | 0, _ => []
  | fuel + 1, join =>
    let requested : List (Event PairedRow) := if join.poll.cancelled then [.cancel] else []
    requested ++ match join.poll.polled with
      | .pair value => .row value :: drain fuel join.poll.join
      | .fault cause => [.fault cause]
      | .crash => [.crash]
      | .ended => []

/-- The stream of the rows that two streams share. -/
def events (left right : List (Event ScoredRow)) : List (Event PairedRow) :=
  drain (left.length + 1) (ofEvents left right)

end Join

end Scorebook

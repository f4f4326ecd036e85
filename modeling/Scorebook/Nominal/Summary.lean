import Scorebook.Arithmetic
import Scorebook.Keyed
import Scorebook.Score.Coder

/-!
# Summaries of nominal scores

A nominal sample counts codes. Its summary gives each code that occurs its count, its share and
its label, and names the most frequent one.
-/

namespace Scorebook

namespace Nominal

/-- The descriptive statistics of a nominal population. -/
structure Summary (α : Type) where
  scored : Nat
  counts : List (Int × Nat)
  proportions : List (Int × α)
  distinct : Nat
  /-- The most frequent code, the smallest one of several. -/
  modeCode : Option Int
  modeLabel : Option String
  labels : List (Int × String)
  deriving Repr

/-- The codes of a pass so far. -/
structure Sample where
  counts : List (Int × Nat)
  scored : Nat

namespace Sample

/-- The sample without values. -/
def empty : Sample := ⟨[], 0⟩

/-- Counts one more occurrence of a code. -/
def push (sample : Sample) (code : Int) : Sample :=
  ⟨Keyed.bump code sample.counts, sample.scored + 1⟩

/-- Codes a raw value and counts it. -/
def pushRaw (sample : Sample) (coder : Coder) (raw : RawValue) : Option Int × Coder × Sample :=
  match coder.code raw with
  | (some code, coder) => (some code, coder, sample.push code)
  | (none, coder) => (none, coder, sample)

/-- The first entry with the greatest count. -/
def mode? (counts : List (Int × Nat)) : Option (Int × Nat) :=
  counts.foldl
    (fun best entry =>
      match best with
      | some leader => if leader.2 < entry.2 then some entry else best
      | none => some entry)
    none

/-- The statistics of the codes so far, with the labels of their coder. -/
def summary {α : Type} [Arithmetic α] (sample : Sample) (coder : Coder) : Summary α :=
  let modeCode := (mode? sample.counts).map (·.1)
  { scored := sample.scored
    counts := sample.counts
    proportions := sample.counts.map fun (code, count) =>
      (code, Arithmetic.proportion count sample.scored)
    distinct := sample.counts.length
    modeCode
    modeLabel := modeCode.bind coder.labelOf?
    labels := sample.counts.filterMap fun (code, _) =>
      (coder.labelOf? code).map fun label => (code, label) }

end Sample

end Nominal

end Scorebook

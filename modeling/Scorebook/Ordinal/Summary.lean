import Scorebook.Arithmetic
import Scorebook.Keyed
import Scorebook.Ordinal.PassCriteria
import Scorebook.Settings

/-!
# Summaries of ordinal scores

An ordinal sample counts every declared code, also those that never occur. Percentile
categories are found by comparing whole cumulative counts, so that a boundary that is met
exactly is met.
-/

namespace Scorebook

namespace Ordinal

/-- The share of a population that passes, with the rule it is judged by. -/
structure PassRate (α : Type) where
  proportion : α
  passed : Nat
  acceptable : List String
  threshold : Option Int
  deriving Repr

/-- The descriptive statistics of an ordinal population. -/
structure Summary (α : Type) where
  scored : Nat
  counts : List (Int × Nat)
  proportions : List (Int × α)
  /-- The share at or below each declared code. -/
  cdf : List (Int × α)
  passRate : PassRate α
  /-- For each reported percentile the label of the smallest category that reaches it. -/
  percentiles : List (String × String)
  median : Option String
  labels : List (Int × String)
  excluded : Nat
  deriving Repr

/-- The codes of a pass so far. -/
structure Sample where
  counts : List (Int × Nat)
  scored : Nat
  passed : Nat
  excluded : Nat
  criteria : PassCriteria

/-- Running totals of counts, in the order of their keys. -/
def cumulative (total : Nat) : List (Int × Nat) → List (Int × Nat)
  | [] => []
  | (code, count) :: rest => (code, total + count) :: cumulative (total + count) rest

/-- The smallest code whose running total reaches a percentage of the whole, none for an empty
whole. -/
def codeAt? (totals : List (Int × Nat)) (whole percent : Nat) : Option Int :=
  if whole = 0 then none
  else (totals.find? fun (_, total) => percent * whole ≤ total * 100).map (·.1)

/-- The name under which a percentile is reported. -/
def percentileName (percent : Nat) : String := "p" ++ toString percent

namespace Sample

/-- The sample without values, over the declared codes of a coder. -/
def empty (rule : Option PassRule) (coder : Coder) : Sample :=
  ⟨coder.labels.map fun (code, _) => (code, 0), 0, 0, 0, .ofRule rule coder⟩

/-- Counts one more occurrence of a declared code. Another code is refused and changes nothing. -/
def push? (sample : Sample) (code : Int) : Option Sample :=
  match Keyed.find? code sample.counts with
  | none => none
  | some _ => some {
      sample with
      counts := Keyed.bump code sample.counts
      scored := sample.scored + 1
      passed := if sample.criteria.passes code then sample.passed + 1 else sample.passed }

/-- Counts one more occurrence of a code if it is declared. -/
def push (sample : Sample) (code : Int) : Sample := (sample.push? code).getD sample

/-- Counts a row whose value is not on the scale. -/
def exclude (sample : Sample) : Sample := { sample with excluded := sample.excluded + 1 }

/-- Codes a raw value and counts it, or counts its row as excluded. -/
def pushRaw (sample : Sample) (coder : Coder) (raw : RawValue) : Option Int × Sample :=
  match (coder.code raw).1.bind fun code => (sample.push? code).map fun next => (code, next) with
  | some (code, next) => (some code, next)
  | none => (none, sample.exclude)

/-- The statistics of the codes so far, with the labels of their coder. -/
def summary {α : Type} [Arithmetic α] (sample : Sample) (coder : Coder) (percents : List Nat) :
    Summary α :=
  let whole := sample.scored
  let totals := cumulative 0 sample.counts
  let categoryAt? (percent : Nat) : Option String :=
    (codeAt? totals whole percent).bind coder.labelOf?
  { scored := whole
    counts := sample.counts
    proportions := sample.counts.map fun (code, count) =>
      (code, Arithmetic.proportion count whole)
    cdf := totals.map fun (code, total) => (code, Arithmetic.proportion total whole)
    passRate := ⟨Arithmetic.proportion sample.passed whole, sample.passed,
      sample.criteria.acceptable, sample.criteria.threshold⟩
    percentiles := Keyed.ofList (percents.filterMap fun percent =>
      (categoryAt? percent).map fun label => (percentileName percent, label))
    median := categoryAt? 50
    labels := coder.labels
    excluded := sample.excluded }

end Sample

end Ordinal

end Scorebook

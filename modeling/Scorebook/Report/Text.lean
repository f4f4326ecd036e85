import Scorebook.Comparison
import Scorebook.Decimal.Places
import Scorebook.Report
import Scorebook.Text.Columns

/-!
# Reports as text

A report for readers shows numbers with four places, rates with three and shares as percentages.
A quantity that is not defined is shown as a dash.
-/

namespace Scorebook

namespace ReportText

/-- A number with that many places. -/
def places (count : Nat) (x : Float) : String := fixedPlaces .negativeOnly count x

/-- A number with four places, or a dash. -/
def dashed (x : Option Float) : String :=
  match x with
  | some x => places 4 x
  | none => "-"

/-- Lines of text, each ended by a line feed. -/
def lines (items : List String) : String := String.join (items.map (· ++ "\n"))

/-- A line that is shown for a count which is not zero. -/
def unlessZero (label : String) (count : Nat) : List String :=
  if count = 0 then [] else [label ++ toString count]

/-- A line that is shown for a text which is there. -/
def ifPresent (label : String) (text : Option String) : List String :=
  match text with
  | some text => [label ++ text]
  | none => []

/-- A confidence interval in brackets. -/
def interval (interval : Interval Float) : String :=
  "[" ++ places 4 interval.lower ++ ", " ++ places 4 interval.upper ++ "]"

/-- Whether a test is significant, in words. -/
def verdict (significant : Bool) : String :=
  if significant then "significant" else "not significant"

/-- A code and its label in the columns of a table. -/
def category (code : Int) (label : String) : String :=
  "  " ++ padLeft 3 (toString code) ++ " " ++ padRight 20 label

/-- The label of a code in a table of labels. -/
def labelIn (labels : List (Int × String)) (code : Int) : String :=
  (Keyed.find? code labels).getD "?"

/-- The number of a code in a table of numbers. -/
def numberIn (table : List (Int × Float)) (code : Int) : Float := (Keyed.find? code table).getD 0.0

/-- A numeric summary. -/
def numeric (summary : Numeric.Summary Float) : List String :=
  ["  n_scored: " ++ toString summary.scored,
    "  mean:     " ++ dashed summary.mean,
    "  std:      " ++ dashed summary.deviation,
    "  min/max:  " ++ dashed summary.least ++ " / " ++ dashed summary.greatest,
    "  p10/p50/p90: " ++ dashed summary.p10 ++ " / " ++ dashed summary.p50 ++ " / "
      ++ dashed summary.p90]
    ++ ifPresent "  95% CI:   " (summary.interval.map interval)
    ++ unlessZero "  excluded: " summary.excluded

/-- A nominal summary. -/
def nominal (summary : Nominal.Summary Float) : List String :=
  ["  n_scored: " ++ toString summary.scored]
    ++ summary.counts.map (fun (code, count) =>
      category code (labelIn summary.labels code) ++ " " ++ padLeft 8 (toString count) ++ " ("
        ++ places 1 (numberIn summary.proportions code * 100.0) ++ "%)")
    ++ ifPresent "  mode:     " summary.modeLabel

/-- An ordinal summary. -/
def ordinal (summary : Ordinal.Summary Float) : List String :=
  ["  n_scored: " ++ toString summary.scored]
    ++ summary.counts.map (fun (code, count) =>
      category code (labelIn summary.labels code) ++ " " ++ padLeft 8 (toString count) ++ "  cdf "
        ++ places 4 (numberIn summary.cdf code))
    ++ ["  pass rate: " ++ places 4 summary.passRate.proportion]
    ++ ifPresent "  median:    " summary.median
    ++ unlessZero "  excluded:  " summary.excluded

/-- A summary of any kind. -/
def summary : Summary Float → List String
  | .numeric summary => numeric summary
  | .nominal summary => nominal summary
  | .ordinal summary => ordinal summary

/-- The rates of wins, losses and ties. -/
def outcomes (outcomes : Outcomes Float) : String :=
  "  win/loss/tie: " ++ places 3 outcomes.winRate ++ " / " ++ places 3 outcomes.lossRate ++ " / "
    ++ places 3 outcomes.tieRate

/-- A probability and its verdict. -/
def probability (pValue : Option Float) (significant : Bool) : String :=
  " p=" ++ dashed pValue ++ " (" ++ verdict significant ++ ")"

/-- A numeric comparison. -/
def numericComparison (comparison : Numeric.Comparison Float) : List String :=
  ["  mean A: " ++ dashed comparison.meanA ++ "  mean B: " ++ dashed comparison.meanB,
    "  delta:  " ++ dashed comparison.deltaMean]
    ++ ifPresent "  95% CI: " (comparison.deltaInterval.map interval)
    ++ [outcomes comparison.outcomes]
    ++ ifPresent "  paired t: " (comparison.tTest.map fun test =>
      "t=" ++ places 4 test.statistic ++ " df=" ++ plainNumber test.df
        ++ probability test.pValue test.significant)

/-- A nominal comparison. -/
def nominalComparison (comparison : Nominal.Comparison Float) : List String :=
  comparison.distribution.map (fun (code, shares) =>
    category code shares.label ++ " A " ++ places 4 shares.proportionA ++ "  B "
      ++ places 4 shares.proportionB)
    ++ ["  agreement: " ++ places 4 comparison.agreement,
      "  Bowker: chi2=" ++ places 4 comparison.symmetry.statistic ++ " df="
        ++ toString comparison.symmetry.df
        ++ probability comparison.symmetry.pValue comparison.symmetry.significant,
      "  Cramer's V: " ++ dashed comparison.cramersV]

/-- An ordinal comparison. -/
def ordinalComparison (comparison : Ordinal.Comparison Float) : List String :=
  let rates := comparison.passRates
  let test := comparison.signedRank
  ["  pass rate A: " ++ places 4 rates.rateA ++ "  B: " ++ places 4 rates.rateB ++ "  delta: "
      ++ fixedPlaces .always 4 rates.delta,
    outcomes comparison.outcomes,
    "  Wilcoxon: W=" ++ places 1 test.statistic ++ " z=" ++ dashed test.z
      ++ probability test.pValue test.significant,
    "  Cliff's delta: " ++ dashed comparison.cliffsDelta ++ "  P(B>A): "
      ++ dashed comparison.superiority]

/-- A comparison body of any kind. -/
def comparisonBody : ComparisonBody Float → List String
  | .numeric comparison => numericComparison comparison
  | .nominal comparison => nominalComparison comparison
  | .ordinal comparison => ordinalComparison comparison

end ReportText

open ReportText

/-- A report for readers. -/
def Report.toText (report : Report Float) : String :=
  let header := "Evaluation " ++ report.evaluationId ++ " (" ++ report.scope.text ++ "): "
    ++ toString report.entries.length ++ " score(s)"
  let entries := report.entries.flatMap fun entry =>
    ("\n== " ++ entry.scoreId ++ " [" ++ entry.summary.kind ++ "] ==") :: summary entry.summary
  let failures :=
    if report.failures.isEmpty then []
    else "\nFailed scores:" :: report.failures.map fun failure =>
      "  " ++ failure.scoreId ++ ": " ++ failure.message
  lines (header :: entries ++ failures)

/-- A comparison for readers. -/
def Comparison.toText (comparison : Comparison Float) : String :=
  let header := comparison.scoreId ++ ": " ++ comparison.experimentA ++ " (A) vs "
    ++ comparison.experimentB ++ " (B), " ++ toString comparison.paired ++ " paired row(s)"
  lines (header :: comparisonBody comparison.body)

end Scorebook

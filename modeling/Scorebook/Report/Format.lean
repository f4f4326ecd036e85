import Scorebook.Comparison
import Scorebook.Decimal.Places
import Scorebook.Json.Value
import Scorebook.Report

/-!
# Reports as interchange values

Fields are written in their order of declaration, tables by ascending code, and categories by
label. A quantity that is not defined is null. Probabilities of tests are written with nine
significant digits.
-/

namespace Scorebook

namespace Json

/-- A number that may not be defined. -/
def optionalNumber (x : Option Float) : Json := ofOption num x

/-- A probability, to nine significant digits. -/
def probability (p : Option Float) : Json := ofOption (fun p => num (significantDigits 9 p)) p

/-- A table by code, the codes written as names. -/
def byCode {α : Type} (encode : α → Json) (table : List (Int × α)) : Json :=
  obj (table.map fun (code, value) => (toString code, encode value))

/-- A list of texts. -/
def texts (items : List String) : Json := arr (items.map str)

end Json

open Json

/-- Writes an interval. -/
def Interval.toJson (interval : Interval Float) : Json :=
  .obj [("lower", .num interval.lower), ("upper", .num interval.upper)]

/-- The fields of a tally with its rates. -/
def Outcomes.fields (outcomes : Outcomes Float) : List (String × Json) :=
  [("wins", count outcomes.tally.wins), ("losses", count outcomes.tally.losses),
    ("ties", count outcomes.tally.ties), ("win_rate", .num outcomes.winRate),
    ("loss_rate", .num outcomes.lossRate), ("tie_rate", .num outcomes.tieRate)]

/-- The fields of a numeric summary. -/
def Numeric.Summary.fields (summary : Numeric.Summary Float) : List (String × Json) :=
  [("n_scored", count summary.scored), ("mean", optionalNumber summary.mean),
    ("variance", optionalNumber summary.variance), ("std", optionalNumber summary.deviation),
    ("min", optionalNumber summary.least), ("max", optionalNumber summary.greatest),
    ("p10", optionalNumber summary.p10), ("p25", optionalNumber summary.p25),
    ("p50", optionalNumber summary.p50), ("p75", optionalNumber summary.p75),
    ("p90", optionalNumber summary.p90),
    ("ci95_mean", ofOption Interval.toJson summary.interval),
    ("excluded_rows", count summary.excluded)]

/-- The fields of a nominal summary. The mode is a name, as codes are in the tables. -/
def Nominal.Summary.fields (summary : Nominal.Summary Float) : List (String × Json) :=
  [("n_scored", count summary.scored), ("counts_by_code", byCode count summary.counts),
    ("proportions_by_code", byCode .num summary.proportions),
    ("num_distinct_categories", count summary.distinct),
    ("mode_code", ofOption (fun code => .str (toString code)) summary.modeCode),
    ("mode_label", ofOption .str summary.modeLabel),
    ("labels_by_code", byCode .str summary.labels)]

/-- Writes a pass rate. -/
def Ordinal.PassRate.toJson (rate : Ordinal.PassRate Float) : Json :=
  .obj ([("proportion", .num rate.proportion), ("passed", count rate.passed),
      ("acceptable_set", texts rate.acceptable)]
    ++ optionalMember "threshold_rank" .int rate.threshold)

/-- The fields of an ordinal summary. -/
def Ordinal.Summary.fields (summary : Ordinal.Summary Float) : List (String × Json) :=
  [("n_scored", count summary.scored), ("counts_by_code", byCode count summary.counts),
    ("proportions_by_code", byCode .num summary.proportions), ("cdf", byCode .num summary.cdf),
    ("pass_rate", summary.passRate.toJson),
    ("percentile_categories", .obj (summary.percentiles.map fun (name, label) =>
      (name, .str label))),
    ("median_category", ofOption .str summary.median),
    ("labels_by_code", byCode .str summary.labels), ("excluded_rows", count summary.excluded)]

namespace Summary

/-- The fields of a summary. -/
def fields : Summary Float → List (String × Json)
  | numeric summary => summary.fields
  | nominal summary => summary.fields
  | ordinal summary => summary.fields

/-- Writes a summary with its kind in front. -/
def toJson (summary : Summary Float) : Json := .obj (("type", .str summary.kind) :: summary.fields)

end Summary

/-- Writes a t test. -/
def Numeric.TTest.toJson (test : Numeric.TTest Float) : Json :=
  .obj [("statistic", .num test.statistic), ("df", .num test.df),
    ("p_value", probability test.pValue), ("is_significant", .bool test.significant)]

/-- Writes a numeric comparison. -/
def Numeric.Comparison.toJson (comparison : Numeric.Comparison Float) : Json :=
  .obj ([("n_paired", count comparison.paired), ("mean_a", optionalNumber comparison.meanA),
      ("mean_b", optionalNumber comparison.meanB),
      ("std_a", optionalNumber comparison.deviationA),
      ("std_b", optionalNumber comparison.deviationB),
      ("delta_mean", optionalNumber comparison.deltaMean)]
    ++ comparison.outcomes.fields
    ++ [("ci95_delta", ofOption Interval.toJson comparison.deltaInterval),
      ("paired_t_test", ofOption Numeric.TTest.toJson comparison.tTest),
      ("excluded_rows", count comparison.excluded)])

/-- Writes the shares of a category. -/
def Nominal.CategoryShares.toJson (shares : Nominal.CategoryShares Float) : Json :=
  .obj [("label", .str shares.label), ("proportion_a", .num shares.proportionA),
    ("proportion_b", .num shares.proportionB)]

/-- Writes a test of symmetry. -/
def Nominal.SymmetryTest.toJson (test : Nominal.SymmetryTest Float) : Json :=
  .obj [("statistic", .num test.statistic), ("df", count test.df),
    ("p_value", probability test.pValue), ("is_significant", .bool test.significant)]

/-- Writes a contingency table, one object for each cell. -/
def Nominal.Table.toJson (table : Nominal.Table) : Json :=
  .arr (table.map fun (cell, total) =>
    .obj [("code_a", .int cell.a), ("code_b", .int cell.b), ("count", count total)])

/-- Writes a nominal comparison. -/
def Nominal.Comparison.toJson (comparison : Nominal.Comparison Float) : Json :=
  .obj [("n_paired", count comparison.paired),
    ("distribution_comparison", byCode Nominal.CategoryShares.toJson comparison.distribution),
    ("contingency_table", comparison.table.toJson),
    ("agreement_rate", .num comparison.agreement), ("bowker", comparison.symmetry.toJson),
    ("cramers_v", optionalNumber comparison.cramersV)]

/-- Writes a signed-rank test. -/
def Ordinal.SignedRankTest.toJson (test : Ordinal.SignedRankTest Float) : Json :=
  .obj [("n_nonzero", count test.nonzero), ("w_plus", .num test.plus),
    ("w_minus", .num test.minus), ("statistic", .num test.statistic),
    ("z", optionalNumber test.z), ("p_value", probability test.pValue),
    ("is_significant", .bool test.significant)]

/-- Writes an ordinal comparison. -/
def Ordinal.Comparison.toJson (comparison : Ordinal.Comparison Float) : Json :=
  let rates := comparison.passRates
  .obj ([("n_paired", count comparison.paired),
      ("delta_pass_rate", .obj [("pass_rate_a", .num rates.rateA),
        ("pass_rate_b", .num rates.rateB), ("delta", .num rates.delta)]),
      ("cdf_comparison", .obj (comparison.cdf.map fun (label, pair) =>
        (label, .obj [("code", .int pair.code), ("cdf_a", .num pair.cdfA),
          ("cdf_b", .num pair.cdfB)])))]
    ++ comparison.outcomes.fields
    ++ [("wilcoxon", comparison.signedRank.toJson),
      ("cliffs_delta", optionalNumber comparison.cliffsDelta),
      ("probability_of_superiority", optionalNumber comparison.superiority),
      ("excluded_rows", count comparison.excluded)])

/-- Writes a comparison body under the name of its kind. -/
def ComparisonBody.member : ComparisonBody Float → String × Json
  | numeric comparison => ("numeric", comparison.toJson)
  | nominal comparison => ("nominal", comparison.toJson)
  | ordinal comparison => ("ordinal", comparison.toJson)

/-- Writes a comparison. -/
def Comparison.toJson (comparison : Comparison Float) : Json :=
  .obj [("experiment_id_a", .str comparison.experimentA),
    ("experiment_id_b", .str comparison.experimentB), ("score_id", .str comparison.scoreId),
    ("scoring_type", .str comparison.scoringType.name), comparison.body.member]

/-- Writes an entry of a report. -/
def ReportEntry.toJson (entry : ReportEntry Float) : Json :=
  .obj ([("score_id", .str entry.scoreId)]
    ++ optionalMember "experiment_id" .str entry.experimentId
    ++ [("stats", entry.summary.toJson)])

/-- Writes a failure of a report. -/
def ReportFailure.toJson (failure : ReportFailure) : Json :=
  .obj [("score_id", .str failure.scoreId), ("message", .str failure.message),
    ("retryable", .bool failure.retryable)]

/-- Writes a report. The failures are left out when there are none. -/
def Report.toJson (report : Report Float) : Json :=
  .obj ([("evaluation_id", .str report.evaluationId), ("scope", .str report.scope.text),
      ("entries", .arr (report.entries.map ReportEntry.toJson))]
    ++ if report.failures.isEmpty then []
      else [("errors", .arr (report.failures.map ReportFailure.toJson))])

end Scorebook

import Scorebook.Arithmetic
import Scorebook.Arithmetic.Double
import Scorebook.Binary64
import Scorebook.Command.Arguments
import Scorebook.Command.Files
import Scorebook.Command.Run
import Scorebook.Comparison
import Scorebook.Decimal.Layout
import Scorebook.Decimal.Numeral
import Scorebook.Decimal.Places
import Scorebook.Decimal.Shortest
import Scorebook.Engine
import Scorebook.Fault
import Scorebook.Join
import Scorebook.Json.Printer
import Scorebook.Json.Syntax
import Scorebook.Json.Value
import Scorebook.Keyed
import Scorebook.Main
import Scorebook.Nominal.Association
import Scorebook.Nominal.Comparison
import Scorebook.Nominal.Summary
import Scorebook.Nominal.Symmetry
import Scorebook.Numeric.Comparison
import Scorebook.Numeric.Moments
import Scorebook.Numeric.Percentile
import Scorebook.Numeric.Summary
import Scorebook.Ordinal.Comparison
import Scorebook.Ordinal.PassCriteria
import Scorebook.Ordinal.SignedRank
import Scorebook.Ordinal.Summary
import Scorebook.Outcomes
import Scorebook.Proofs.Cancellation
import Scorebook.Proofs.Doubles
import Scorebook.Proofs.Exchange.Comparisons
import Scorebook.Proofs.Exchange.Nominal
import Scorebook.Proofs.Formats.Records
import Scorebook.Proofs.Join.Merge
import Scorebook.Proofs.Join.Polling
import Scorebook.Proofs.Join.Runs
import Scorebook.Proofs.Join.SharedRows
import Scorebook.Proofs.Join.Stream
import Scorebook.Proofs.Lookups
import Scorebook.Proofs.Nominal.Association
import Scorebook.Proofs.Nominal.Categories
import Scorebook.Proofs.Nominal.Margins
import Scorebook.Proofs.Nominal.Modes
import Scorebook.Proofs.Nominal.Numbering
import Scorebook.Proofs.Nominal.Shares
import Scorebook.Proofs.Nominal.Symmetry
import Scorebook.Proofs.Numeric.Columns
import Scorebook.Proofs.Numeric.ExactMoments
import Scorebook.Proofs.Numeric.PairedTest
import Scorebook.Proofs.Numeric.Percentiles
import Scorebook.Proofs.Numeric.Sorting
import Scorebook.Proofs.Numeric.Spread
import Scorebook.Proofs.Offenders
import Scorebook.Proofs.Ordinal.Bookkeeping
import Scorebook.Proofs.Ordinal.Columns
import Scorebook.Proofs.Ordinal.Percentiles
import Scorebook.Proofs.Ordinal.ScaleCodes
import Scorebook.Proofs.Ordinal.SignedRanks
import Scorebook.Proofs.Passes
import Scorebook.Proofs.Reordering
import Scorebook.Proofs.Reports
import Scorebook.Proofs.Results
import Scorebook.Proofs.Sides
import Scorebook.Proofs.Statistics
import Scorebook.Proofs.Store.Contents
import Scorebook.Proofs.Store.Loading
import Scorebook.Proofs.Store.Observations
import Scorebook.Proofs.Tables
import Scorebook.Proofs.Workers.Answers
import Scorebook.Proofs.Workers.Moves
import Scorebook.Proofs.Workers.Schedules
import Scorebook.Record
import Scorebook.Record.Format
import Scorebook.Report
import Scorebook.Report.Format
import Scorebook.Report.Text
import Scorebook.Score.Codebook
import Scorebook.Score.Coder
import Scorebook.Score.Definition
import Scorebook.Score.Format
import Scorebook.Score.RawValue
import Scorebook.Score.Registry
import Scorebook.Score.Validation
import Scorebook.Settings
import Scorebook.Settings.Format
import Scorebook.Store
import Scorebook.Store.Lines
import Scorebook.Stream
import Scorebook.Summary
import Scorebook.Tail
import Scorebook.Tail.Beta
import Scorebook.Tail.Double
import Scorebook.Tail.Gamma
import Scorebook.Tail.Normal
import Scorebook.Text.Blank
import Scorebook.Text.Columns
import Scorebook.Text.Hidden
import Scorebook.Text.Lines
import Scorebook.Text.Quoted
import Scorebook.Toml.Document
import Scorebook.Toml.Number
import Scorebook.Toml.Text
import Scorebook.Toml.Value
import Scorebook.Word
import Scorebook.Workers

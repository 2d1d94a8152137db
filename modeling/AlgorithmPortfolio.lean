import AlgorithmPortfolio.Allotment
import AlgorithmPortfolio.Arith
import AlgorithmPortfolio.Binary64.Digits
import AlgorithmPortfolio.Binary64.Text
import AlgorithmPortfolio.Bits
import AlgorithmPortfolio.Controller.Basic
import AlgorithmPortfolio.Controller.Random
import AlgorithmPortfolio.Controller.Replay
import AlgorithmPortfolio.Dict
import AlgorithmPortfolio.Document.Json
import AlgorithmPortfolio.Document.Json.Scalar
import AlgorithmPortfolio.Document.Json.Skip
import AlgorithmPortfolio.Document.Reader
import AlgorithmPortfolio.Document.Toml
import AlgorithmPortfolio.Document.Toml.Moment
import AlgorithmPortfolio.Document.Toml.Scalar
import AlgorithmPortfolio.Document.Toml.Table
import AlgorithmPortfolio.Document.Toml.Text
import AlgorithmPortfolio.Document.Value
import AlgorithmPortfolio.Document.Yaml
import AlgorithmPortfolio.Document.Yaml.Block
import AlgorithmPortfolio.Document.Yaml.Cursor
import AlgorithmPortfolio.Document.Yaml.Folded
import AlgorithmPortfolio.Document.Yaml.Node
import AlgorithmPortfolio.Document.Yaml.Scalar
import AlgorithmPortfolio.Document.Yaml.Tag
import AlgorithmPortfolio.Document.Yaml.Token
import AlgorithmPortfolio.Engine
import AlgorithmPortfolio.Error
import AlgorithmPortfolio.Generator
import AlgorithmPortfolio.LogSpace
import AlgorithmPortfolio.Metrics.Basic
import AlgorithmPortfolio.Metrics.Creation
import AlgorithmPortfolio.Metrics.Name
import AlgorithmPortfolio.Metrics.Registry
import AlgorithmPortfolio.Options
import AlgorithmPortfolio.PathModel
import AlgorithmPortfolio.Portfolio
import AlgorithmPortfolio.Rebalance.Outcome
import AlgorithmPortfolio.Rebalance.Pass
import AlgorithmPortfolio.Reuse
import AlgorithmPortfolio.Schedule.Controlled
import AlgorithmPortfolio.Schedule.Drive
import AlgorithmPortfolio.Schedule.Report
import AlgorithmPortfolio.Schedule.RoundRobin
import AlgorithmPortfolio.Schedule.RoundRobin.Text
import AlgorithmPortfolio.Schedule.Scheduler
import AlgorithmPortfolio.Schedule.Setup
import AlgorithmPortfolio.Settings.Arguments
import AlgorithmPortfolio.Settings.Builder
import AlgorithmPortfolio.Settings.Config
import AlgorithmPortfolio.Settings.Environment
import AlgorithmPortfolio.Settings.Extract
import AlgorithmPortfolio.Slot.Basic
import AlgorithmPortfolio.Slot.Text
import AlgorithmPortfolio.SlotSpec
import AlgorithmPortfolio.Stopwatch
import AlgorithmPortfolio.Storage.Path
import AlgorithmPortfolio.Storage.Tree
import AlgorithmPortfolio.TargetSet
import AlgorithmPortfolio.Text.Blank
import AlgorithmPortfolio.Text.Numeral
import AlgorithmPortfolio.Text.Quoted
import AlgorithmPortfolio.Text.Record
import AlgorithmPortfolio.Text.Split
import AlgorithmPortfolio.Text.Visible
import AlgorithmPortfolio.TimeMenu
import AlgorithmPortfolio.TokenModel.Basic
import AlgorithmPortfolio.TokenModel.File
import AlgorithmPortfolio.Proofs.Exact.Reals
import AlgorithmPortfolio.Proofs.Exact.Shares
import AlgorithmPortfolio.Proofs.Exact.Bayes
import AlgorithmPortfolio.Proofs.Rebalance.Pass
import AlgorithmPortfolio.Proofs.Rebalance.Verdict
import AlgorithmPortfolio.Proofs.Rebalance.Skipped
import AlgorithmPortfolio.Proofs.Rebalance.Budget
import AlgorithmPortfolio.Proofs.Schedule.Run
import AlgorithmPortfolio.Proofs.Schedule.Turns
import AlgorithmPortfolio.Proofs.Schedule.Measurements
import AlgorithmPortfolio.Proofs.Schedule.Evolution
import AlgorithmPortfolio.Proofs.Schedule.Floor
import AlgorithmPortfolio.Proofs.Portfolio.Index
import AlgorithmPortfolio.Proofs.Control.Conversation
import AlgorithmPortfolio.Proofs.Control.Coverage
import AlgorithmPortfolio.Proofs.Control.Frame
import AlgorithmPortfolio.Proofs.Control.Replay
import AlgorithmPortfolio.Proofs.TimeMenu.Offers
import AlgorithmPortfolio.Proofs.Control.Random
import AlgorithmPortfolio.Proofs.Dict.Entries
import AlgorithmPortfolio.Proofs.Text.Lines
import AlgorithmPortfolio.Proofs.Text.Numeral
import AlgorithmPortfolio.Proofs.Storage.Written
import AlgorithmPortfolio.Proofs.TokenModel.Learned
import AlgorithmPortfolio.Proofs.TokenModel.Reading
import AlgorithmPortfolio.Proofs.TokenModel.RoundTrip
import AlgorithmPortfolio.Proofs.TokenModel.Total
import AlgorithmPortfolio.Proofs.Drive.Course
import AlgorithmPortfolio.Proofs.Drive.Recorded
import AlgorithmPortfolio.Proofs.Drive.Timers
import AlgorithmPortfolio.Proofs.Drive.Account
import AlgorithmPortfolio.Proofs.Metrics.Tally
import AlgorithmPortfolio.Proofs.Metrics.Counters
import AlgorithmPortfolio.Proofs.Metrics.Gauge
import AlgorithmPortfolio.Proofs.Schedule.Models
import AlgorithmPortfolio.Proofs.Document.Overlay
import AlgorithmPortfolio.Proofs.Settings.Keys
import AlgorithmPortfolio.Proofs.Settings.Layers
import AlgorithmPortfolio.Proofs.Settings.Precedence
import AlgorithmPortfolio.Proofs.TokenModel.Grammar
import AlgorithmPortfolio.Proofs.TokenModel.Occurrences
import AlgorithmPortfolio.Proofs.Settings.Knobs
import AlgorithmPortfolio.Proofs.Settings.CommandLine
import AlgorithmPortfolio.Proofs.Exact.Smoothing
import AlgorithmPortfolio.Proofs.Exact.Prior
import AlgorithmPortfolio.Proofs.Rebalance.Partition
import AlgorithmPortfolio.Proofs.Binary64.Whole
import AlgorithmPortfolio.Proofs.Rebalance.Sole
import AlgorithmPortfolio.Proofs.Slot.Written
import AlgorithmPortfolio.Proofs.TimeMenu.Words
import AlgorithmPortfolio.Proofs.Portfolio.Consistent
import AlgorithmPortfolio.Proofs.Document.Toml.Ordered
import AlgorithmPortfolio.Proofs.Options.Isolated
import AlgorithmPortfolio.Proofs.Options.Flattened
import AlgorithmPortfolio.Proofs.Slot.Life
import AlgorithmPortfolio.Proofs.Slot.Listed
import AlgorithmPortfolio.Proofs.Slot.Creation
import AlgorithmPortfolio.Proofs.Metrics.Creation
import AlgorithmPortfolio.Proofs.Metrics.Registration

import TestAssembly.Assembly.Batch
import TestAssembly.Assembly.Environment
import TestAssembly.Assembly.Pass
import TestAssembly.Assembly.Site
import TestAssembly.Catalog
import TestAssembly.CommandLine.Arguments
import TestAssembly.CommandLine.Help
import TestAssembly.CommandLine.Run
import TestAssembly.Config.Basic
import TestAssembly.Config.Search
import TestAssembly.Config.Text
import TestAssembly.Content.Item
import TestAssembly.Content.Record
import TestAssembly.Content.Segment
import TestAssembly.Decimal.Shortest
import TestAssembly.Error
import TestAssembly.FieldTest.Gate
import TestAssembly.FieldTest.Ledger
import TestAssembly.FieldTest.Placement
import TestAssembly.FieldTest.Randomness
import TestAssembly.FieldTest.Selection
import TestAssembly.Files.Path
import TestAssembly.Files.Tree
import TestAssembly.Fixture
import TestAssembly.Json.Basic
import TestAssembly.Json.Codec
import TestAssembly.Json.Reader
import TestAssembly.Json.Writer
import TestAssembly.Main
import TestAssembly.NameMap
import TestAssembly.Pool.Coverage
import TestAssembly.Pool.Eligibility
import TestAssembly.Proofs.Assembly.Accounting
import TestAssembly.Proofs.Assembly.Batch
import TestAssembly.Proofs.Assembly.Budget
import TestAssembly.Proofs.Assembly.Commutation
import TestAssembly.Proofs.Assembly.Draft
import TestAssembly.Proofs.Assembly.Draws
import TestAssembly.Proofs.Assembly.GroupCount
import TestAssembly.Proofs.Assembly.Outcome
import TestAssembly.Proofs.Assembly.Overflow
import TestAssembly.Proofs.Assembly.Persistence
import TestAssembly.Proofs.Assembly.Picks
import TestAssembly.Proofs.Assembly.Positions
import TestAssembly.Proofs.Assembly.Progress
import TestAssembly.Proofs.Assembly.Seeding
import TestAssembly.Proofs.Assembly.Segment
import TestAssembly.Proofs.Assembly.Series
import TestAssembly.Proofs.Assembly.SideBySide
import TestAssembly.Proofs.Assembly.Uses
import TestAssembly.Proofs.Config.Nearest
import TestAssembly.Proofs.Config.Printed
import TestAssembly.Proofs.FieldTest.Draws
import TestAssembly.Proofs.FieldTest.FirstFit
import TestAssembly.Proofs.FieldTest.Handout
import TestAssembly.Proofs.FieldTest.Occupancy
import TestAssembly.Proofs.FieldTest.Placement
import TestAssembly.Proofs.FieldTest.Positions
import TestAssembly.Proofs.FieldTest.Selection
import TestAssembly.Proofs.FieldTest.Slots
import TestAssembly.Proofs.Files.Written
import TestAssembly.Proofs.Ledger.Claim
import TestAssembly.Proofs.Ledger.Fairness
import TestAssembly.Proofs.Ledger.Greedy
import TestAssembly.Proofs.Ledger.Record
import TestAssembly.Proofs.Ledger.RoundRobin
import TestAssembly.Proofs.Pool.Admission
import TestAssembly.Proofs.Pool.Length
import TestAssembly.Proofs.Pool.Rearrangement
import TestAssembly.Proofs.Pool.Shortfall
import TestAssembly.Proofs.Rotation.History
import TestAssembly.Proofs.Rotation.Languages
import TestAssembly.Proofs.Toml.Document
import TestAssembly.Proofs.Toml.Quoted
import TestAssembly.Proofs.Wire.Rewriting
import TestAssembly.Proofs.Wire.RoundTrip
import TestAssembly.Rotation
import TestAssembly.Saturating
import TestAssembly.Text.AsciiCase
import TestAssembly.Text.Blank
import TestAssembly.Text.Digits
import TestAssembly.Text.Pieces
import TestAssembly.Time.Calendar
import TestAssembly.Time.Instant
import TestAssembly.Time.Timestamp
import TestAssembly.Toml.Quoted
import TestAssembly.Toml.Reader
import TestAssembly.Toml.Scalar
import TestAssembly.Toml.Table
import TestAssembly.Toml.Writer
import TestAssembly.Window
import TestAssembly.Wire.Catalog
import TestAssembly.Wire.Config
import TestAssembly.Wire.Content
import TestAssembly.Wire.Record
import TestAssembly.Wire.Report
import TestAssembly.Word

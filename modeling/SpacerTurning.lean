import SpacerTurning.Check.BoreSteps
import SpacerTurning.Check.Detector
import SpacerTurning.Check.Edit
import SpacerTurning.Check.Feasibility
import SpacerTurning.Check.Features
import SpacerTurning.Check.Finding
import SpacerTurning.Check.FixChain
import SpacerTurning.Check.Line
import SpacerTurning.Check.Modal
import SpacerTurning.Check.Report
import SpacerTurning.Command.Arguments
import SpacerTurning.Command.Basic
import SpacerTurning.Command.Line
import SpacerTurning.Command.Run
import SpacerTurning.Cutting.Boring
import SpacerTurning.Cutting.Feeds
import SpacerTurning.Cutting.Template
import SpacerTurning.Document.Basic
import SpacerTurning.Document.Json
import SpacerTurning.Document.Toml.Read
import SpacerTurning.Document.Toml.Scalar
import SpacerTurning.Document.Toml.Value
import SpacerTurning.Document.Toml.Write
import SpacerTurning.Generation.Build
import SpacerTurning.Generation.Hub
import SpacerTurning.Generation.Job
import SpacerTurning.Generation.Sections
import SpacerTurning.Main
import SpacerTurning.Number.Binary64
import SpacerTurning.Number.Decimal
import SpacerTurning.Number.Exact
import SpacerTurning.Number.Places
import SpacerTurning.Number.Scalar
import SpacerTurning.Number.Shortest
import SpacerTurning.Number.Word
import SpacerTurning.Part.Basic
import SpacerTurning.Part.Order
import SpacerTurning.Part.Refusal
import SpacerTurning.Part.Spacer
import SpacerTurning.Part.Thickness
import SpacerTurning.Program.Basic
import SpacerTurning.Program.Text
import SpacerTurning.Proofs.Check.BoreSteps
import SpacerTurning.Proofs.Check.Chain
import SpacerTurning.Proofs.Check.Clearance
import SpacerTurning.Proofs.Check.Composed
import SpacerTurning.Proofs.Check.Cut
import SpacerTurning.Proofs.Check.Descents
import SpacerTurning.Proofs.Check.Edit
import SpacerTurning.Proofs.Check.Faces
import SpacerTurning.Proofs.Check.Feasibility
import SpacerTurning.Proofs.Check.Feeding
import SpacerTurning.Proofs.Check.Fixing
import SpacerTurning.Proofs.Check.Follows
import SpacerTurning.Proofs.Check.Forgetting
import SpacerTurning.Proofs.Check.Frame
import SpacerTurning.Proofs.Check.Hidden
import SpacerTurning.Proofs.Check.Home
import SpacerTurning.Proofs.Check.Leaves
import SpacerTurning.Proofs.Check.Letters
import SpacerTurning.Proofs.Check.Mending
import SpacerTurning.Proofs.Check.Mends
import SpacerTurning.Proofs.Check.Passes
import SpacerTurning.Proofs.Check.Pieces
import SpacerTurning.Proofs.Check.Positions
import SpacerTurning.Proofs.Check.Quiet
import SpacerTurning.Proofs.Check.Renumbered
import SpacerTurning.Proofs.Check.Replace
import SpacerTurning.Proofs.Check.Reread
import SpacerTurning.Proofs.Check.Sequence
import SpacerTurning.Proofs.Check.Settling
import SpacerTurning.Proofs.Check.Spaced
import SpacerTurning.Proofs.Check.Steps
import SpacerTurning.Proofs.Check.Supplied
import SpacerTurning.Proofs.Check.Tidy
import SpacerTurning.Proofs.Check.ToolBlocks
import SpacerTurning.Proofs.Check.Words
import SpacerTurning.Proofs.Command.Run
import SpacerTurning.Proofs.Cutting.Boring
import SpacerTurning.Proofs.Cutting.Feeds
import SpacerTurning.Proofs.Cutting.Plans
import SpacerTurning.Proofs.Cutting.Roughing
import SpacerTurning.Proofs.Document.Json
import SpacerTurning.Proofs.Document.Toml.Numbers
import SpacerTurning.Proofs.Document.Toml.Read
import SpacerTurning.Proofs.Document.Toml.Texts
import SpacerTurning.Proofs.Generation.Agreement
import SpacerTurning.Proofs.Generation.Bore
import SpacerTurning.Proofs.Generation.BoreLines
import SpacerTurning.Proofs.Generation.Build
import SpacerTurning.Proofs.Generation.Crossing
import SpacerTurning.Proofs.Generation.Deepest
import SpacerTurning.Proofs.Generation.Depths
import SpacerTurning.Proofs.Generation.Features
import SpacerTurning.Proofs.Generation.Levels
import SpacerTurning.Proofs.Generation.Made
import SpacerTurning.Proofs.Generation.Marks
import SpacerTurning.Proofs.Generation.Outcome
import SpacerTurning.Proofs.Generation.Protocol
import SpacerTurning.Proofs.Generation.Runs
import SpacerTurning.Proofs.Generation.Safe
import SpacerTurning.Proofs.Generation.Shelf
import SpacerTurning.Proofs.Generation.Shoulder
import SpacerTurning.Proofs.Generation.Speeds
import SpacerTurning.Proofs.Generation.Templates
import SpacerTurning.Proofs.Generation.Through
import SpacerTurning.Proofs.Generation.Travel
import SpacerTurning.Proofs.Generation.Work
import SpacerTurning.Proofs.Number.Arithmetic
import SpacerTurning.Proofs.Number.Closest
import SpacerTurning.Proofs.Number.Decimal
import SpacerTurning.Proofs.Number.Difference
import SpacerTurning.Proofs.Number.Exact
import SpacerTurning.Proofs.Number.Fixed
import SpacerTurning.Proofs.Number.Grammar
import SpacerTurning.Proofs.Number.Interval
import SpacerTurning.Proofs.Number.Lawful
import SpacerTurning.Proofs.Number.Lengths
import SpacerTurning.Proofs.Number.Machine
import SpacerTurning.Proofs.Number.Nearest
import SpacerTurning.Proofs.Number.Order
import SpacerTurning.Proofs.Number.Packing
import SpacerTurning.Proofs.Number.Places
import SpacerTurning.Proofs.Number.Rounding
import SpacerTurning.Proofs.Number.Shortest
import SpacerTurning.Proofs.Number.Spelling
import SpacerTurning.Proofs.Number.Whole
import SpacerTurning.Proofs.Number.Word
import SpacerTurning.Proofs.Part.Accepted
import SpacerTurning.Proofs.Part.Keys
import SpacerTurning.Proofs.Part.Order
import SpacerTurning.Proofs.Part.Refusal
import SpacerTurning.Proofs.Part.Thickness
import SpacerTurning.Proofs.Program.Decoding
import SpacerTurning.Proofs.Program.Reading
import SpacerTurning.Proofs.Program.Title
import SpacerTurning.Proofs.Records.Settings
import SpacerTurning.Proofs.Settings.Bounds
import SpacerTurning.Proofs.Settings.Config
import SpacerTurning.Proofs.Settings.Saving
import SpacerTurning.Proofs.Shop.Depths
import SpacerTurning.Proofs.Shop.Formula
import SpacerTurning.Proofs.Shop.Resolution
import SpacerTurning.Proofs.Storage.Files
import SpacerTurning.Proofs.Storage.Shell
import SpacerTurning.Proofs.Text.Capitals
import SpacerTurning.Proofs.Text.Digits
import SpacerTurning.Proofs.Text.Lines
import SpacerTurning.Records.Machine
import SpacerTurning.Records.Part
import SpacerTurning.Records.Program
import SpacerTurning.Records.Report
import SpacerTurning.Records.Settings
import SpacerTurning.Settings.Config
import SpacerTurning.Settings.Load
import SpacerTurning.Shop.Constants
import SpacerTurning.Shop.Depths
import SpacerTurning.Shop.Field
import SpacerTurning.Shop.Lathe
import SpacerTurning.Shop.Standards
import SpacerTurning.Shop.WorkOffset
import SpacerTurning.Storage.Directory
import SpacerTurning.Storage.Files
import SpacerTurning.Storage.Path
import SpacerTurning.Storage.Shell
import SpacerTurning.Text.Blank
import SpacerTurning.Text.Digit
import SpacerTurning.Text.Lines
import SpacerTurning.Text.Uppercase

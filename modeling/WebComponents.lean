import WebComponents.Main
import WebComponents.Metadata.Encode
import WebComponents.Proofs.Json.Spelling
import WebComponents.Proofs.Json.WrittenText
import WebComponents.Proofs.Json.ReadBack
import WebComponents.Proofs.Json.Members
import WebComponents.Proofs.Json.Sound
import WebComponents.Proofs.Json.Arrangement
import WebComponents.Proofs.Metadata.RoundTrip
import WebComponents.Proofs.Metadata.Rearranged
import WebComponents.Proofs.Exports.Handouts
import WebComponents.Proofs.Exports.Spellings
import WebComponents.Proofs.Exports.Lengthening
import WebComponents.Proofs.Exports.Clashes
import WebComponents.Proofs.Exports.SingleFile
import WebComponents.Proofs.Records.ExportNames
import WebComponents.Proofs.Records.Growth
import WebComponents.Proofs.Records.OwnNames
import WebComponents.Proofs.Records.Signatures
import WebComponents.Proofs.Records.SingleReference
import WebComponents.Proofs.Records.Rendering
import WebComponents.Proofs.Records.Orders
import WebComponents.Proofs.Records.DocLines
import WebComponents.Proofs.Files.Steps
import WebComponents.Proofs.Files.Walk
import WebComponents.Proofs.Files.Directories
import WebComponents.Proofs.Files.Writing
import WebComponents.Proofs.Files.CreateOnce
import WebComponents.Proofs.Files.Schedule
import WebComponents.Proofs.Scaffold.Places
import WebComponents.Proofs.Commands.Generation
import WebComponents.Proofs.Path.Ways
import WebComponents.Proofs.Typings.Imports
import WebComponents.Proofs.Typings.Occurrences
import WebComponents.Proofs.Typings.Specifiers
import WebComponents.Proofs.Typings.Repetition
import WebComponents.Proofs.Files.Refilling
import WebComponents.Proofs.Files.Reading
import WebComponents.Proofs.Commands.Redirection
import WebComponents.Proofs.Files.Linkless
import WebComponents.Proofs.Commands.SelfContained
import WebComponents.Proofs.Files.Branches
import WebComponents.Proofs.Files.Batches
import WebComponents.Proofs.Files.Making
import WebComponents.Proofs.Files.Plain
import WebComponents.Proofs.Scaffold.Layout
import WebComponents.Proofs.Scaffold.PlannedBatch
import WebComponents.Proofs.Commands.Reporting
import WebComponents.Proofs.Path.NormalForm
import WebComponents.Proofs.Path.ShortestWays
import WebComponents.Proofs.Commands.Accounting
import WebComponents.Proofs.Commands.Repetition
import WebComponents.Proofs.Text.Lines
import WebComponents.Proofs.Text.SmallForms
import WebComponents.Proofs.Naming.Tags
import WebComponents.Proofs.Scaffold.CrossReferences
import WebComponents.Proofs.Naming.Grammar
import WebComponents.Proofs.Naming.ScriptNames
import WebComponents.Proofs.Naming.OnePass
import WebComponents.Proofs.Naming.Boundaries
import WebComponents.Proofs.Naming.DashForms
import WebComponents.Proofs.Commands.RenameCount
import WebComponents.Proofs.Exports.SeenFiles

import ClassSheet.Main
import ClassSheet.Proofs.Outcome
import ClassSheet.Proofs.Theme.Lookup
import ClassSheet.Proofs.Theme.Match
import ClassSheet.Proofs.Distinct
import ClassSheet.Proofs.Sheet.Parts
import ClassSheet.Proofs.Utility
import ClassSheet.Proofs.Sheet.Variables
import ClassSheet.Proofs.Markup.Occurrences
import ClassSheet.Proofs.Markup.Joined
import ClassSheet.Proofs.Text.Words
import ClassSheet.Proofs.Build
import ClassSheet.Proofs.Markup.Document
import ClassSheet.Proofs.Markup.Expression
import ClassSheet.Proofs.Sheet.Accounting
import ClassSheet.Proofs.Sheet.Selectors
import ClassSheet.Proofs.Sheet.Meaning
import ClassSheet.Proofs.Sheet.Multipliers
import ClassSheet.Proofs.Files.Tree
import ClassSheet.Proofs.Files.Locate
import ClassSheet.Proofs.Files.Path
import ClassSheet.Proofs.Files.Write
import ClassSheet.Proofs.Files.Walk
import ClassSheet.Proofs.Rebuild
import ClassSheet.Proofs.Files.Frame
import ClassSheet.Proofs.Sheet.Values
import ClassSheet.Session
import ClassSheet.Proofs.Session
import ClassSheet.Files.Turns
import ClassSheet.Proofs.Files.Turns
import ClassSheet.Proofs.Files.SameWays
import ClassSheet.Proofs.Files.Joined
import ClassSheet.Proofs.Files.Above
import ClassSheet.Proofs.Files.Entered
import ClassSheet.Proofs.WorkingDirectory
import ClassSheet.Proofs.Theme.Checks
import ClassSheet.Proofs.Theme.Append
import ClassSheet.Proofs.Sheet.Growth
import ClassSheet.Proofs.Sheet.Routes
import ClassSheet.Proofs.Sheet.Enumerated
import ClassSheet.Proofs.Reading
import ClassSheet.Proofs.Listing
import ClassSheet.Proofs.Json.Spelling
import ClassSheet.Proofs.Json.Record
import ClassSheet.Proofs.Json.Reordered
import ClassSheet.Proofs.Configuration
import ClassSheet.Proofs.Number.Rounding
import ClassSheet.Proofs.Number.Decimal
import ClassSheet.Proofs.Number.Spelling
import ClassSheet.Proofs.Families

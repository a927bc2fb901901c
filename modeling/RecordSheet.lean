import RecordSheet.Main
import RecordSheet.Files.Tree
import RecordSheet.Proofs.Text.Digits
import RecordSheet.Proofs.Binary64.Units
import RecordSheet.Proofs.Binary64.Shortest
import RecordSheet.Proofs.Binary64.Rounding
import RecordSheet.Proofs.Json.Numeral
import RecordSheet.Proofs.Json.Quoted
import RecordSheet.Proofs.Json.Structure
import RecordSheet.Proofs.Json.DecimalText
import RecordSheet.Proofs.Json.NumberText
import RecordSheet.Proofs.Json.Delimited
import RecordSheet.Proofs.Json.Injective
import RecordSheet.Proofs.Json.Reading
import RecordSheet.Proofs.Json.RoundTrip
import RecordSheet.Proofs.Json.Keys
import RecordSheet.Proofs.Sheet.Quotes
import RecordSheet.Proofs.Sheet.Decoding
import RecordSheet.Proofs.Sheet.RoundTrip
import RecordSheet.Proofs.Sheet.StrictReader
import RecordSheet.Proofs.Json.Printable
import RecordSheet.Proofs.Sheet.Lines
import RecordSheet.Proofs.Files.Tree
import RecordSheet.Proofs.Run.Stages
import RecordSheet.Proofs.Json.Grammar
import RecordSheet.Proofs.Run.AllOrNothing
import RecordSheet.Proofs.Json.StringText
import RecordSheet.Proofs.Json.Soundness
import RecordSheet.Proofs.Json.Completeness
import RecordSheet.Proofs.Records.Language
import RecordSheet.Proofs.Json.Lookahead
import RecordSheet.Proofs.Records.Bytes
import RecordSheet.Proofs.Settings.SaveLoad
import RecordSheet.Proofs.Run.ErrorReports
import RecordSheet.Proofs.Run.Interchange
import RecordSheet.Proofs.Files.Change
import RecordSheet.Proofs.Run.Events
import RecordSheet.Proofs.Run.Effects
import RecordSheet.Proofs.Run.Independence
import RecordSheet.Proofs.Run.Reports
import RecordSheet.Proofs.Run.Logging
import RecordSheet.Proofs.Sheet.Composition
import RecordSheet.Proofs.Run.Truncation
import RecordSheet.Proofs.Command.FormatRequest
import RecordSheet.Proofs.Command.ErrorFormat
import RecordSheet.Proofs.Run.Precedence
import RecordSheet.Proofs.Json.Context
import RecordSheet.Proofs.Json.OutOfRange
import RecordSheet.Proofs.Sheet.Integers
import RecordSheet.Proofs.Log.Note
import RecordSheet.Proofs.Run.Account

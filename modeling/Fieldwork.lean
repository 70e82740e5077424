import Fieldwork.Audit.Event
import Fieldwork.Audit.Record
import Fieldwork.Backend.Basic
import Fieldwork.Backend.Records
import Fieldwork.Binary64.Basic
import Fieldwork.Binary64.Decimal
import Fieldwork.Binary64.Scaled
import Fieldwork.Config.Basic
import Fieldwork.Config.Build
import Fieldwork.Config.Error
import Fieldwork.Config.Load
import Fieldwork.Config.Read
import Fieldwork.Database.Address
import Fieldwork.Database.Backfill.Config
import Fieldwork.Database.Backfill.Page
import Fieldwork.Database.Backfill.Run
import Fieldwork.Database.Basic
import Fieldwork.Database.Config
import Fieldwork.Database.Error
import Fieldwork.Database.File
import Fieldwork.Database.Placeholder
import Fieldwork.Database.Principals
import Fieldwork.Database.Roster
import Fieldwork.Database.Rows
import Fieldwork.Database.Statement
import Fieldwork.Database.Stored
import Fieldwork.Disk.Basic
import Fieldwork.Disk.Path
import Fieldwork.Document.Basic
import Fieldwork.Document.Dotted
import Fieldwork.Extended.Basic
import Fieldwork.Extended.Decode
import Fieldwork.Extended.Encode
import Fieldwork.Extended.Error
import Fieldwork.Handle
import Fieldwork.Identifier
import Fieldwork.Json.Basic
import Fieldwork.Json.Number
import Fieldwork.Json.Reader
import Fieldwork.Json.Record
import Fieldwork.Json.Relaxed.Reader
import Fieldwork.Json.Relaxed.Token
import Fieldwork.Json.Text
import Fieldwork.Json.Written
import Fieldwork.Message
import Fieldwork.Moment.Basic
import Fieldwork.Moment.Date
import Fieldwork.Moment.Text
import Fieldwork.Ordered
import Fieldwork.Proofs.Audit.Lines
import Fieldwork.Proofs.Backend.Lookup
import Fieldwork.Proofs.Backend.Services
import Fieldwork.Proofs.Backend.Trail
import Fieldwork.Proofs.Binary64.Rounding
import Fieldwork.Proofs.Binary64.Scaled
import Fieldwork.Proofs.Binary64.Shortest
import Fieldwork.Proofs.Config.Sound
import Fieldwork.Proofs.Database.Backfill
import Fieldwork.Proofs.Database.Chunks
import Fieldwork.Proofs.Database.Edit
import Fieldwork.Proofs.Database.Interleaving
import Fieldwork.Proofs.Database.Keeping
import Fieldwork.Proofs.Database.Members
import Fieldwork.Proofs.Database.Opening
import Fieldwork.Proofs.Database.Payload
import Fieldwork.Proofs.Database.ReadBack
import Fieldwork.Proofs.Database.Refinement
import Fieldwork.Proofs.Database.Size
import Fieldwork.Proofs.Database.Views
import Fieldwork.Proofs.Database.Whole
import Fieldwork.Proofs.Disk.Files
import Fieldwork.Proofs.Disk.Names
import Fieldwork.Proofs.Document.Merge
import Fieldwork.Proofs.Document.Paths
import Fieldwork.Proofs.Extended.CanonicalText
import Fieldwork.Proofs.Extended.HexLiterals
import Fieldwork.Proofs.Extended.Plain
import Fieldwork.Proofs.Extended.Recognition
import Fieldwork.Proofs.Extended.RoundTrip
import Fieldwork.Proofs.Extended.Synonyms
import Fieldwork.Proofs.Extended.WellWrapped
import Fieldwork.Proofs.Fallible
import Fieldwork.Proofs.Handle.Calls
import Fieldwork.Proofs.Handle.Coherence
import Fieldwork.Proofs.Handle.Fleet
import Fieldwork.Proofs.Handle.Missed
import Fieldwork.Proofs.Json.Gathered
import Fieldwork.Proofs.Json.Nesting
import Fieldwork.Proofs.Json.NumberText
import Fieldwork.Proofs.Json.Printed
import Fieldwork.Proofs.Json.Rendered
import Fieldwork.Proofs.Json.Reread
import Fieldwork.Proofs.Json.RoundTrip
import Fieldwork.Proofs.Json.Spelled
import Fieldwork.Proofs.Moment.Calendar
import Fieldwork.Proofs.Moment.RoundTrip
import Fieldwork.Proofs.Ordered
import Fieldwork.Proofs.Store.Calls
import Fieldwork.Proofs.Store.Medium
import Fieldwork.Proofs.Store.Stamps
import Fieldwork.Proofs.Submission.Checks
import Fieldwork.Proofs.Submission.Decides
import Fieldwork.Proofs.Submission.Meaning
import Fieldwork.Proofs.Submission.Normal
import Fieldwork.Proofs.Submission.Numbers
import Fieldwork.Proofs.Submission.Projection
import Fieldwork.Proofs.Submission.Spelling
import Fieldwork.Proofs.Submission.Transport
import Fieldwork.Proofs.Submission.Verdict
import Fieldwork.Proofs.Text.Bytes
import Fieldwork.Proofs.Text.Digits
import Fieldwork.Proofs.Text.Hexadecimal
import Fieldwork.Proofs.Text.Numerals
import Fieldwork.Proofs.Text.Utf8
import Fieldwork.Store.Basic
import Fieldwork.Store.Memory
import Fieldwork.Store.Scripted
import Fieldwork.Submission.Error
import Fieldwork.Submission.Params
import Fieldwork.Submission.Query
import Fieldwork.Submission.Validate
import Fieldwork.Text.Base64
import Fieldwork.Text.Blank
import Fieldwork.Text.Checked
import Fieldwork.Text.Hex
import Fieldwork.Text.Layout
import Fieldwork.Text.Numeral
import Fieldwork.Text.Utf8
import Fieldwork.Toml.Basic
import Fieldwork.Toml.Quoted
import Fieldwork.Toml.Reader
import Fieldwork.Toml.Scalar
import Fieldwork.Toml.Table

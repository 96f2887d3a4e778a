import GoalReconciliation.Amounts
import GoalReconciliation.Assoc
import GoalReconciliation.Audit
import GoalReconciliation.BankRecord
import GoalReconciliation.Binary64.Basic
import GoalReconciliation.Binary64.Shortest
import GoalReconciliation.Calendar.Date
import GoalReconciliation.Calendar.DateRange
import GoalReconciliation.Calendar.Reader
import GoalReconciliation.Calendar.Timestamp
import GoalReconciliation.Decimal.Arithmetic
import GoalReconciliation.Decimal.Basic
import GoalReconciliation.Decimal.Printer
import GoalReconciliation.Decimal.Reader
import GoalReconciliation.Decimal.Rounding
import GoalReconciliation.Failure
import GoalReconciliation.GoalLock
import GoalReconciliation.Group
import GoalReconciliation.GroupingKey
import GoalReconciliation.Http.Call
import GoalReconciliation.Http.Cors
import GoalReconciliation.Http.ErrorBody
import GoalReconciliation.Http.Form
import GoalReconciliation.Http.Message
import GoalReconciliation.Http.Route
import GoalReconciliation.Http.Server
import GoalReconciliation.Http.Startup
import GoalReconciliation.Input.Day
import GoalReconciliation.Input.Fault
import GoalReconciliation.Input.Number
import GoalReconciliation.Json.Basic
import GoalReconciliation.Json.Display
import GoalReconciliation.Json.Printer
import GoalReconciliation.Json.Reader
import GoalReconciliation.Log.Record
import GoalReconciliation.Log.Setup
import GoalReconciliation.Log.Template
import GoalReconciliation.ManualMatch
import GoalReconciliation.Matching.Combination
import GoalReconciliation.Matching.Match
import GoalReconciliation.Matching.Outcome
import GoalReconciliation.Matching.Passes
import GoalReconciliation.Natural
import GoalReconciliation.Operation
import GoalReconciliation.Posting
import GoalReconciliation.Proofs.Amounts
import GoalReconciliation.Proofs.Approval
import GoalReconciliation.Proofs.Assoc
import GoalReconciliation.Proofs.Binary64.Shortest
import GoalReconciliation.Proofs.Calendar.Instants
import GoalReconciliation.Proofs.Calendar.Reading
import GoalReconciliation.Proofs.Calendar.Weeks
import GoalReconciliation.Proofs.Decimal.Alike
import GoalReconciliation.Proofs.Decimal.Cents
import GoalReconciliation.Proofs.Decimal.Digits
import GoalReconciliation.Proofs.Decimal.Exact
import GoalReconciliation.Proofs.Decimal.Laws
import GoalReconciliation.Proofs.Decimal.Magnitude
import GoalReconciliation.Proofs.Decimal.Nearest
import GoalReconciliation.Proofs.Decimal.Quotient
import GoalReconciliation.Proofs.Decimal.Value
import GoalReconciliation.Proofs.Fallible
import GoalReconciliation.Proofs.GoalLock
import GoalReconciliation.Proofs.Http.Refusals
import GoalReconciliation.Proofs.Keys.Decoding
import GoalReconciliation.Proofs.Keys.Groups
import GoalReconciliation.Proofs.Keys.Spellings
import GoalReconciliation.Proofs.Keys.Sums
import GoalReconciliation.Proofs.Lookup
import GoalReconciliation.Proofs.Matching.Claims
import GoalReconciliation.Proofs.Matching.Combination
import GoalReconciliation.Proofs.Matching.Exactness
import GoalReconciliation.Proofs.Matching.Exhaustion
import GoalReconciliation.Proofs.Matching.Fates
import GoalReconciliation.Proofs.Matching.Justification
import GoalReconciliation.Proofs.Matching.Manual
import GoalReconciliation.Proofs.Matching.Marks
import GoalReconciliation.Proofs.Matching.Maximality
import GoalReconciliation.Proofs.Matching.Partition
import GoalReconciliation.Proofs.Matching.Passes
import GoalReconciliation.Proofs.Matching.Totals
import GoalReconciliation.Proofs.Operations.Arrangement
import GoalReconciliation.Proofs.Operations.Backends
import GoalReconciliation.Proofs.Operations.Calls
import GoalReconciliation.Proofs.Operations.Candidates
import GoalReconciliation.Proofs.Operations.Coherence
import GoalReconciliation.Proofs.Operations.Interleaving
import GoalReconciliation.Proofs.Operations.Isolation
import GoalReconciliation.Proofs.Operations.Overtaking
import GoalReconciliation.Proofs.Operations.Rejection
import GoalReconciliation.Proofs.Operations.Removals
import GoalReconciliation.Proofs.Operations.Rereading
import GoalReconciliation.Proofs.Operations.Reversals
import GoalReconciliation.Proofs.Operations.Selections
import GoalReconciliation.Proofs.Operations.Served
import GoalReconciliation.Proofs.Operations.Settled
import GoalReconciliation.Proofs.Operations.Spending
import GoalReconciliation.Proofs.Operations.Summaries
import GoalReconciliation.Proofs.Operations.Writes
import GoalReconciliation.Proofs.Related
import GoalReconciliation.Proofs.Resolution.Accounts
import GoalReconciliation.Proofs.Resolution.Breaking
import GoalReconciliation.Proofs.Resolution.Candidates
import GoalReconciliation.Proofs.Resolution.Chunks
import GoalReconciliation.Proofs.Resolution.Counterparts
import GoalReconciliation.Proofs.Resolution.Refused
import GoalReconciliation.Proofs.Resolution.Rereading
import GoalReconciliation.Proofs.Resolution.Report
import GoalReconciliation.Proofs.Resolution.Resolved
import GoalReconciliation.Proofs.Resolution.Resolving
import GoalReconciliation.Proofs.Resolution.Settled
import GoalReconciliation.Proofs.Resolution.Truthful
import GoalReconciliation.Proofs.Resolution.Verdicts
import GoalReconciliation.Proofs.Resolution.Visits
import GoalReconciliation.Proofs.Resolution.Whole
import GoalReconciliation.Proofs.Run.Admission
import GoalReconciliation.Proofs.Run.Atomicity
import GoalReconciliation.Proofs.Run.Batches
import GoalReconciliation.Proofs.Run.Building
import GoalReconciliation.Proofs.Run.Conservation
import GoalReconciliation.Proofs.Run.Effect
import GoalReconciliation.Proofs.Run.Goal
import GoalReconciliation.Proofs.Run.Idempotence
import GoalReconciliation.Proofs.Run.ManualPrecedence
import GoalReconciliation.Proofs.Run.Refusals
import GoalReconciliation.Proofs.Run.Rereading
import GoalReconciliation.Proofs.Run.Saves
import GoalReconciliation.Proofs.Run.Spending
import GoalReconciliation.Proofs.Run.Unseen
import GoalReconciliation.Proofs.Settings
import GoalReconciliation.Proofs.Sorting
import GoalReconciliation.Proofs.Store.Arrangement
import GoalReconciliation.Proofs.Store.Breaking
import GoalReconciliation.Proofs.Store.Changes
import GoalReconciliation.Proofs.Store.Contents
import GoalReconciliation.Proofs.Store.Guarantee
import GoalReconciliation.Proofs.Store.Isolation
import GoalReconciliation.Proofs.Store.Lapses
import GoalReconciliation.Proofs.Store.Listing
import GoalReconciliation.Proofs.Store.Locality
import GoalReconciliation.Proofs.Store.Memory
import GoalReconciliation.Proofs.Store.Parallels
import GoalReconciliation.Proofs.Store.Parts
import GoalReconciliation.Proofs.Store.Reviewed
import GoalReconciliation.Proofs.Store.RoundTrip
import GoalReconciliation.Proofs.Store.Rows
import GoalReconciliation.Proofs.Store.Run
import GoalReconciliation.Proofs.Store.Saved
import GoalReconciliation.Proofs.Store.Scopes
import GoalReconciliation.Proofs.Store.Tables
import GoalReconciliation.Proofs.Store.Together
import GoalReconciliation.Proofs.Store.Twins
import GoalReconciliation.Proofs.Store.Weaving
import GoalReconciliation.Proofs.Summary.Progress
import GoalReconciliation.Proofs.Text.Blanks
import GoalReconciliation.Proofs.Text.Digits
import GoalReconciliation.Proofs.Tolerance
import GoalReconciliation.Proofs.Tracking.Redaction
import GoalReconciliation.Reading.Field
import GoalReconciliation.Reading.Record
import GoalReconciliation.Reading.Row
import GoalReconciliation.Resolution.Counterpart
import GoalReconciliation.Resolution.Report
import GoalReconciliation.Resolution.Sweep
import GoalReconciliation.Reversal
import GoalReconciliation.Review
import GoalReconciliation.Run.Admission
import GoalReconciliation.Run.Batch
import GoalReconciliation.Run.Counts
import GoalReconciliation.Run.Goal
import GoalReconciliation.Run.Result
import GoalReconciliation.Session.Report
import GoalReconciliation.Session.Step
import GoalReconciliation.Settings.Basic
import GoalReconciliation.Settings.Policy
import GoalReconciliation.Slice
import GoalReconciliation.Sorting
import GoalReconciliation.Store.Column
import GoalReconciliation.Store.Database
import GoalReconciliation.Store.Faults
import GoalReconciliation.Store.Memory
import GoalReconciliation.Store.Procedure
import GoalReconciliation.Store.Query
import GoalReconciliation.Store.Repository
import GoalReconciliation.Store.Row
import GoalReconciliation.Summary.Goal
import GoalReconciliation.Summary.Instruments
import GoalReconciliation.Summary.Statuses
import GoalReconciliation.Tagging
import GoalReconciliation.Text.Basic
import GoalReconciliation.Text.Digit
import GoalReconciliation.Text.Printable
import GoalReconciliation.Text.Quoted
import GoalReconciliation.Tolerance
import GoalReconciliation.Tracking.Redaction
import GoalReconciliation.Tracking.Tracker
import GoalReconciliation.Validation
import GoalReconciliation.Variance
import GoalReconciliation.Vocabulary

import OrderKeeper.Abi
import OrderKeeper.Abi.Kind
import OrderKeeper.Address
import OrderKeeper.Chain.Client
import OrderKeeper.Chain.Config
import OrderKeeper.Chain.Registry
import OrderKeeper.Chain.Transport
import OrderKeeper.Cipher.Aes
import OrderKeeper.Config.Basic
import OrderKeeper.Config.Environment
import OrderKeeper.Config.Layer
import OrderKeeper.Config.Value
import OrderKeeper.Config.Yaml.Cursor
import OrderKeeper.Config.Yaml.Reader
import OrderKeeper.Config.Yaml.Scalar
import OrderKeeper.Dialogue
import OrderKeeper.Digest.Keccak
import OrderKeeper.Digest.Sha256
import OrderKeeper.Digest.Stretch
import OrderKeeper.Fault
import OrderKeeper.Fault.Wire
import OrderKeeper.Fee.Offer
import OrderKeeper.Fee.Overrides
import OrderKeeper.Fee.Pricing
import OrderKeeper.Job.Deadline
import OrderKeeper.Job.Number
import OrderKeeper.Job.Record
import OrderKeeper.Job.Retry
import OrderKeeper.Job.Verdict
import OrderKeeper.Json.Basic
import OrderKeeper.Json.Number
import OrderKeeper.Json.Printer
import OrderKeeper.Json.Reader
import OrderKeeper.Json.Record
import OrderKeeper.Json.Scalar
import OrderKeeper.Json.Token
import OrderKeeper.Keeper.Basic
import OrderKeeper.Keeper.Desk
import OrderKeeper.Keeper.Service
import OrderKeeper.Keeper.Shift
import OrderKeeper.Ledger.Call
import OrderKeeper.Ledger.Rlp
import OrderKeeper.Ledger.Transaction
import OrderKeeper.Main
import OrderKeeper.Metrics.Exposition
import OrderKeeper.Metrics.Submission
import OrderKeeper.Mode
import OrderKeeper.Nonce.Allocator
import OrderKeeper.Nonce.History
import OrderKeeper.Nonce.Slot
import OrderKeeper.Order.Basic
import OrderKeeper.Order.Check
import OrderKeeper.Order.Parameters
import OrderKeeper.Order.Upkeep
import OrderKeeper.Polling
import OrderKeeper.Proofs.Abi.Layout
import OrderKeeper.Proofs.Chain.Registry
import OrderKeeper.Proofs.Dialogue
import OrderKeeper.Proofs.Dialogue.Stops
import OrderKeeper.Proofs.Dialogue.Timed
import OrderKeeper.Proofs.Dialogue.Transcript
import OrderKeeper.Proofs.Fault.Wire
import OrderKeeper.Proofs.Fee.Cap
import OrderKeeper.Proofs.Fee.Compound
import OrderKeeper.Proofs.Fee.GasLimit
import OrderKeeper.Proofs.Fee.Pricing
import OrderKeeper.Proofs.Job.Deadline
import OrderKeeper.Proofs.Job.Retry
import OrderKeeper.Proofs.Json.Edit
import OrderKeeper.Proofs.Json.Legible
import OrderKeeper.Proofs.Json.Number
import OrderKeeper.Proofs.Json.Reader
import OrderKeeper.Proofs.Json.Record
import OrderKeeper.Proofs.Json.Scalar
import OrderKeeper.Proofs.Json.Steady
import OrderKeeper.Proofs.Json.Token
import OrderKeeper.Proofs.Keeper.Attempts
import OrderKeeper.Proofs.Keeper.Completion
import OrderKeeper.Proofs.Keeper.Dispatch
import OrderKeeper.Proofs.Keeper.Once
import OrderKeeper.Proofs.Keeper.Records
import OrderKeeper.Proofs.Keeper.Service
import OrderKeeper.Proofs.Keeper.Shift
import OrderKeeper.Proofs.Metrics.Records
import OrderKeeper.Proofs.Nonce.Attempt
import OrderKeeper.Proofs.Nonce.Epoch
import OrderKeeper.Proofs.Nonce.Gate
import OrderKeeper.Proofs.Nonce.Leases
import OrderKeeper.Proofs.Nonce.Move
import OrderKeeper.Proofs.Nonce.Query
import OrderKeeper.Proofs.Nonce.Share
import OrderKeeper.Proofs.Nonce.Spread
import OrderKeeper.Proofs.Order.Payload
import OrderKeeper.Proofs.Order.Upkeep
import OrderKeeper.Proofs.Polling
import OrderKeeper.Proofs.Receipt.Escalation
import OrderKeeper.Proofs.Receipt.Judge
import OrderKeeper.Proofs.Receipt.Watch
import OrderKeeper.Proofs.Rehearsal.Deadline
import OrderKeeper.Proofs.Rehearsal.Moments
import OrderKeeper.Proofs.Rehearsal.Poll
import OrderKeeper.Proofs.Rehearsal.Records
import OrderKeeper.Proofs.Rehearsal.Retry
import OrderKeeper.Proofs.Rehearsal.Session
import OrderKeeper.Proofs.Rehearsal.Timed
import OrderKeeper.Proofs.Rehearsal.Turn
import OrderKeeper.Proofs.Rehearsal.Watch
import OrderKeeper.Proofs.Signing.Keyring
import OrderKeeper.Proofs.Submission.Account
import OrderKeeper.Proofs.Submission.Cancellation
import OrderKeeper.Proofs.Submission.Course
import OrderKeeper.Proofs.Submission.Findings
import OrderKeeper.Proofs.Submission.Itinerary
import OrderKeeper.Proofs.Submission.Journey
import OrderKeeper.Proofs.Submission.Knowledge
import OrderKeeper.Proofs.Submission.Law
import OrderKeeper.Proofs.Submission.Leasing
import OrderKeeper.Proofs.Submission.Narration
import OrderKeeper.Proofs.Submission.Passage
import OrderKeeper.Proofs.Submission.Search
import OrderKeeper.Proofs.Submission.Station
import OrderKeeper.Proofs.Submission.Tally
import OrderKeeper.Proofs.Submission.Tenure
import OrderKeeper.Proofs.Submission.Terms
import OrderKeeper.Proofs.Submission.Turn
import OrderKeeper.Proofs.Submission.Verdicts
import OrderKeeper.Proofs.Submission.Wire
import OrderKeeper.Proofs.Text.Hex
import OrderKeeper.Proofs.WorkItem.Checks
import OrderKeeper.Proofs.WorkItem.Edit
import OrderKeeper.Proofs.WorkItem.Wire
import OrderKeeper.Receipt.Basic
import OrderKeeper.Receipt.Escalation
import OrderKeeper.Receipt.Watch
import OrderKeeper.Rehearsal.Act
import OrderKeeper.Rehearsal.Ledger
import OrderKeeper.Rehearsal.Reader
import OrderKeeper.Rehearsal.Run
import OrderKeeper.Rehearsal.Scenario
import OrderKeeper.Rehearsal.World
import OrderKeeper.Signing.Curve
import OrderKeeper.Signing.Key
import OrderKeeper.Signing.KeyFile
import OrderKeeper.Signing.KeyText
import OrderKeeper.Signing.Keyring
import OrderKeeper.Signing.Options
import OrderKeeper.Submission.Ending
import OrderKeeper.Submission.Error
import OrderKeeper.Submission.Floor
import OrderKeeper.Submission.History
import OrderKeeper.Submission.Outcome
import OrderKeeper.Submission.Run
import OrderKeeper.Submission.Settings
import OrderKeeper.Submission.Tally
import OrderKeeper.Submission.Wire
import OrderKeeper.Table
import OrderKeeper.Text.Blank
import OrderKeeper.Text.Case
import OrderKeeper.Text.Case.Table
import OrderKeeper.Text.Decimal
import OrderKeeper.Text.Hex
import OrderKeeper.Url.Basic
import OrderKeeper.Url.Host
import OrderKeeper.Url.Percent
import OrderKeeper.Url.Punycode
import OrderKeeper.Word
import OrderKeeper.WorkItem.Basic
import OrderKeeper.WorkItem.Parse
import OrderKeeper.WorkItem.Request

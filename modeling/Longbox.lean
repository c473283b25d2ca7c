import Longbox.Archive.Metadata
import Longbox.Json.Writer
import Longbox.RateLimiter.Exercise
import Longbox.Session.Record
import Longbox.Session.Rehearsal
import Longbox.Tag.Record
import Longbox.Proofs.Session.Ledger
import Longbox.Proofs.Download.Step
import Longbox.Proofs.Session.Phase
import Longbox.Proofs.Disk.Change
import Longbox.Proofs.Download.Balance
import Longbox.Proofs.Download.Footprint
import Longbox.Proofs.Download.Rollback
import Longbox.Proofs.Plan.Orphan
import Longbox.Proofs.Session.Completion
import Longbox.Proofs.Session.Rollback
import Longbox.Proofs.Download.Visit
import Longbox.Proofs.Session.Visit
import Longbox.Proofs.Download.Harm
import Longbox.Proofs.Session.Cancellation
import Longbox.Proofs.Session.Finality
import Longbox.Proofs.Session.Refusal
import Longbox.Proofs.Session.Token
import Longbox.Proofs.Session.Stop
import Longbox.Proofs.Session.Stages
import Longbox.Proofs.Session.Tally
import Longbox.Proofs.Session.Notice
import Longbox.Proofs.Plan.Complete
import Longbox.Proofs.Path.Resolution
import Longbox.Proofs.Session.Past
import Longbox.Proofs.Session.PreparedRun
import Longbox.Proofs.Plan.Replacement
import Longbox.Proofs.Path.Separation
import Longbox.Proofs.Name.Reading
import Longbox.Proofs.Plan.Special
import Longbox.Proofs.Plan.Spelling
import Longbox.Proofs.RateLimiter.Window
import Longbox.Proofs.Json.Field
import Longbox.Proofs.Json.RoundTrip
import Longbox.Proofs.RateLimiter.Refill
import Longbox.Proofs.Download.Depot
import Longbox.Proofs.Session.Retry
import Longbox.Proofs.RateLimiter.Wait
import Longbox.Proofs.Name.Grammar
import Longbox.Proofs.Shelf.Scan
import Longbox.Proofs.Page.Commit
import Longbox.Proofs.Name.Padding
import Longbox.Proofs.Tag.Normalize
import Longbox.Proofs.Tag.Rating
import Longbox.Proofs.Tag.Spelling

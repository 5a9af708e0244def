import Psfn.Lib.Js
import Psfn.Disclosure.Definitions
import Psfn.Disclosure.Merge
import Psfn.Disclosure.Fold
import Psfn.Lib.JsString
import Psfn.Lib.JsValue
import Psfn.Lib.JsEqual
import Psfn.Lib.Json
import Psfn.Lineage.Definitions
import Psfn.Lineage.Match
import Psfn.Lineage.Evidence
import Psfn.Lineage.Selection
import Psfn.Intake.Envelope
import Psfn.Intake.SinkGates
import Psfn.Intake.SinkDecisions
import Psfn.Intake.Taint
import Psfn.Scheduler.Definitions
import Psfn.Scheduler.Run
import Psfn.Scheduler.Results
import Psfn.Scheduler.Guard
import Psfn.Journal.Definitions
import Psfn.Journal.Tombstones
import Psfn.Journal.Tail
import Psfn.Journal.TailRefines
import Psfn.Lib.Crash
import Psfn.Journal.Rewrite
import Psfn.Journal.RewriteCrash
import Psfn.Disclosure.Capsule
import Psfn.Disclosure.CapsuleCustody
import Psfn.Disclosure.CapsuleAccounting
import Psfn.Intake.RoundTrip
import Psfn.Intake.Quarantine
import Psfn.Intake.QuarantineLoad
import Psfn.Intake.QuarantineRun
import Psfn.Intake.QuarantineStore
import Psfn.Intake.QuarantineGate
import Psfn.Resilience.CircuitBreaker
import Psfn.Resilience.HalfOpen
import Psfn.Disclosure.CapsuleFile
import Psfn.Disclosure.Tighten
import Psfn.Intake.Coherence
import Psfn.Journal.Signing
import Psfn.Journal.TamperEvidence
import Psfn.Background.Rows
import Psfn.Background.Store
import Psfn.Background.Transitions
import Psfn.Background.Invariant
import Psfn.Background.Reserve
import Psfn.Background.Effects
import Psfn.Background.Receipts
import Psfn.Background.AtMostOnce
import Psfn.Background.Interruption
import Psfn.Journal.Addressing
import Psfn.Journal.Redaction
import Psfn.Charge.Window
import Psfn.Charge.WindowAgreement
import Psfn.Charge.Surface
import Psfn.Charge.Quota
import Psfn.Charge.Provenance
import Psfn.Fatigue.SocialPot
import Psfn.Fatigue.SocialPotRun
import Psfn.Background.Compaction
import Psfn.Lib.Uuid
import Psfn.Arbiter.Store
import Psfn.Arbiter.Leases
import Psfn.Arbiter.EgressLeasePhase
import Psfn.Arbiter.OneProbe
import Psfn.Arbiter.OneSpeaker
import Psfn.Arbiter.GrantSettles
import Psfn.Fatigue.IcpReservations
import Psfn.Fatigue.IcpReservationsRun
import Psfn.Lib.Interleave
import Psfn.Room.Lease
import Psfn.Room.LeaseRun
import Psfn.Room.CloseReason
import Psfn.Escalation.Ledger
import Psfn.Escalation.Raise
import Psfn.Escalation.InFlight
import Psfn.Escalation.Cooldown
import Psfn.Voice.HistoryStamps
import Psfn.Voice.Segmenter
import Psfn.Voice.ReplyStream
import Psfn.Snapshot.LineBefore
import Psfn.Snapshot.Files
import Psfn.Snapshot.Page
import Psfn.Snapshot.PageRun
import Psfn.Snapshot.FollowPages
import Psfn.TaskScheduler.WallClock
import Psfn.TaskScheduler.LatestSlot
import Psfn.TaskScheduler.SlotServed
import Psfn.TaskScheduler.TaskUpdates
import Psfn.TaskScheduler.Scheduler
import Psfn.TaskScheduler.SingleFlight
import Psfn.TaskScheduler.NextDue
import Psfn.TaskScheduler.Wake
import Psfn.FleetMaintenance.Fencing
import Psfn.FleetMaintenance.Rotation
import Psfn.Automata.RunRegistry
import Psfn.Automata.RunRegistryRun
import Psfn.Automata.TerminalClaim
import Psfn.Automata.ClaimRoundTrip
import Psfn.Automata.Convergence
import Psfn.Voice.Segments
import Psfn.Background.ClaimPasses
import Psfn.Lib.Replace
import Psfn.Prompt.Escaping
import Psfn.Prompt.Tags
import Psfn.Prompt.Frames
import Psfn.Prompt.Sanitized
import Psfn.Lib.Calendar
import Psfn.Lib.Digits
import Psfn.Lib.KeyOrder
import Psfn.Lib.CanonicalJson
import Psfn.Lib.Tiers
import Psfn.Backups.Retention
import Psfn.Backups.RetentionTiers
import Psfn.Backups.Incremental
import Psfn.Intake.Receipt
import Psfn.Intake.ReceiptBinding
import Psfn.Time.ActiveTimezone
import Psfn.Intake.Marking
import Psfn.Intake.ToolResult
import Psfn.Journal.SeekRows
import Psfn.Journal.SeekScan
import Psfn.Intake.StridedMarks
import Psfn.Scheduler.Signature

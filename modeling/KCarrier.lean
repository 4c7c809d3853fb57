import KCarrier.Crash.Triple
import KCarrier.Engine
import KCarrier.Engine.Outline
import KCarrier.Harness
import KCarrier.Harness.Sound
import KCarrier.Harness.Outline
import KCarrier.Harness.Converge
import KCarrier.Report
import KCarrier.Engine.Promotion
import KCarrier.Engine.Ledger
import KCarrier.Lock
import KCarrier.Lock.Exclusion
import KCarrier.Storage
import KCarrier.Protocol
import KCarrier.World
import KCarrier.Runner
import KCarrier.Runner.Steps
import KCarrier.Runner.Binding
import KCarrier.Runner.Bound
import KCarrier.Runner.Replay
import KCarrier.Runner.Service
import KCarrier.Runner.Flow
import KCarrier.Runner.Receipts
import KCarrier.Runner.Course
import KCarrier.Runner.Books
import KCarrier.Runner.Truth
import KCarrier.Runner.Converge
import KCarrier.Crash.Lines
import KCarrier.Storage.Journal
import KCarrier.Supervisor
import KCarrier.Runner.Errors
import KCarrier.Runner.Answer
import KCarrier.Runner.Settlement
import KCarrier.Runner.Uncertain
import KCarrier.Runner.Completed
import KCarrier.Runner.Attribution
import KCarrier.Crash.Shows
import KCarrier.Engine.Refinement
import KCarrier.Engine.Blackout
import KCarrier.Runner.Records
import KCarrier.Runner.Workers
import KCarrier.Runner.Failures
import KCarrier.Runner.Slots
import KCarrier.Runner.Legible
import KCarrier.Runner.Rollback
import KCarrier.Quarantine
import KCarrier.Runner.Gate
import KCarrier.Runner.Fence
import KCarrier.Host
import KCarrier.Host.Records
import KCarrier.Json.Value
import KCarrier.Json.Write
import KCarrier.Json.Read
import KCarrier.Json.Derive
import KCarrier.Json.RoundTrip
import KCarrier.Protocol.Wire
import KCarrier.Protocol.Reply
import KCarrier.Engine.Words
import KCarrier.Runner.Budget
import KCarrier.Runner.Telling
import KCarrier.Runner.Reply
import KCarrier.Bootstrap
import KCarrier.Crash.Scan
import KCarrier.Json.OneLine
import KCarrier.Liveness
import KCarrier.Source
import KCarrier.Storage.Provenance
import KCarrier.Host.Redaction
import KCarrier.Host.Call
import KCarrier.Json.Unclosed
import KCarrier.Lock.Recovery
import KCarrier.Supervisor.Resume
import KCarrier.Quarantine.Displacement
import KCarrier.Artifact
import KCarrier.Runner.Retire
import KCarrier.Runner.Freshness
import KCarrier.Runner.Unbased
import KCarrier.Runner.Faultless
import KCarrier.Runner.Admission
import KCarrier.Engine.Delivery
import KCarrier.Runner.Consent
import KCarrier.Runner.Custody
import KCarrier.Runner.Pedigree
import KCarrier.Runner.Provenance
import KCarrier.Runner.Lifecycle
import KCarrier.Json.Cut
import KCarrier.Runner.Filed
import KCarrier.Serve
import KCarrier.Serve.Launch
import KCarrier.Crash.Cost
import KCarrier.Engine.Cost
import KCarrier.Harness.Simulate
import KCarrier.Harness.Drill
import KCarrier.Harness.Mutants

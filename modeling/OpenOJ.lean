import OpenOJ.Storage.Fencing
import OpenOJ.Storage.Sweep
import OpenOJ.Storage.Enqueue
import OpenOJ.Storage.Finality
import OpenOJ.Storage.Stale
import OpenOJ.Storage.Disclosure
import OpenOJ.Storage.LifeCycle
import OpenOJ.Storage.Immutable
import OpenOJ.Service.Dispatch
import OpenOJ.Service.Submission
import OpenOJ.Guest.Codec
import OpenOJ.Guest.Agent
import OpenOJ.Judge.StageOutput
import OpenOJ.Application.Pipeline
import OpenOJ.Foundation.Race
import OpenOJ.Storage.Race
import OpenOJ.Guest.Process
import OpenOJ.Guest.Channel
import OpenOJ.Judge.Conformance
import OpenOJ.Storage.ClaimRace
import OpenOJ.Judge.HeldLease
import OpenOJ.Judge.Isolation
import OpenOJ.Guest.FrameSize
import OpenOJ.Guest.Answer
import OpenOJ.Guest.Session
import OpenOJ.Guest.Upload
import OpenOJ.Firecracker.Api
import OpenOJ.Firecracker.Response
import OpenOJ.Firecracker.Vsock
import OpenOJ.Firecracker.Lifecycle
import OpenOJ.Firecracker.Vm
import OpenOJ.Protocol.Acceptance
import OpenOJ.Protocol.Typed
import OpenOJ.Service.NodeList
import OpenOJ.Foundation.JsonShape
import OpenOJ.Foundation.Arrivals
import OpenOJ.Judge.Patience
import OpenOJ.Foundation.Accumulate
import OpenOJ.Domain.Usage
import OpenOJ.Guest.Diagnostic
import OpenOJ.Firecracker.Handshake
import OpenOJ.Foundation.Locks
import OpenOJ.Storage.Locks
import OpenOJ.Storage.Sessions
import OpenOJ.Storage.Deadlock
import OpenOJ.Service.Handlers
import OpenOJ.Judge.Client
import OpenOJ.Storage.FreshIds
import OpenOJ.Judge.Loop
import OpenOJ.Storage.Origin
import OpenOJ.Storage.Reports
import OpenOJ.Storage.Work
import OpenOJ.Service.Deployment
import OpenOJ.Storage.Completion
import OpenOJ.Storage.Backlog
import OpenOJ.Judge.DevelopmentMock
import OpenOJ.Judge.Drain
import OpenOJ.Judge.Outage
import OpenOJ.Judge.OwnGuest
import OpenOJ.Service.CommandLine
import OpenOJ.Judge.MicroVmNode

import Kuintessence.Lib.Outcome
import Kuintessence.Lib.Effect
import Kuintessence.Model.Common
import Kuintessence.Model.WorkflowDraft
import Kuintessence.Model.WorkflowInstance
import Kuintessence.Model.Repository
import Kuintessence.Model.Schedule
import Kuintessence.Model.Service
import Kuintessence.Engine.State
import Kuintessence.Draft.Checks
import Kuintessence.Draft.Rules
import Kuintessence.Draft.Validation
import Kuintessence.Lib.EdgeList
import Kuintessence.Instance.Copy
import Kuintessence.Instance.SubNodes
import Kuintessence.Engine.Session
import Kuintessence.Engine.Selection
import Kuintessence.Engine.Dispatch
import Kuintessence.Engine.Sending
import Kuintessence.Engine.Turns
import Kuintessence.Engine.Requests
import Kuintessence.Lib.Run
import Kuintessence.Engine.Submission
import Kuintessence.Engine.Layout
import Kuintessence.Engine.Invariant
import Kuintessence.Engine.Reports
import Kuintessence.Workflow.Completion
import Kuintessence.Workflow.Precedence
import Kuintessence.Workflow.Results
import Kuintessence.Workflow.Delivery
import Kuintessence.Workflow.Suspension
import Kuintessence.Workflow.Opening
import Kuintessence.Instance.Renaming
import Kuintessence.Workflow.Staleness
import Kuintessence.Workflow.Registration
import Kuintessence.Workflow.Failure
import Kuintessence.Workflow.Agreement
import Kuintessence.Workflow.Billing
import Kuintessence.Engine.Stock
import Kuintessence.Workflow.Starting
import Kuintessence.Engine.Specs
import Kuintessence.Engine.Handing
import Kuintessence.Workflow.Breakage
import Kuintessence.Engine.Respecs
import Kuintessence.Engine.Ledger
import Kuintessence.Workflow.Batching
import Kuintessence.Lib.Writes
import Kuintessence.Engine.Filling
import Kuintessence.Workflow.Feeding
import Kuintessence.Agent.Dto
import Kuintessence.Agent.Repository
import Kuintessence.Agent.Services
import Kuintessence.Agent.Scheduler
import Kuintessence.Agent.Frames
import Kuintessence.Agent.Ordering
import Kuintessence.Agent.Enqueuing
import Kuintessence.Agent.Parking
import Kuintessence.Agent.Sequencing
import Kuintessence.Agent.TaskRows
import Kuintessence.Agent.Reporting
import Kuintessence.Agent.Lasting
import Kuintessence.Agent.Finality
import Kuintessence.Agent.Counting
import Kuintessence.Agent.Pacing
import Kuintessence.Agent.Balance
import Kuintessence.Lib.Json
import Kuintessence.Protocol.Task
import Kuintessence.Protocol.Reading
import Kuintessence.Protocol.Results
import Kuintessence.Lib.Glob
import Kuintessence.Storage.Depot
import Kuintessence.Storage.Service
import Kuintessence.Storage.Endpoints
import Kuintessence.Storage.Undisturbed
import Kuintessence.Storage.Generated
import Kuintessence.Storage.Exchange
import Kuintessence.Engine.Telling
import Kuintessence.Workflow.Coverage
import Kuintessence.Agent.Upkeep
import Kuintessence.Agent.Governing
import Kuintessence.Agent.Records
import Kuintessence.Agent.Removal
import Kuintessence.Agent.Arrival
import Kuintessence.Agent.Scheduling
import Kuintessence.Agent.Attending
import Kuintessence.Agent.Resuming
import Kuintessence.Storage.Assembly
import Kuintessence.Storage.Refusal
import Kuintessence.Storage.Keys
import Kuintessence.Storage.Creation
import Kuintessence.Storage.Exclusion
import Kuintessence.Storage.Retrying
import Kuintessence.Storage.Moving
import Kuintessence.Storage.Text
import Kuintessence.Storage.Realtime
import Kuintessence.Storage.Addressing
import Kuintessence.Lib.Phases
import Kuintessence.Storage.Overlap
import Kuintessence.Storage.Serial
import Kuintessence.Lib.Assign
import Kuintessence.Billing.Pricing
import Kuintessence.Billing.Independence
import Kuintessence.Billing.Recording
import Kuintessence.Billing.Totals
import Kuintessence.Billing.Charging
import Kuintessence.Billing.Balance
import Kuintessence.Workflow.Gathering
import Kuintessence.Workflow.Collecting
import Kuintessence.Workflow.Supplying
import Kuintessence.Package.Filling
import Kuintessence.Package.Dangling
import Kuintessence.Package.Deployment
import Kuintessence.Package.Validation
import Kuintessence.Package.Arguments
import Kuintessence.Lib.Commute
import Kuintessence.Package.Orders
import Kuintessence.Lib.Machine
import Kuintessence.Transfer.Blocks
import Kuintessence.Transfer.Upload
import Kuintessence.Transfer.Download
import Kuintessence.Transfer.Cursor
import Kuintessence.Lib.Path
import Kuintessence.Transfer.Reports
import Kuintessence.Agent.Collecting
import Kuintessence.Agent.Delivering
import Kuintessence.Lib.Decimal
import Kuintessence.Agent.Script
import Kuintessence.Agent.Directives
import Kuintessence.Lib.Text
import Kuintessence.Agent.Outputs
import Kuintessence.Lib.Shell
import Kuintessence.Lib.Session
import Kuintessence.Agent.Launching
import Kuintessence.Agent.ScriptText
import Kuintessence.Agent.Faithful
import Kuintessence.Agent.Tokens
import Kuintessence.Agent.Refreshing
import Kuintessence.Agent.Deploying
import Kuintessence.Workflow.Saving
import Kuintessence.Instance.Position
import Kuintessence.Agent.Measures
import Kuintessence.Agent.Resources
import Kuintessence.Agent.Qstat
import Kuintessence.Agent.QstatText
import Kuintessence.Lib.Regex
import Kuintessence.Agent.Spack
import Kuintessence.Agent.Durations
import Kuintessence.Workflow.Entering
import Kuintessence.Middleware.Authorization
import Kuintessence.Storage.Ranges
import Kuintessence.Package.Extraction
import Kuintessence.Lib.Triple
import Kuintessence.Storage.Snapshots
import Kuintessence.Storage.Integrity
import Kuintessence.Storage.Deposits
import Kuintessence.Transfer.Fetching
import Kuintessence.Lib.Growth
import Kuintessence.Storage.NetDisk
import Kuintessence.Storage.FileTree
import Kuintessence.Lib.Parallel
import Kuintessence.Package.Previewing
import Kuintessence.Workflow.Progress
import Kuintessence.Workflow.Stalling

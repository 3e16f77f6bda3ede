import Kuintessence.Model.Schedule

namespace Kuintessence

namespace WorkflowService

def getDraftById (id : Uuid) : Svc WorkflowDraft := do
  let env ← .read
  let k ← call
  match env.draft k id with
  | some draft => pure draft
  | none => fail "no such workflow draft"

def checkDraft (spec : WorkflowDraftSpec) : Svc Unit := do
  let env ← .read
  let w ← .get
  .lift <| match spec.validateWorkflowDraft (env.fileMeta w.calls) with
    | .ok u => .ok u
    | .err e => .err (.specific e)
    | .panic => .panic

def submitWorkflow (id : Uuid) : Svc Uuid := do
  let env ← .read
  let draft ← getDraftById id
  checkDraft draft.spec
  let w ← .get
  let flow ← gen (WorkflowInstance.from (env.idMap w.calls) draft)
  let nodes ← gen flow.parseNodeInstances
  insertFlow flow
  Effect.each insertNode nodes
  let _ ← saveChanged
  pure flow.id

def startWorkflow (id : Uuid) : Svc Unit := do
  let flow ← getFlowById id
  let nodes ← getAllWorkflowInstanceNodes flow.id
  updateFlow { flow with status := .pending }
  Effect.each (fun node => updateNode { node with status := .pending }) nodes
  let _ ← saveChanged
  scheduleNextNodes (.workflowInstanceId id)

end WorkflowService

namespace StatusReceiver

def nodeStatus : TaskResultStatus → NodeInstanceStatus
  | .success => .finished
  | .continued => .running
  | .paused => .paused
  | .failed => .error
  | .deleted => .stopped

def billNode (id : Uuid) : Svc Unit := do
  let _ ← call
  note fun _ => .bill id

def setFlowUnless (awaited : NodeInstanceStatus) (status : WorkflowInstanceStatus)
    (flowInstanceId : Uuid) : Svc Unit := do
  let flow ← getFlowById flowInstanceId
  let nodes ← getAllWorkflowInstanceNodes flow.id
  if (nodes.filter (fun el => el.status == awaited)).length == 0 then
    updateFlow { flow with status := status }
  else pure ()

def followUp (result : TaskResult) (flowInstanceId : Uuid) : Svc Unit :=
  match result.status with
  | .success => do
    scheduleNextNodes (.nodeInstanceId result.id)
    billNode result.id
  | .failed => do
    let flow ← getFlowById flowInstanceId
    updateFlow { flow with status := .error }
  | .paused => setFlowUnless .pausing .paused flowInstanceId
  | .deleted => setFlowUnless .stopping .stopped flowInstanceId
  | .continued => pure ()

def receiveNodeStatus (result : TaskResult) : Svc Unit := do
  let node ← getNodeById result.id
  updateNode { node with
    log := some result.message
    resourceMeter := result.usedResources
    status := nodeStatus result.status }
  let _ ← saveChanged
  followUp result node.flowInstanceId
  let _ ← saveChanged
  pure ()

end StatusReceiver

inductive Request where
  | submit (user : Option Uuid) (draftId : Uuid)
  | start (user : Option Uuid) (id : Uuid)
  | pause (user : Option Uuid) (id : Uuid)
  | continue (user : Option Uuid) (id : Uuid)
  | terminate (user : Option Uuid) (id : Uuid)
  | receive (result : TaskResult)
  deriving DecidableEq, Repr

namespace Request

def user : Request → Option Uuid
  | .submit user _ => user
  | .start user _ => user
  | .pause user _ => user
  | .continue user _ => user
  | .terminate user _ => user
  | .receive _ => none

def serve : Request → Svc Unit
  | .submit _ draftId => do
    let _ ← WorkflowService.submitWorkflow draftId
    pure ()
  | .start _ id => WorkflowService.startWorkflow id
  | .pause _ id => pauseWorkflow id
  | .continue _ id => continueWorkflow id
  | .terminate _ id => terminateWorkflow id
  | .receive result => StatusReceiver.receiveNodeStatus result

end Request

-- A request gets repositories of its own: statements it leaves behind are dropped with them.
def World.open (w : World) (user : Option Uuid) : World :=
  { w with statements := [], canDrop := true, user := user }

def Request.handle (env : Env) (w : World) (q : Request) : Anyhow Unit × World :=
  q.serve env (w.open q.user)

def step (env : Env) (w : World) (q : Request) : World := (q.handle env w).2

def World.start (ids : Nat → Uuid) (files : Files) : World where
  db := ⟨[], []⟩
  files := files
  statements := []
  canDrop := true
  trace := []
  user := none
  ids := ids
  calls := 0

end Kuintessence

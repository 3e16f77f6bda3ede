import Kuintessence.Model.Repository

namespace Kuintessence

def getRandomCluster : Svc Uuid := do
  let env ← .read
  let k ← call
  let enabled := env.clusters k
  .lift (.unwrap enabled[env.random k % enabled.length]?)

def sendTask (taskId : Uuid) (command : TaskCommand) (clusterId : Uuid) : Svc Unit := do
  let _ ← call
  note fun _ => .sendTask taskId command clusterId

def assignAndSend (taskId : Uuid) : Svc Unit := do
  let clusterId ← getRandomCluster
  let node ← getNodeById taskId
  updateNode { node with clusterId := some clusterId }
  let _ ← saveChanged
  sendTask taskId .start clusterId

def commandTask (taskId : Uuid) (command : TaskCommand) : Svc Unit := do
  let node ← getNodeById taskId
  match node.clusterId with
  | some clusterId => sendTask taskId command clusterId
  | none => fail "Node instance without cluster id!"

def sendNodeStatus (id : Uuid) (status : TaskResultStatus) : Svc Unit := do
  let _ ← call
  note fun _ => .nodeStatus { id := id, status := status }

namespace SoftwareComputing

def handleUsecase (spec : NodeSpec) : Svc Unit := do
  let env ← .read
  let k ← call
  .lift (env.parseTask k spec)
  assignAndSend spec.id

def operateTask (taskId : Uuid) (command : TaskCommand) : Svc Unit := commandTask taskId command

end SoftwareComputing

namespace Script

def handleUsecase (spec : NodeSpec) : Svc Unit := assignAndSend spec.id

def operateTask (taskId : Uuid) (command : TaskCommand) : Svc Unit := commandTask taskId command

end Script

namespace NoAction

def handleUsecase (spec : NodeSpec) : Svc Unit := sendNodeStatus spec.id .success

def operateTask (taskId : Uuid) (command : TaskCommand) : Svc Unit :=
  sendNodeStatus taskId <| match command with
    | .start => .success
    | .pause => .paused
    | .continue => .success
    | .delete => .deleted

end NoAction

namespace Milestone

-- `urlParses` is `Url::parse`; the answer of the request to the url is dropped.
def handleUsecase (urlParses : String → Bool) (spec : NodeSpec) : Svc Unit :=
  match spec.kind with
  | .milestone _ url _ => do
    .lift (.guard (urlParses url) (.anyhow "relative URL without a base"))
    let _ ← getNodeById spec.id
    let _ ← call
    pure ()
  | _ => fail "Unreachable node kind!"

def operateTask (_ : Uuid) (_ : TaskCommand) : Svc Unit := pure ()

end Milestone

structure UsecaseService where
  handleUsecase : NodeSpec → Svc Unit
  operateTask : Uuid → TaskCommand → Svc Unit

def usecaseService (urlParses : String → Bool) : NodeInstanceKind → UsecaseService
  | .noAction => ⟨NoAction.handleUsecase, NoAction.operateTask⟩
  | .softwareUsecaseComputing => ⟨SoftwareComputing.handleUsecase, SoftwareComputing.operateTask⟩
  | .script => ⟨Script.handleUsecase, Script.operateTask⟩
  | .milestone => ⟨Milestone.handleUsecase urlParses, Milestone.operateTask⟩

-- The service provider registers no milestone service in the map it selects from.
def sendUsecase (spec : NodeSpec) : Svc Unit := do
  note fun nodes => .sendUsecase spec nodes
  match NodeInstanceKind.from spec.kind with
  | .noAction => NoAction.handleUsecase spec
  | .softwareUsecaseComputing => SoftwareComputing.handleUsecase spec
  | .script => Script.handleUsecase spec
  | .milestone => fail "No such sub task service called Milestone"

def operateTask (task : OperateTask) : Svc Unit := do
  note fun _ => .operateTask task
  match task.kind with
  | .noAction => NoAction.operateTask task.taskId task.command
  | .softwareUsecaseComputing => SoftwareComputing.operateTask task.taskId task.command
  | .script => Script.operateTask task.taskId task.command
  | .milestone => fail "No such sub task service called Milestone"

end Kuintessence

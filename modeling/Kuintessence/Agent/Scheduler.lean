import Kuintessence.Agent.Services
import Kuintessence.Lib.Run

namespace Kuintessence.Agent

def TaskDisplayType.text : TaskDisplayType → String
  | .softwareDeployment => "SoftwareDeployment"
  | .usecaseExecution => "UsecaseExecution"
  | .collectedOut => "CollectedOut"
  | .unknown => "Unknown"

def SubTask.isBusy (subTask : SubTask) : Bool :=
  subTask.status = .running ∨ subTask.status = .completing

def SubTask.isWaiting (subTask : SubTask) : Bool :=
  subTask.status = .queuing ∨ subTask.status = .suspended

namespace TaskReport

def reportCompletedTask (id : Uuid) : Op Unit := do
  let task ← op (Tasks.getById id)
  let usedResources := (task.body.find? fun x => x.resourceUsed.isSome).bind SubTask.resourceUsed
  op (call (fun _ _ => ()) [.reported .success id "" usedResources])

def reportFailedTask (id : Uuid) (message : String) : Op Unit :=
  op (call (fun _ _ => ()) [.reported .failed id message none])

def reportPausedTask (id : Uuid) : Op Unit :=
  op (call (fun _ _ => ()) [.reported .paused id "" none])

def reportResumedTask (id : Uuid) : Op Unit :=
  op (call (fun _ _ => ()) [.reported .continued id "" none])

def reportDeletedTask (id : Uuid) : Op Unit :=
  op (call (fun _ _ => ()) [.reported .deleted id "" none])

def reportStartedTask (id : Uuid) : Op Unit :=
  op (call (fun _ _ => ()) [.reported .start id "" none])

end TaskReport

namespace TaskScheduler

def loadTasksCount : Op Nat := .atom .load (do let s ← .get; pure s.tasksCount)

def storeTasksCount (count : Nat) (event : Event) : Op Unit :=
  .atom (.store count event) <| .modify fun s =>
    { s with tasksCount := count, trace := s.trace ++ [event] }

def noteLeft (event : Event) : Op Unit := .atom (.note event) (Agent.note event)

-- `AtomicU32` arithmetic: an overflow panics.
def checkedAdd (count : Nat) : Outcome String Nat :=
  if count + 1 < 2 ^ 32 then .ok (count + 1) else .panic

def checkedSub (count : Nat) : Outcome String Nat :=
  if 0 < count then .ok (count - 1) else .panic

def releaseTasksCount (event : Event) : Op Unit := do
  let taskCount ← loadTasksCount
  let count ← Prog.done (checkedSub taskCount)
  storeTasksCount count event

def startSubTask (subTask : SubTask) (service : SubTaskService) : Op Unit := do
  op (.modify fun s => { s with trace := s.trace ++ [.started subTask.id s.subTasks] })
  match subTask.status with
  | .queuing => service.enqueueSubTask subTask.id
  | .suspended => service.continueSubTask subTask.id
  | _ => .done .panic

def dispatch (subTask : SubTask) : Op Unit := do
  let maxTasksCount ← op (do let s ← .get; pure s.maxTasksCount)
  let taskCount ← loadTasksCount
  if maxTasksCount ≠ 0 ∧ taskCount = maxTasksCount then pure ()
  else do
    let count ← Prog.done (checkedAdd taskCount)
    storeTasksCount count (.dispatched subTask.id)
    let taskType := TaskDisplayType.from subTask.taskType
    let service ← Prog.done
      (.okOr ("No such sub task service called " ++ taskType.text) (subTaskServices taskType))
    startSubTask subTask service

def makeRunning (task : Task) : Op Unit :=
  if task.status = .queuing then do
    op (Tasks.update { task with status := .running })
    op saveChanged
  else if task.status = .running then pure ()
  else fail ("Unable to schedule a task not in task queue " ++ toString task.id ++ ".")

def scheduleNextTaskById (id : Uuid) : Op Unit := do
  let task ← op (Tasks.getById id)
  makeRunning task
  TaskReport.reportStartedTask id
  if task.body.any SubTask.isBusy then pure ()
  else do
    let taskBody ← Prog.done (.okOr ("There isn't queued task body in " ++ toString task.id)
      (task.body.find? SubTask.isWaiting))
    dispatch taskBody

def scheduleNextTask : Op Unit := do
  let id ← op Tasks.getNextQueuingId
  match id with
  | some id => scheduleNextTaskById id
  | none => pure ()

def enqueueTask (task : Task) : Op Unit := do
  let task := { task with
    status := .queuing, body := task.body.map fun x => { x with status := .queuing } }
  op (do
    Tasks.insert task
    Agent.note (.submitted task.id (task.body.map SubTask.id)))
  op saveChanged
  scheduleNextTaskById task.id

def pauseSubTasks (body : List SubTask) : Op Unit :=
  Prog.each (fun subTask =>
    match subTaskServices (.from subTask.taskType) with
    | some service => do
      noteLeft (.paused [subTask.id])
      service.pauseSubTask subTask.id
    | none => pure ()) body

def deleteSubTasks (body : List SubTask) : Op Unit :=
  Prog.each (fun subTask =>
    match subTaskServices (.from subTask.taskType) with
    | some service => do
      noteLeft (.removed subTask.id)
      service.deleteSubTask subTask.id
    | none => pure ()) body

def pauseTask (id : Uuid) : Op Unit := do
  let task ← op (Tasks.getById id)
  match task.status with
  | .queuing => do
    pauseSubTasks task.body
    op (Tasks.update { task with status := .suspended })
    TaskReport.reportPausedTask id
    op saveChanged
  | .running => do
    releaseTasksCount (.paused (task.body.map SubTask.id))
    pauseSubTasks task.body
    op (Tasks.update { task with status := .suspended })
    op saveChanged
    TaskReport.reportPausedTask id
    scheduleNextTask
  | _ => fail ("Unable to pause task " ++ toString id ++ ".")

def suspendRunning (task : Task) : Op Unit :=
  Prog.when (task.status = .running) do
    releaseTasksCount (.paused (task.body.map SubTask.id))
    pauseSubTasks task.body
    op (Tasks.update { task with status := .suspended })
    op saveChanged
    scheduleNextTask

def deleteTask (id : Uuid) (isInternal : Bool) : Op Unit := do
  let task ← op (Tasks.getById id)
  suspendRunning task
  deleteSubTasks task.body
  op (Tasks.deleteById id)
  Prog.when (isInternal = false) (TaskReport.reportDeletedTask id)
  op saveChanged

def continueTask (id : Uuid) : Op Unit := do
  let task ← op (Tasks.getById id)
  op (Tasks.update { task with status := .queuing })
  op saveChanged
  TaskReport.reportResumedTask id
  scheduleNextTaskById task.id

def completeSubTask (id : Uuid) : Op Unit := do
  let subTask ← op (SubTasks.getById id)
  op (SubTasks.update { subTask with status := .completed })
  op saveChanged
  releaseTasksCount (.finished id)
  let task ← op (Tasks.getById subTask.parentId)
  if task.body.all fun x => x.status = .completed then do
    op (Tasks.update { task with status := .completed })
    op saveChanged
    TaskReport.reportCompletedTask subTask.parentId
    scheduleNextTask
  else scheduleNextTaskById subTask.parentId

def failSubTask (id : Uuid) : Op Unit := do
  releaseTasksCount (.failed id)
  let subTask ← op (SubTasks.getById id)
  let task ← op (Tasks.getById subTask.parentId)
  op (Tasks.update { task with status := .failed })
  op saveChanged
  TaskReport.reportFailedTask subTask.parentId subTask.failedReason
  scheduleNextTask

def deleteAllCompletedTasks : Op Unit := do
  let tasks ← op Tasks.getAll
  let now ← op (do let env ← .read; pure env.now)
  Prog.each (fun task =>
    Prog.when (task.status = .completed ∧ task.updateTime > now - 2 * 60 * 60)
      (deleteTask task.id true)) tasks

end TaskScheduler

namespace KafkaMessageQueue

def facilityKind : Dto.FacilityKind → FacilityKind
  | .spack name argumentList => .spack name argumentList
  | .singularity image tag => .singularity image tag

-- `next` is the first id that `Uuid::new_v4` has not given out.
def fileInfo (next : Uuid) : Dto.FileInfo → FileInfo × Uuid
  | .input path isPackage (.id id) =>
    ({ id := next, metadataId := id, path := path, isPackage := isPackage, fileType := .IN },
      next + 1)
  | .input path isPackage (.content text) =>
    ({ id := next, metadataId := next + 1, path := path, isPackage := isPackage, fileType := .IN,
       text := text, isGenerated := true }, next + 2)
  | .output id path isPackage optional =>
    ({ id := next, metadataId := id, path := path, isPackage := isPackage, optional := optional,
       fileType := .OUT }, next + 1)

def fileInfos : Uuid → List Dto.FileInfo → List FileInfo × Uuid
  | next, [] => ([], next)
  | next, file :: files =>
    let (info, next) := fileInfo next file
    let (infos, next) := fileInfos next files
    (info :: infos, next)

def subTask (parentId next : Uuid) : Dto.TaskBody → SubTask × Uuid
  | .softwareDeployment facility command =>
    ({ id := next, parentId := parentId, status := .queuing,
       facilityKind := facilityKind facility, taskType := .softwareDeployment command }, next + 1)
  | .usecaseExecution name facility arguments environments stdIn files requirements =>
    let (infos, last) := fileInfos (next + 1) files
    ({ id := next, parentId := parentId, status := .queuing,
       facilityKind := facilityKind facility, requirements := requirements,
       taskType := .usecaseExecution name arguments environments stdIn infos }, last)
  | .collectedOut collectFrom rule collectTo optional =>
    ({ id := next, parentId := parentId, status := .queuing,
       taskType := .collectedOut collectFrom rule collectTo optional }, next + 1)

def subTasks (parentId : Uuid) : Uuid → List Dto.TaskBody → List SubTask × Uuid
  | next, [] => ([], next)
  | next, body :: rest =>
    let (row, next) := subTask parentId next body
    let (rows, next) := subTasks parentId next rest
    (row :: rows, next)

def drawBody (message : Dto.Task) : Act (List SubTask) := fun _ s =>
  let (rows, next) := subTasks message.id s.nextId message.body
  (.ok rows, { s with nextId := next })

def receive (message : Dto.Task) : Op Unit :=
  match message.command with
  | .start => do
    let body ← op (drawBody message)
    let now ← op (do let env ← .read; pure env.now)
    TaskScheduler.enqueueTask { id := message.id, body := body, updateTime := now }
  | .pause => TaskScheduler.pauseTask message.id
  | .continue => TaskScheduler.continueTask message.id
  | .delete => TaskScheduler.deleteTask message.id false

end KafkaMessageQueue

inductive Operation where
  | message (message : Dto.Task)
  | report (subTask : Uuid) (status : SubTaskStatus)
  | scheduleNextTask
  | scheduleNextTaskById (task : Uuid)
  | deleteAllCompletedTasks
  | refreshAllStatus
  | runJob (file : Uuid)
  | completeJob (file : Uuid)
  | failJob (subTask : Uuid) (reason : String)
  | runSubTask (subTask : Uuid)
  | completeDeployment (subTask : Uuid)
  | failDeployment (subTask : Uuid)
  deriving DecidableEq, Repr

def Operation.serve : Operation → Op Unit
  | .message m => KafkaMessageQueue.receive m
  | .report subTask .completed => TaskScheduler.completeSubTask subTask
  | .report subTask .failed => TaskScheduler.failSubTask subTask
  | .scheduleNextTask => TaskScheduler.scheduleNextTask
  | .scheduleNextTaskById task => TaskScheduler.scheduleNextTaskById task
  | .deleteAllCompletedTasks => TaskScheduler.deleteAllCompletedTasks
  | .refreshAllStatus => RunJob.refreshAllStatus
  | .runJob file => RunJob.runJob file
  | .completeJob file => RunJob.completeJob file
  | .failJob subTask reason => RunJob.failJob subTask reason
  | .runSubTask subTask => DeploySoftware.runSubTask subTask
  | .completeDeployment subTask => DeploySoftware.completeSubTask subTask
  | .failDeployment subTask => DeploySoftware.failSubTask subTask

structure Turn where
  env : Env
  operation : Operation

def step (s : State) (turn : Turn) : State := (turn.operation.serve.exec turn.env s).2

def State.initial (maxTasksCount : Nat) : State where
  tasks := []
  subTasks := []
  taskFiles := []
  maxTasksCount := maxTasksCount
  tasksCount := 0
  nextId := 0
  calls := 0
  trace := []

def sampleEnv : Env where
  fails := fun _ => none
  jobId := fun _ => "1"
  job := fun _ => ⟨.completed, 0, "", ⟨0, 0, 0, 0, 0, 0, 0, 0, 0⟩⟩
  installedHash := fun _ => some "hash"
  installed := fun _ => "hash"
  text := fun _ => ""
  loadScript := fun _ hash => hash
  deployers := [.spack]
  regex := fun _ => none
  now := 0

def sampleBody : List Dto.TaskBody :=
  [.softwareDeployment (.spack "gcc" []) .install,
    .usecaseExecution "gcc" (.spack "gcc" []) [] [] .none [] none,
    .collectedOut .stdout (.topLines 1) (.text 9) false]

def sampleRun : List Operation :=
  [.message ⟨7, sampleBody, .start⟩, .completeDeployment 0, .report 0 .completed,
    .refreshAllStatus, .report 1 .completed, .report 2 .completed]

example : (run step (State.initial 0) (sampleRun.map (Turn.mk sampleEnv))).tasksCount = 0 := by
  decide +kernel

end Kuintessence.Agent

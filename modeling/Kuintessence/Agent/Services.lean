import Kuintessence.Agent.Repository

namespace Kuintessence.Agent

-- What a step does to the task counter: reading it, storing it, or taking note of sub-tasks
-- that leave without the counter.
inductive Access where
  | other
  | load
  | store (count : Nat) (event : Event)
  | note (event : Event)
  deriving DecidableEq, Repr

abbrev Op := Prog Access Env State String

def op {α : Type} (m : Act α) : Op α := .atom .other m

def fail {α : Type} (e : String) : Op α := .done (.err e)

def send (event : Event) : Op Unit := op (Agent.note event)

-- `let _ = …`: a failing update is passed over.
def tryUpdate (subTask : SubTask) : Op Unit := do
  let _ ← Prog.attempt (op (SubTasks.update subTask))
  pure ()

def updateTaskFileStatus (id : Uuid) (status : FileStatus) : Op Unit := do
  let file ← op (TaskFiles.getById id)
  op (TaskFiles.update { file with status := status })

structure SubTaskService where
  enqueueSubTask : Uuid → Op Unit
  deleteSubTask : Uuid → Op Unit
  pauseSubTask : Uuid → Op Unit
  continueSubTask : Uuid → Op Unit

namespace RunJob

def failToLoad (task : SubTask) (reason : String) : Op Unit := do
  op (SubTasks.update { task with status := .failed, failedReason := reason })
  op saveChanged
  send (.subTaskReport task.id .failed)

def submitJob (task : SubTask) (loadSoftware : String) (isMpiBeforeLoader : Bool) : Op Unit :=
  match task.taskType with
  | .usecaseExecution name arguments environments stdIn _ => do
    let info : ScriptInfo :=
      { id := task.id
        isMpiBeforeLoader := isMpiBeforeLoader
        parentId := task.parentId
        name := name
        loadSoftware := loadSoftware
        path := toString task.parentId ++ "/run.sh"
        arguments := arguments
        environments := environments
        stdIn := stdIn
        requirements := task.requirements }
    let jobId ← op (call (fun env n => env.jobId n) [.submitJob info])
    op (SubTasks.update { task with jobId := jobId })
  | _ => fail "Unable to build script info."

def loadAndSubmit (task : SubTask) (deployer : DeployerType) (isMpiBeforeLoader : Bool) :
    Op Unit := do
  let deployers ← op (do let env ← .read; pure env.deployers)
  if deployer ∈ deployers then
    let hash ← op (call (fun env n => env.installedHash n) [])
    match hash with
    | some hash => do
      let loadSoftware ← op (do let env ← .read; pure (env.loadScript deployer hash))
      submitJob task loadSoftware isMpiBeforeLoader
      op saveChanged
    | none => failToLoad task "Unabled to load software. No such software."
  else
    failToLoad task
      "Unabled to load software. Unable to access software package manager."

def internalRunJob (id : Uuid) : Op Unit := do
  let files ← op (TaskFiles.findFilesByTask id)
  if (files.filter fun x => x.fileType = .IN).all fun x => x.status = .both then
    let task ← op (SubTasks.getById id)
    match task.facilityKind with
    | .spack _ _ => loadAndSubmit task .spack false
    | .singularity _ _ => loadAndSubmit task .apptainer true
    | .unknown => do
      submitJob task "" false
      op saveChanged
  else
    op saveChanged

def internalCompleteJob (id : Uuid) : Op Unit := do
  let files ← op (TaskFiles.findFilesByTask id)
  if (files.filter fun x => x.fileType = .OUT).all fun x => x.status = .both then
    send (.subTaskReport id .completed)
  else pure ()

def enqueueSubTask (id : Uuid) : Op Unit := do
  let task ← op (SubTasks.getById id)
  let files ← op (TaskFiles.findFilesByTask id)
  let files := files.filter fun x => x.fileType = .IN
  if files.length = 0 then do
    op (SubTasks.update { task with status := .running })
    op saveChanged
    internalRunJob id
  else do
    Prog.each (fun file => do
      updateTaskFileStatus file.id .downloading
      send (.download ⟨file.id, task.parentId, .start, some file⟩)) files
    op (SubTasks.update { task with status := .running })
    op saveChanged

def deleteSubTask (id : Uuid) : Op Unit := do
  let task ← op (SubTasks.getById id)
  Prog.when (task.jobId ≠ "") (op (call (fun _ _ => ()) [.deleteJob task.jobId]))
  op (SubTasks.deleteById id)
  op saveChanged

def transfer (task : SubTask) (status : TaskStatus) (command : FileTransferStatus) : Op Unit := do
  Prog.when (task.status ≠ .completed ∨ task.status ≠ .completing) do
    tryUpdate { task with status := status }
    let files ← op (TaskFiles.findFilesByTask task.id)
    Prog.each (fun file => Prog.when (file.fileType = .IN ∧ file.status ≠ .both)
      (send (.download ⟨file.id, 0, command, none⟩))) files
  op saveChanged

def pauseSubTask (id : Uuid) : Op Unit := do
  let task ← op (SubTasks.getById id)
  Prog.when (task.jobId ≠ "") (op (call (fun _ _ => ()) [.pauseJob task.jobId]))
  transfer task .suspended .pause

def continueSubTask (id : Uuid) : Op Unit := do
  let task ← op (SubTasks.getById id)
  Prog.when (task.jobId ≠ "") (op (call (fun _ _ => ()) [.continueJob task.jobId]))
  transfer task .queuing .continue

def statusOf : JobState → TaskStatus
  | .running | .suspended | .queuing | .completing => .running
  | .completed => .completing
  | .failed | .unknown => .failed

def exitReason (job : Job) : String :=
  "Job exit with " ++ toString job.exitStatusCode.toInt ++ "\nError Output:\n" ++ job.errorOutput

def refreshStatus (id : Uuid) : Op Unit := do
  let task ← op (SubTasks.getById id)
  let job ← op (call (fun env n => env.job n) [])
  let task := { task with resourceUsed := some job.resourceUsed, status := statusOf job.state }
  if task.status = .running then pure ()
  else if task.status = .failed then do
    op (SubTasks.update { task with failedReason := exitReason job })
    op saveChanged
    send (.subTaskReport id .failed)
  else do
    op (SubTasks.update task)
    op saveChanged
    let files ← op (TaskFiles.findFilesByTask id)
    let files := files.filter fun x => x.fileType = .OUT
    if files.length = 0 then internalCompleteJob id
    else do
      Prog.each (fun file => do
        send (.upload ⟨file.id, task.parentId, .start, some file⟩)
        op (TaskFiles.update { file with status := .uploading })) files
      op saveChanged

def refreshAllStatus : Op Unit := do
  let tasks ← op SubTasks.getAllRefreshableTask
  Prog.each (fun task => refreshStatus task.id) tasks

def runJob (id : Uuid) : Op Unit := do
  let file ← op (TaskFiles.getById id)
  updateTaskFileStatus id .both
  op saveChanged
  internalRunJob file.relatedTaskBody

def completeJob (id : Uuid) : Op Unit := do
  let file ← op (TaskFiles.getById id)
  updateTaskFileStatus id .both
  op saveChanged
  internalCompleteJob file.relatedTaskBody

def failJob (id : Uuid) (reason : String) : Op Unit := do
  let task ← op (SubTasks.getById id)
  op (SubTasks.update { task with status := .failed, failedReason := reason })
  op saveChanged
  send (.subTaskReport id .failed)

def service : SubTaskService where
  enqueueSubTask := enqueueSubTask
  deleteSubTask := deleteSubTask
  pauseSubTask := pauseSubTask
  continueSubTask := continueSubTask

end RunJob

namespace DeploySoftware

def deploy (subTask : SubTask) (status : TaskStatus) : Op Unit :=
  send (.deployment ⟨subTask.id, status⟩)

def enqueueSubTask (id : Uuid) : Op Unit := do
  let subTask ← op (SubTasks.getById id)
  deploy subTask .running
  op (SubTasks.update { subTask with status := .running })
  op saveChanged

def deleteSubTask (id : Uuid) : Op Unit := do
  let subTask ← op (SubTasks.getById id)
  deploy subTask .suspended
  op (SubTasks.deleteById id)
  op saveChanged

def pauseSubTask (id : Uuid) : Op Unit := do
  let subTask ← op (SubTasks.getById id)
  deploy subTask .suspended
  op (SubTasks.update { subTask with status := .suspended })
  op saveChanged

def continueSubTask (id : Uuid) : Op Unit := enqueueSubTask id

def completeSubTask (id : Uuid) : Op Unit := do
  let subTask ← op (SubTasks.getById id)
  op (SubTasks.update { subTask with status := .completed })
  op saveChanged
  send (.subTaskReport id .completed)

def failSubTask (id : Uuid) : Op Unit := do
  let subTask ← op (SubTasks.getById id)
  op (SubTasks.update { subTask with status := .failed })
  op saveChanged
  send (.subTaskReport id .failed)

def giveUp (subTask : SubTask) (reason : String) : Op Unit := do
  op (SubTasks.update { subTask with failedReason := reason })
  op saveChanged
  deploy subTask .failed

def installWith (deployer : DeployerType) (subTask : SubTask) (name : String)
    (parameters : List String) : Op Unit := do
  let deployers ← op (do let env ← .read; pure env.deployers)
  if deployer ∈ deployers then
    let found ← Prog.attempt (op (call (fun env n => env.installedHash n) []))
    match found with
    | .ok (some _) => deploy subTask .completing
    | _ => do
      let result ← Prog.attempt
        (op (call (fun env n => env.installed n) [.install name parameters]))
      match result with
      | .ok _ => deploy subTask .completing
      | .error e => giveUp subTask e
  else giveUp subTask "No such package manager."

def runSubTask (id : Uuid) : Op Unit := do
  let subTask ← op (SubTasks.getById id)
  match subTask.facilityKind with
  | .spack name argumentList => installWith .spack subTask name argumentList
  | .singularity image tag => installWith .apptainer subTask image [tag]
  | .unknown => giveUp subTask "No such package manager."

def service : SubTaskService where
  enqueueSubTask := enqueueSubTask
  deleteSubTask := deleteSubTask
  pauseSubTask := pauseSubTask
  continueSubTask := continueSubTask

end DeploySoftware

namespace Collection

def stripCr : List Char → List Char
  | '\r' :: cs => cs
  | cs => cs

-- `str::lines`, with the characters of the line that is being read in reverse.
def linesFrom (line : List Char) : List Char → List String
  | [] => if line = [] then [] else [.ofList line.reverse]
  | '\n' :: cs => .ofList (stripCr line).reverse :: linesFrom [] cs
  | c :: cs => linesFrom (c :: line) cs

def lines (text : String) : List String := linesFrom [] text.toList

def collect (regex : String → Option (String → List String)) (input : String) :
    Dto.CollectRule → Outcome String String
  | .regex exp =>
    match regex exp with
    | some captures => .ok ("\n".intercalate (captures input))
    | none => .err "regex parse error"
  | .bottomLines n =>
    if n.toNat ≤ (lines input).length then
      .ok ("\n".intercalate (((lines input).drop ((lines input).length - n.toNat)).take n.toNat))
    else .panic
  | .topLines n => .ok ("\n".intercalate ((lines input).take n.toNat))

def innerRunSubTask (subTask : SubTask) : Op Unit :=
  match subTask.taskType with
  | .collectedOut _ rule collectTo optional => do
    let input ← Prog.attempt (op (call (fun env n => env.text n) []))
    match input with
    | .ok input => do
      let regex ← op (do let env ← .read; pure env.regex)
      let output ← Prog.done (collect regex input rule)
      op (call (fun _ _ => ()) [.saveFile subTask.parentId output collectTo])
    | .error e =>
      if optional then pure ()
      else fail ("Unable to collect " ++ toString subTask.id ++ ", file not found. " ++ e)
  | _ => fail ("Unable to run " ++ toString subTask.id ++ ", mismatch task type.")

def enqueueSubTask (id : Uuid) : Op Unit := do
  let subTask ← op (SubTasks.getById id)
  let result ← Prog.attempt (innerRunSubTask subTask)
  match result with
  | .ok () => do
    op (SubTasks.update { subTask with status := .completed })
    op saveChanged
    send (.subTaskReport id .completed)
  | .error e => do
    op (SubTasks.update { subTask with
      status := .failed, failedReason := "Failed to collect value. Because of " ++ e })
    op saveChanged
    send (.subTaskReport id .failed)
    fail e

def service : SubTaskService where
  enqueueSubTask := enqueueSubTask
  deleteSubTask := fun _ => pure ()
  pauseSubTask := fun _ => pure ()
  continueSubTask := fun _ => pure ()

end Collection

def subTaskServices : TaskDisplayType → Option SubTaskService
  | .usecaseExecution => some RunJob.service
  | .softwareDeployment => some DeploySoftware.service
  | .collectedOut => some Collection.service
  | .unknown => none

end Kuintessence.Agent

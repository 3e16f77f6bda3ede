import Kuintessence.Agent.Dto
import Kuintessence.Lib.Prog
import Kuintessence.Lib.Rows

namespace Kuintessence.Agent

inductive TaskStatus where
  | queuing
  | running
  | suspended
  | completing
  | completed
  | failed
  | reported
  | unknown
  deriving DecidableEq, Repr

inductive FacilityKind where
  | spack (name : String) (argumentList : List String)
  | singularity (image tag : String)
  | unknown
  deriving DecidableEq, Repr

inductive DeployerType where
  | spack
  | apptainer
  | unknown
  deriving DecidableEq, Repr

inductive FileType where
  | IN
  | OUT
  deriving DecidableEq, Repr

inductive FileStatus where
  | remoteOnly
  | localOnly
  | both
  | downloading
  | uploading
  | waittingCreate
  | notExist
  | unknown
  deriving DecidableEq, Repr

structure FileInfo where
  id : Uuid
  metadataId : Uuid
  path : String
  isPackage : Bool
  optional : Bool := false
  fileType : FileType
  text : String := ""
  isGenerated : Bool := false
  deriving DecidableEq, Repr

structure File where
  id : Uuid
  metadataId : Uuid
  fileName : String
  relatedTaskBody : Uuid
  fileType : FileType
  status : FileStatus
  isOptional : Bool
  isPackaged : Bool
  text : String
  isGenerated : Bool
  deriving DecidableEq, Repr

inductive TaskType where
  | softwareDeployment (status : Dto.SoftwareDeploymentCommand)
  | usecaseExecution (name : String) (arguments : List String)
      (environments : List (String × String)) (stdIn : Dto.StdInKind) (files : List FileInfo)
  | collectedOut (collectFrom : Dto.CollectFrom) (rule : Dto.CollectRule)
      (collectTo : Dto.CollectTo) (optional : Bool)
  | unknown
  deriving DecidableEq, Repr

inductive TaskDisplayType where
  | softwareDeployment
  | usecaseExecution
  | collectedOut
  | unknown
  deriving DecidableEq, Repr

def TaskDisplayType.from : TaskType → TaskDisplayType
  | .softwareDeployment .. => .softwareDeployment
  | .usecaseExecution .. => .usecaseExecution
  | .collectedOut .. => .collectedOut
  | .unknown => .unknown

structure SubTask where
  id : Uuid
  parentId : Uuid
  status : TaskStatus := .unknown
  facilityKind : FacilityKind := .unknown
  taskType : TaskType := .unknown
  jobId : String := ""
  failedReason : String := ""
  resourceUsed : Option Dto.TaskUsedResource := none
  requirements : Option Dto.Requirements := none
  deriving DecidableEq, Repr

structure Task where
  id : Uuid
  status : TaskStatus := .unknown
  body : List SubTask
  updateTime : Int
  deriving DecidableEq, Repr

inductive JobState where
  | queuing
  | running
  | suspended
  | completing
  | completed
  | failed
  | unknown
  deriving DecidableEq, Repr

structure Job where
  state : JobState
  exitStatusCode : Int32
  errorOutput : String
  resourceUsed : Dto.TaskUsedResource
  deriving DecidableEq, Repr

structure ScriptInfo where
  id : Uuid
  isMpiBeforeLoader : Bool
  parentId : Uuid
  name : String
  loadSoftware : String
  path : String
  arguments : List String
  environments : List (String × String)
  stdIn : Dto.StdInKind
  requirements : Option Dto.Requirements
  deriving DecidableEq, Repr

inductive FileTransferStatus where
  | start
  | stop
  | pause
  | continue
  | unknown
  deriving DecidableEq, Repr

structure FileTransferCommand where
  id : Uuid
  parentId : Uuid
  status : FileTransferStatus
  taskFile : Option File
  deriving DecidableEq, Repr

structure SoftwareDeploymentCommand where
  id : Uuid
  taskStatus : TaskStatus
  deriving DecidableEq, Repr

inductive SubTaskStatus where
  | completed
  | failed
  deriving DecidableEq, Repr

inductive Event where
  | submitted (task : Uuid) (body : List Uuid)
  | started (subTask : Uuid) (rows : List SubTask)
  | dispatched (subTask : Uuid)
  | finished (subTask : Uuid)
  | failed (subTask : Uuid)
  | paused (subTasks : List Uuid)
  | removed (subTask : Uuid)
  | reported (result : Dto.TaskResultStatus) (task : Uuid) (message : String)
      (usedResources : Option Dto.TaskUsedResource)
  | subTaskReport (subTask : Uuid) (status : SubTaskStatus)
  | download (command : FileTransferCommand)
  | upload (command : FileTransferCommand)
  | deployment (command : SoftwareDeploymentCommand)
  | install (name : String) (parameters : List String)
  | submitJob (info : ScriptInfo)
  | pauseJob (job : String)
  | continueJob (job : String)
  | deleteJob (job : String)
  | saveFile (task : Uuid) (output : String) (collectTo : Dto.CollectTo)
  deriving DecidableEq, Repr

structure State where
  tasks : List Task
  subTasks : List SubTask
  taskFiles : List File
  maxTasksCount : Nat
  tasksCount : Nat
  nextId : Uuid
  calls : Nat
  trace : List Event
  deriving DecidableEq, Repr

-- What the outside answers to the n-th call; `fails n` is the error when that call fails.
structure Env where
  fails : Nat → Option String
  jobId : Nat → String
  job : Nat → Job
  installedHash : Nat → Option String
  installed : Nat → String
  text : Nat → String
  loadScript : DeployerType → String → String
  deployers : List DeployerType
  regex : String → Option (String → List String)
  now : Int

abbrev Act := Effect Env State String

def call {α : Type} (answer : Env → Nat → α) (events : List Event) : Act α := fun env s =>
  match env.fails s.calls with
  | some e => (.err e, { s with calls := s.calls + 1 })
  | none => (.ok (answer env s.calls),
      { s with calls := s.calls + 1, trace := s.trace ++ events })

def note (event : Event) : Act Unit := .modify fun s => { s with trace := s.trace ++ [event] }

def saveChanged : Act Unit := call (fun _ _ => ()) []

namespace Tasks

def getById (id : Uuid) : Act Task := do
  let s ← .get
  let task ← .lift (.okOr "No such task id." (Rows.find Task.id id s.tasks))
  pure { task with body := s.subTasks.filter fun x => x.parentId = id }

def getAll : Act (List Task) := do
  let s ← .get
  pure s.tasks

def update (task : Task) : Act Unit := do
  let env ← .read
  let s ← .get
  let tasks ← .lift (.okOr "No Such id" (Rows.replace Task.id { task with updateTime := env.now } s.tasks))
  .modify fun s => { s with tasks := tasks }

def deleteById (id : Uuid) : Act Unit := do
  let s ← .get
  let tasks ← .lift (.okOr "No Such id" (Rows.remove Task.id id s.tasks))
  .modify fun s => { s with tasks := tasks }

def getNextQueuingId : Act (Option Uuid) := do
  let s ← .get
  pure ((s.tasks.find? fun x => x.status = .queuing).map Task.id)

end Tasks

namespace SubTasks

def getById (id : Uuid) : Act SubTask := do
  let s ← .get
  .lift (.okOr "No such task id." (Rows.find SubTask.id id s.subTasks))

def update (subTask : SubTask) : Act Unit := do
  let s ← .get
  let subTasks ← .lift (.okOr "No Such id" (Rows.replace SubTask.id subTask s.subTasks))
  .modify fun s => { s with subTasks := subTasks }

def deleteById (id : Uuid) : Act Unit := do
  let s ← .get
  let subTasks ← .lift (.okOr "No Such id" (Rows.remove SubTask.id id s.subTasks))
  .modify fun s => { s with subTasks := subTasks }

def getAllRefreshableTask : Act (List SubTask) := do
  let s ← .get
  pure (s.subTasks.filter fun x => x.jobId ≠ "" ∧ x.status = .running)

def fileOf (subTask : Uuid) (file : FileInfo) : File where
  id := file.id
  metadataId := file.metadataId
  fileName := file.path
  relatedTaskBody := subTask
  fileType := file.fileType
  status :=
    match file.fileType with
    | .IN => .remoteOnly
    | .OUT => .waittingCreate
  isOptional := file.optional
  isPackaged := file.isPackage
  text := file.text
  isGenerated := file.isGenerated

def files (subTask : SubTask) : List File :=
  match subTask.taskType with
  | .usecaseExecution _ _ _ _ files => files.map (fileOf subTask.id)
  | _ => []

def insert (s : State) (subTask : SubTask) : State :=
  { s with
    taskFiles := (files subTask).foldl (fun rows file => Rows.put File.id file rows) s.taskFiles
    subTasks := Rows.put SubTask.id subTask s.subTasks }

end SubTasks

namespace Tasks

def insert (task : Task) : Act Unit := .modify fun s =>
  let s := task.body.foldl SubTasks.insert s
  { s with tasks := Rows.put Task.id task s.tasks }

end Tasks

namespace TaskFiles

def getById (id : Uuid) : Act File := do
  let s ← .get
  .lift (.okOr "No Such job id." (Rows.find File.id id s.taskFiles))

def update (file : File) : Act Unit := do
  let s ← .get
  let taskFiles ← .lift (.okOr "No Such id" (Rows.replace File.id file s.taskFiles))
  .modify fun s => { s with taskFiles := taskFiles }

def findFilesByTask (id : Uuid) : Act (List File) := do
  let s ← .get
  pure (s.taskFiles.filter fun x => x.relatedTaskBody = id)

end TaskFiles

end Kuintessence.Agent

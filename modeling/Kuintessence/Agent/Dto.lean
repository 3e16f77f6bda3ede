import Kuintessence.Model.Common
import Mathlib.Data.List.Basic

namespace Kuintessence.Agent.Dto

inductive TaskCommand where
  | start
  | pause
  | continue
  | delete
  deriving DecidableEq, Repr

inductive SoftwareDeploymentCommand where
  | install
  | uninstall
  deriving DecidableEq, Repr

inductive FacilityKind where
  | spack (name : String) (argumentList : List String)
  | singularity (image tag : String)
  deriving DecidableEq, Repr

structure Requirements where
  cpuCores : Option UInt64 := none
  nodeCount : Option Int64 := none
  maxWallTime : Option UInt64 := none
  maxCpuTime : Option UInt64 := none
  stopTime : Option UInt64 := none
  deriving DecidableEq, Repr

inductive StdInKind where
  | text (text : String)
  | file (path : String)
  | none
  deriving DecidableEq, Repr

inductive InFileForm where
  | id (id : Uuid)
  | content (text : String)
  deriving DecidableEq, Repr

inductive FileInfo where
  | input (path : String) (isPackage : Bool) (form : InFileForm)
  | output (id : Uuid) (path : String) (isPackage optional : Bool)
  deriving DecidableEq, Repr

inductive CollectFrom where
  | fileOut (path : String)
  | stdout
  | stderr
  deriving DecidableEq, Repr

inductive CollectTo where
  | file (id : Uuid) (path : String)
  | text (id : Uuid)
  deriving DecidableEq, Repr

inductive CollectRule where
  | regex (exp : String)
  | bottomLines (n : UInt64)
  | topLines (n : UInt64)
  deriving DecidableEq, Repr

inductive TaskBody where
  | softwareDeployment (facilityKind : FacilityKind) (command : SoftwareDeploymentCommand)
  | usecaseExecution (name : String) (facilityKind : FacilityKind) (arguments : List String)
      (environments : List (String × String)) (stdIn : StdInKind) (files : List FileInfo)
      (requirements : Option Requirements)
  | collectedOut (collectFrom : CollectFrom) (rule : CollectRule) (collectTo : CollectTo)
      (optional : Bool)
  deriving DecidableEq, Repr

structure Task where
  id : Uuid
  body : List TaskBody
  command : TaskCommand
  deriving DecidableEq, Repr

inductive TaskResultStatus where
  | success
  | failed
  | paused
  | continued
  | deleted
  | start
  deriving DecidableEq, Repr

structure TaskUsedResource where
  cpu : UInt64
  avgMemory : UInt64
  maxMemory : UInt64
  storage : UInt64
  wallTime : UInt64
  cpuTime : UInt64
  node : UInt64
  startTime : Int64
  endTime : Int64
  deriving DecidableEq, Repr

structure TaskResult where
  id : String
  status : TaskResultStatus
  message : String
  usedResources : Option TaskUsedResource
  deriving DecidableEq, Repr

inductive PreparePartialUploadResponseResult where
  | normal
  | unfinished
  | flashUpload
  deriving DecidableEq, Repr

structure PreparePartialUploadResponse where
  result : PreparePartialUploadResponseResult
  id : Uuid
  deriving DecidableEq, Repr

end Kuintessence.Agent.Dto

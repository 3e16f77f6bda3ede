import Kuintessence.Lib.HashMap
import Kuintessence.Model.WorkflowInstance

namespace Kuintessence

namespace Package

def placeholder : String := "\x7b\x7b\x7d\x7d"

inductive FileKind where
  | normal (path : String)
  | batched (path : String)
  deriving DecidableEq, Repr

def FileKind.path : FileKind → String
  | .normal path => path
  | .batched path => path

def FileKind.isBatch : FileKind → Bool
  | .normal _ => false
  | .batched _ => true

structure Argument where
  descriptor : String
  valueFormat : String := placeholder
  deriving DecidableEq, Repr

structure Environment where
  descriptor : String
  key : String
  valueFormat : String := placeholder
  deriving DecidableEq, Repr

structure FilesomeInput where
  descriptor : String
  fileKind : FileKind
  deriving DecidableEq, Repr

structure FilesomeOutput where
  descriptor : String
  fileKind : FileKind
  deriving DecidableEq, Repr

inductive TextRef where
  | argRef (descriptor : String) (placeholderNth sort : Nat)
  | envRef (descriptor : String) (placeholderNth : Nat)
  | stdIn
  | templateRef (descriptor : String) (refKeys : List String)
  deriving DecidableEq, Repr

inductive FileRef where
  | argRef (descriptor : String) (placeholderNth sort : Nat)
  | envRef (descriptor : String) (placeholderNth : Nat)
  | stdIn
  | fileInputRef (descriptor : String)
  | templateRef (descriptor : String) (refKeys : List String)
  deriving DecidableEq, Repr

-- A text is mounted as a file is, but for the arms of `StdIn` and `FileInputRef`.
def TextRef.toFileRef : TextRef → FileRef
  | .argRef descriptor placeholderNth sort => .argRef descriptor placeholderNth sort
  | .envRef descriptor placeholderNth => .envRef descriptor placeholderNth
  | .stdIn => .stdIn
  | .templateRef descriptor refKeys => .templateRef descriptor refKeys

inductive InputSlot where
  | text (descriptor : String) (refMaterials : List TextRef)
  | file (descriptor : String) (refMaterials : List FileRef)
  deriving DecidableEq, Repr

namespace InputSlot

def descriptor : InputSlot → String
  | .text descriptor _ => descriptor
  | .file descriptor _ => descriptor

def refs : InputSlot → List FileRef
  | .text _ refMaterials => refMaterials.map TextRef.toFileRef
  | .file _ refMaterials => refMaterials

end InputSlot

inductive AppointedBy where
  | material
  | inputSlot (textInputDescriptor : String)
  deriving DecidableEq, Repr

structure FileOutAndAppointedBy where
  fileOutMaterialDescriptor : String
  kind : AppointedBy := .material
  deriving DecidableEq, Repr

inductive FileOutOrigin where
  | collectedOut (descriptor : String)
  | usecaseOut (fileOut : FileOutAndAppointedBy)
  deriving DecidableEq, Repr

inductive OutputSlot where
  | text (descriptor collectedOutDescriptor : String) (optional : Bool)
  | file (descriptor : String) (origin : FileOutOrigin) (optional : Bool)
  deriving DecidableEq, Repr

inductive RepoCollectFrom where
  | fileOut (descriptor : String)
  | stdout
  | stderr
  deriving DecidableEq, Repr

inductive OutFile where
  | normal (path : String)
  | batched (path : String)
  deriving DecidableEq, Repr

def OutFile.getPath : OutFile → String
  | .normal path => path
  | .batched path => path

inductive RepoCollectTo where
  | file (outFile : OutFile)
  | text
  deriving DecidableEq, Repr

inductive RepoCollectRule where
  | regex (regex : String)
  | bottomLines (count : Nat)
  | topLines (count : Nat)
  deriving DecidableEq, Repr

structure CollectedOut where
  descriptor : String
  collectFrom : RepoCollectFrom
  collectTo : RepoCollectTo
  collecting : RepoCollectRule
  deriving DecidableEq, Repr

structure TemplateFile where
  descriptor : String
  asContent : List TextRef := []
  asFileName : List FileRef := []
  deriving DecidableEq, Repr

def TemplateFile.refs (t : TemplateFile) : List FileRef :=
  t.asContent.map TextRef.toFileRef ++ t.asFileName

-- Whether the file of the template is put beside those of the input materials.
def TemplateFile.writesFile (t : TemplateFile) : Bool :=
  match t.asFileName with
  | [] => false
  | [.fileInputRef _] => false
  | _ => true

structure TemplateFileInfo where
  descriptor : String
  content : String
  fileName : String
  deriving DecidableEq, Repr

structure Requirements where
  cpuCores : Option Nat
  nodeCount : Option Int
  maxWallTime : Option Nat
  maxCpuTime : Option Nat
  stopTime : Option Nat
  deriving DecidableEq, Repr

structure UsecaseSpec where
  commandFile : String
  inputSlots : List InputSlot
  templateFiles : List TemplateFile := []
  outputSlots : List OutputSlot
  flagArguments : HashMap String Nat := .empty
  flagEnvironments : List String := []
  requirements : Option Requirements := none
  deriving DecidableEq

inductive SoftwareSpec where
  | spack (name : String) (argumentList : List String)
  | singularity (image tag : String)
  deriving DecidableEq, Repr

inductive FacilityKind where
  | spack (name : String) (argumentList : List String)
  | singularity (image tag : String)
  deriving DecidableEq, Repr

def FacilityKind.from : SoftwareSpec → FacilityKind
  | .spack name argumentList => .spack name argumentList
  | .singularity image tag => .singularity image tag

structure SoftwareData where
  spec : SoftwareSpec
  arguments : List Argument
  environments : List Environment
  filesomeInputs : List FilesomeInput
  filesomeOutputs : List FilesomeOutput
  deriving DecidableEq, Repr

structure UsecaseData where
  spec : UsecaseSpec
  collectedOuts : List CollectedOut
  templateFileInfos : List TemplateFileInfo
  deriving DecidableEq

structure FormatFill (V : Type) where
  format : String
  placeholderFillMap : HashMap Nat V := .empty
  deriving DecidableEq

def FormatFill.fill {V : Type} (nth : Nat) (value : V) (f : FormatFill V) : FormatFill V :=
  { f with placeholderFillMap := f.placeholderFillMap.insert nth value }

namespace SoftwareData

def argument (s : SoftwareData) (descriptor : String) : Option Argument :=
  s.arguments.find? fun el => el.descriptor == descriptor

def environment (s : SoftwareData) (descriptor : String) : Option Environment :=
  s.environments.find? fun el => el.descriptor == descriptor

def filesomeInput (s : SoftwareData) (descriptor : String) : Option FilesomeInput :=
  s.filesomeInputs.find? fun el => el.descriptor == descriptor

def filesomeOutput (s : SoftwareData) (descriptor : String) : Option FilesomeOutput :=
  s.filesomeOutputs.find? fun el => el.descriptor == descriptor

end SoftwareData

namespace UsecaseData

def collectedOut (u : UsecaseData) (descriptor : String) : Option CollectedOut :=
  u.collectedOuts.find? fun el => el.descriptor == descriptor

def templateFile (u : UsecaseData) (descriptor : String) : Option TemplateFile :=
  u.spec.templateFiles.find? fun el => el.descriptor == descriptor

def templateFileInfo (u : UsecaseData) (descriptor : String) : Option TemplateFileInfo :=
  u.templateFileInfos.find? fun el => el.descriptor == descriptor

end UsecaseData

end Package

end Kuintessence

import Kuintessence.Model.Repository
import Kuintessence.Package.Filling
import Kuintessence.Package.Mounting

namespace Kuintessence

namespace Package

inductive StdInKind where
  | text (text : String)
  | file (path : String)
  | none
  deriving DecidableEq, Repr

inductive InFileForm where
  | id (id : Uuid)
  | content (content : String)
  deriving DecidableEq, Repr

inductive FileInfo where
  | input (path : String) (isPackage : Bool) (form : InFileForm)
  | output (id : Uuid) (path : String) (isPackage optional : Bool)
  deriving DecidableEq, Repr

inductive CollectFrom where
  | fileOut (path : String)
  | stdout
  | stderr
  deriving DecidableEq, Repr

inductive CollectTo where
  | file (path : String) (id : Uuid)
  | text (id : Uuid)
  deriving DecidableEq, Repr

inductive CollectRule where
  | regex (regex : String)
  | bottomLines (count : Nat)
  | topLines (count : Nat)
  deriving DecidableEq, Repr

structure UsecaseExecution where
  name : String
  facilityKind : FacilityKind
  arguments : List String
  environments : HashMap String String
  stdIn : StdInKind
  files : List FileInfo
  requirements : Option Requirements
  deriving DecidableEq

inductive TaskBody where
  | softwareDeployment (facilityKind : FacilityKind)
  | usecaseExecution (execution : UsecaseExecution)
  | collectedOut (collectFrom : CollectFrom) (rule : CollectRule) (collectTo : CollectTo)
      (optional : Bool)
  deriving DecidableEq

structure Task where
  id : Uuid
  body : List TaskBody
  command : TaskCommand
  deriving DecidableEq

structure SoftwareComputingUsecase where
  softwareData : SoftwareData
  usecaseData : UsecaseData
  deriving DecidableEq

structure SoftwareBlockList where
  name : String
  version : String
  deriving DecidableEq, Repr

-- `installArgument` is what `from_value` reads in the column.
structure InstalledSoftware where
  softwareName : String
  installArgument : Anyhow (List String)
  deriving DecidableEq, Repr

-- What the services beside the parser answer; `render` is the template engine.
structure Services where
  getComputingUsecase : Uuid → Uuid → Anyhow SoftwareComputingUsecase
  getTextById : Uuid → Anyhow String
  render : String → HashMap String (Option String) → Anyhow String
  softwareBlockList : Anyhow (List SoftwareBlockList)
  installedSoftware : Anyhow (List InstalledSoftware)

-- The orders in which the hash maps are iterated.
structure ParseOrders where
  flagArguments : Order (String × Nat)
  templates : Order (String × HashMap String (Option String))
  arguments : Order (Nat × FormatFill (Option String))
  environments : Order (String × FormatFill (Option String))
  fills : Order (Nat × Option String)

def ParseOrders.asGiven : ParseOrders := ⟨.asIs _, .asIs _, .asIs _, .asIs _, .asIs _⟩

structure InContent where
  literal : String
  infiles : List FileInfo
  deriving DecidableEq, Repr

def isEmptyInput (slot : NodeInputSlot) : Anyhow Bool :=
  match slot.kind with
  | .text contents => .ok contents.isNone
  | .file contents _ _ => .ok contents.isNone
  | .unknown => .panic

def isSoftwareVersionBlocked (services : Services) (softwareName version : String) :
    Anyhow Bool := do
  let rows ← services.softwareBlockList
  .ok (decide (0 < (rows.filter fun row =>
    row.name == softwareName && row.version == version).length))

def checkRequired (repoInstallArguments : List String) (r : Bool) : List String → Bool
  | [] => r
  | required :: rest =>
    if !repoInstallArguments.contains required then false
    else checkRequired repoInstallArguments r rest

def checkInstalled (requiredInstallArguments : List String) :
    Bool → List InstalledSoftware → Anyhow Bool
  | r, [] => .ok r
  | r, installed :: rest => do
    let repoInstallArguments ← installed.installArgument
    checkInstalled requiredInstallArguments
      (checkRequired repoInstallArguments r requiredInstallArguments) rest

def isSoftwareSatisfied (services : Services) (softwareName : String)
    (requiredInstallArguments : List String) : Anyhow Bool := do
  let rows ← services.installedSoftware
  checkInstalled requiredInstallArguments true
    (rows.filter fun row => row.softwareName == softwareName)

namespace ParseTask

abbrev Draft := Gathered (Option String) StdInKind FileInfo

def fileInfo (expectedFileName : Option String) (isBatch : Bool) (content : FileInput) : FileInfo :=
  .input (expectedFileName.getD content.fileMetadataName) isBatch (.id content.fileMetadataId)

def contentOf (services : Services) : NodeInputSlotKind → Anyhow InContent
  | .text contents => do
    let contents ← .unwrap contents
    let texts ← Outcome.mapEach services.getTextById contents.toList
    .ok ⟨" ".intercalate texts, []⟩
  | .file contents expectedFileName isBatch => do
    let contents ← .unwrap contents
    let infiles := contents.toList.map (fileInfo expectedFileName isBatch)
    let fileNames := contents.toList.map fun content =>
      expectedFileName.getD content.fileMetadataName
    .ok ⟨" ".intercalate fileNames, infiles⟩
  | .unknown => .panic

def getContent (services : Services) (nodeSpec : NodeSpec) (descriptor : String) :
    Anyhow (Option InContent) := do
  let slot ← nodeSpec.inputSlot descriptor
  let empty ← isEmptyInput slot
  if empty && slot.optional then .ok none
  else do
    let content ← contentOf services slot.kind
    .ok (some content)

def argumentFormat (s : SoftwareData) (descriptor : String) :
    Anyhow (FormatFill (Option String)) := do
  let el ← .unwrap (s.argument descriptor)
  .ok { format := el.valueFormat }

def environmentKvFormat (s : SoftwareData) (descriptor : String) :
    Anyhow (String × FormatFill (Option String)) := do
  let el ← .unwrap (s.environment descriptor)
  .ok (el.key, { format := el.valueFormat })

def flagArgument (s : SoftwareData) (g : Draft) (flag : String × Nat) : Anyhow Draft := do
  let format ← argumentFormat s flag.1
  .ok { g with argumentFormatsSorts := g.argumentFormatsSorts.entry flag.2 format id }

def flagEnvironment (s : SoftwareData) (g : Draft) (descriptor : String) : Anyhow Draft := do
  let kv ← environmentKvFormat s descriptor
  .ok { g with environmentFormats := g.environmentFormats.entry kv.1 kv.2 id }

def slotStdIn (inContent : Option InContent) : InputSlot → Anyhow StdInKind
  | .text _ _ => do
    let content ← .unwrap inContent
    .ok (.text content.literal)
  | .file _ _ => .ok (match inContent with
    | some content => .file content.literal
    | none => .none)

def slotMounting (s : SoftwareData) (inContent : Option InContent) (slot : InputSlot) :
    Mounting (Option String) StdInKind FileInfo where
  argumentFormat := argumentFormat s
  environmentKvFormat := environmentKvFormat s
  value := inContent.map InContent.literal
  stdIn := slotStdIn inContent slot
  fileInput _ := .ok []
  template := .ok ()

def infilesOf (inContent : Option InContent) : List FileInfo :=
  (inContent.map InContent.infiles).getD []

def parseInputSlot (services : Services) (nodeSpec : NodeSpec) (s : SoftwareData) (g : Draft)
    (slot : InputSlot) : Anyhow Draft := do
  let inContent ← getContent services nodeSpec slot.descriptor
  mountEach (slotMounting s inContent slot)
    { g with files := g.files ++ infilesOf inContent } slot.refs

def templateInput (filledResult : String) (el : FilesomeInput) : FileInfo :=
  .input el.fileKind.path el.fileKind.isBatch (.content filledResult)

-- `value` and `stdIn` are given by the content or by the name of the filled template.
def templateMounting (s : SoftwareData) (filledResult value : String) (stdIn : StdInKind) :
    Mounting (Option String) StdInKind FileInfo where
  argumentFormat := argumentFormat s
  environmentKvFormat := environmentKvFormat s
  value := some value
  stdIn := .ok stdIn
  fileInput descriptor := do
    let el ← .unwrap (s.filesomeInput descriptor)
    .ok [templateInput filledResult el]
  template := .panic

def mountTemplate (s : SoftwareData) (t : TemplateFile) (fileName filledResult : String)
    (g : Draft) : Anyhow Draft := do
  let g ← mountEach (templateMounting s filledResult filledResult (.text filledResult)) g
    (t.asContent.map TextRef.toFileRef)
  let g := if t.writesFile then
    { g with files := g.files ++ [.input fileName false (.content filledResult)] } else g
  mountEach (templateMounting s filledResult fileName (.file fileName)) g t.asFileName

def parseTemplate (services : Services) (u : SoftwareComputingUsecase) (g : Draft)
    (template : String × HashMap String (Option String)) : Anyhow Draft := do
  let usingTemplateFile ← .unwrap (u.usecaseData.templateFile template.1)
  let info ← .unwrap (u.usecaseData.templateFileInfo template.1)
  let filledResult ← services.render info.content template.2
  mountTemplate u.softwareData usingTemplateFile info.fileName filledResult g

def gather (orders : ParseOrders) (services : Services) (u : SoftwareComputingUsecase)
    (nodeSpec : NodeSpec) : Anyhow Draft := do
  let spec := u.usecaseData.spec
  let g ← Outcome.foldEach (flagArgument u.softwareData) { stdIn := .none }
    (spec.flagArguments.iter orders.flagArguments)
  let g ← Outcome.foldEach (flagEnvironment u.softwareData) g spec.flagEnvironments
  let g ← Outcome.foldEach (parseInputSlot services nodeSpec u.softwareData) g spec.inputSlots
  Outcome.foldEach (parseTemplate services u) g (g.templatesKv.iter orders.templates)

def appointedPath (services : Services) (nodeSpec : NodeSpec) :
    AppointedBy → Anyhow (Option String)
  | .material => .ok none
  | .inputSlot textInputDescriptor => do
    let slot ← nodeSpec.inputSlot textInputDescriptor
    match slot.kind with
    | .text contents => do
      let contents ← .unwrap contents
      let key ← .unwrap contents.toList[0]?
      let value ← services.getTextById key
      .ok (some value)
    | _ => .panic

-- The material and the path that stands in the place of its own.
def usecaseOut (services : Services) (nodeSpec : NodeSpec) (s : SoftwareData)
    (fileOut : FileOutAndAppointedBy) : Anyhow (FilesomeOutput × String) := do
  let el ← .unwrap (s.filesomeOutput fileOut.fileOutMaterialDescriptor)
  let outPathAlter ← appointedPath services nodeSpec fileOut.kind
  .ok (el, outPathAlter.getD el.fileKind.path)

def collectPath (services : Services) (nodeSpec : NodeSpec) (s : SoftwareData)
    (fileoutDescriptor : String) : List OutputSlot → Anyhow String
  | [] => .ok ""
  | .text _ _ _ :: slots => collectPath services nodeSpec s fileoutDescriptor slots
  | .file descriptor origin _ :: slots =>
    if descriptor == fileoutDescriptor then
      match origin with
      | .collectedOut _ => .panic
      | .usecaseOut fileOut => do
        let out ← usecaseOut services nodeSpec s fileOut
        .ok out.2
    else collectPath services nodeSpec s fileoutDescriptor slots

def collectFrom (services : Services) (nodeSpec : NodeSpec) (u : SoftwareComputingUsecase) :
    RepoCollectFrom → Anyhow CollectFrom
  | .fileOut fileoutDescriptor => do
    let path ← collectPath services nodeSpec u.softwareData fileoutDescriptor
      u.usecaseData.spec.outputSlots
    .ok (.fileOut path)
  | .stdout => .ok .stdout
  | .stderr => .ok .stderr

def collectText (nodeSpec : NodeSpec) (descriptor : String) : RepoCollectTo → Anyhow CollectTo
  | .text => do
    let slot ← nodeSpec.outputSlot descriptor
    let ids ← slot.allTasksTextOutputs
    let id ← .unwrap ids[0]?
    .ok (.text id)
  | .file _ => .panic

def collectFile (nodeSpec : NodeSpec) (descriptor : String) : RepoCollectTo → Anyhow CollectTo
  | .file outFile => do
    let slot ← nodeSpec.outputSlot descriptor
    let ids ← slot.allTasksFileOutputs
    let id ← .unwrap ids[0]?
    .ok (.file outFile.getPath id)
  | .text => .panic

def collectRule : RepoCollectRule → CollectRule
  | .regex regex => .regex regex
  | .bottomLines lineCount => .bottomLines lineCount
  | .topLines lineCount => .topLines lineCount

structure Outputs where
  files : List FileInfo
  body : List TaskBody := []
  deriving DecidableEq

def collect (services : Services) (nodeSpec : NodeSpec) (u : SoftwareComputingUsecase)
    (collectTo : RepoCollectTo → Anyhow CollectTo) (collectedOutDescriptor : String)
    (optional : Bool) (out : Outputs) : Anyhow Outputs := do
  let collectedOut ← .unwrap (u.usecaseData.collectedOut collectedOutDescriptor)
  let source ← collectFrom services nodeSpec u collectedOut.collectFrom
  let target ← collectTo collectedOut.collectTo
  let body := .collectedOut source (collectRule collectedOut.collecting) target optional
  .ok { out with body := out.body ++ [body] }

def pushOutput (services : Services) (nodeSpec : NodeSpec) (u : SoftwareComputingUsecase)
    (slot : NodeSpecOutputSlot) (fileOut : FileOutAndAppointedBy) (optional : Bool)
    (out : Outputs) : Anyhow Outputs := do
  let material ← usecaseOut services nodeSpec u.softwareData fileOut
  let ids ← slot.allTasksFileOutputs
  let id ← .unwrap ids[0]?
  let file := .output id material.2 material.1.fileKind.isBatch optional
  .ok { out with files := out.files ++ [file] }

def parseOutputSlot (services : Services) (nodeSpec : NodeSpec) (u : SoftwareComputingUsecase)
    (out : Outputs) : OutputSlot → Anyhow Outputs
  | .text descriptor collectedOutDescriptor optional =>
    collect services nodeSpec u (collectText nodeSpec descriptor) collectedOutDescriptor optional
      out
  | .file descriptor (.collectedOut collectorDescriptor) optional => do
    let _ ← nodeSpec.outputSlot descriptor
    collect services nodeSpec u (collectFile nodeSpec descriptor) collectorDescriptor optional out
  | .file descriptor (.usecaseOut fileOut) optional => do
    let slot ← nodeSpec.outputSlot descriptor
    pushOutput services nodeSpec u slot fileOut optional out

def arguments (orders : ParseOrders) (g : Draft) : List String :=
  (HashMap.sortByKey (g.argumentFormatsSorts.iter orders.arguments)).map fun e =>
    e.2.filled orders.fills

def environments (orders : ParseOrders) (g : Draft) : HashMap String String :=
  .ofList ((g.environmentFormats.iter orders.environments).map fun e =>
    (e.1, e.2.filled orders.fills))

-- The use case's own requirements come back unchanged from their trip through JSON.
def execution (orders : ParseOrders) (u : SoftwareComputingUsecase)
    (overrideRequirements : Option Requirements) (g : Draft) (files : List FileInfo) :
    UsecaseExecution where
  name := u.usecaseData.spec.commandFile
  facilityKind := .from u.softwareData.spec
  arguments := arguments orders g
  environments := environments orders g
  stdIn := g.stdIn
  files := files
  requirements := overrideRequirements.or u.usecaseData.spec.requirements

-- The software name, its version and the install arguments.
def deployment : SoftwareSpec → String × String × List String
  | .spack name argumentList =>
    (name, replace (argumentList[0]?.getD "") "@" "", argumentList)
  | .singularity _ _ => ("", "", [])

def deploys (services : Services) (spec : SoftwareSpec) : Anyhow Bool := do
  let blocked ← isSoftwareVersionBlocked services (deployment spec).1 (deployment spec).2.1
  if !blocked then isSoftwareSatisfied services (deployment spec).1 (deployment spec).2.2
  else .ok false

def parseUsecase (orders : ParseOrders) (services : Services) (u : SoftwareComputingUsecase)
    (nodeSpec : NodeSpec) (overrideRequirements : Option Requirements) : Anyhow Task := do
  let g ← gather orders services u nodeSpec
  let out ← Outcome.foldEach (parseOutputSlot services nodeSpec u) { files := g.files }
    u.usecaseData.spec.outputSlots
  let body := .usecaseExecution (execution orders u overrideRequirements g out.files) :: out.body
  let deploys ← deploys services u.softwareData.spec
  let body := if deploys then .softwareDeployment (.from u.softwareData.spec) :: body else body
  .ok { id := nodeSpec.id, body := body, command := .start }

end ParseTask

-- The override is the `requirements` field of the node.
def parseTask (orders : ParseOrders) (services : Services) (nodeSpec : NodeSpec)
    (overrideRequirements : Option Requirements) : Anyhow Task :=
  match nodeSpec.kind with
  | .softwareUsecaseComputing usecaseVersionId softwareVersionId => do
    let u ← services.getComputingUsecase softwareVersionId usecaseVersionId
    ParseTask.parseUsecase orders services u nodeSpec overrideRequirements
  | _ => bail "Unreachable node kind!"

end Package

end Kuintessence

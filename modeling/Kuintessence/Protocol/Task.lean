import Kuintessence.Agent.Dto
import Kuintessence.Lib.Hex
import Kuintessence.Lib.Json
import Kuintessence.Model.Repository

namespace Kuintessence.Protocol

open Agent.Dto (FacilityKind StdInKind InFileForm FileInfo CollectFrom CollectTo CollectRule Requirements)

-- The orchestrator's own message types. Those it declares again just as the agent does
-- (`FacilityKind`, `FileInfo`, `Requirements`, …) are shared; their JSON is written per side.
structure UuidText where
  text : Uuid → String
  parse : String → Option Uuid
  parse_text : ∀ id, parse (text id) = some id

def UuidText.hyphenated : UuidText where
  text id := .ofList (Hex.group [8, 4, 4, 4] (Hex.write 32 id))
  parse s := some (Hex.read (Hex.ungroup s.toList))
  parse_text id := by
    rw [String.toList_ofList, Hex.ungroup_group _ (Hex.write_plain 32 id), Hex.read_write]

abbrev HashMap (α : Type) := { entries : List (String × α) // (Assoc.keys entries).Nodup }

inductive ValidateRule where
  | regex (exp : String)
  | isEmpty (empty : Bool)
  deriving DecidableEq, Repr

inductive ValidatedOperation where
  | reportSuccess
  | reportFailure
  deriving DecidableEq, Repr

structure OutValidator where
  validateRules : ValidateRule
  passOperation : ValidatedOperation
  failureOperation : ValidatedOperation
  deriving DecidableEq, Repr

structure OutPathAndValidate where
  path : String
  validator : Option OutValidator
  deriving DecidableEq, Repr

inductive ScriptKind where
  | python
  deriving DecidableEq, Repr

inductive ScriptOriginKind where
  | git (url : String)
  | edit (content : String)
  deriving DecidableEq, Repr

structure ScriptInfo where
  kind : ScriptKind
  inputPath : HashMap String
  outputPath : HashMap OutPathAndValidate
  origin : ScriptOriginKind

inductive FileTransmitKind where
  | center (fileId : Uuid) (isPackaged : Bool)
  | p2p (fileId : Uuid) (isPackaged : Bool)
  | text (content : String)
  deriving DecidableEq, Repr

inductive TaskBody where
  | softwareDeployment (facilityKind : FacilityKind)
  | usecaseExecution (name : String) (facilityKind : FacilityKind) (arguments : List String)
      (environments : HashMap String) (stdIn : StdInKind) (files : List FileInfo)
      (requirements : Option Requirements)
  | collectedOut (collectFrom : CollectFrom) (rule : CollectRule) (collectTo : CollectTo)
      (optional : Bool)
  | executeScript (scriptInfo : ScriptInfo)
  | fileUpload (fileId path : String) (isPackage : Bool)
  | fileDownload (kind : FileTransmitKind) (path : String)

structure Task where
  id : Uuid
  body : List TaskBody
  command : TaskCommand

section Writing

open Json

def variant (name : String) (content : List (String × Json)) : Json := .obj [(name, .obj content)]

def facilityKind : FacilityKind → Json
  | .spack name argumentList =>
    variant "Spack" [("name", .str name), ("argument_list", ofList .str argumentList)]
  | .singularity image tag => variant "Singularity" [("image", .str image), ("tag", .str tag)]

def stdInKind : StdInKind → Json
  | .text text => variant "Text" [("text", .str text)]
  | .file path => variant "File" [("path", .str path)]
  | .none => .str "None"

def collectFrom : CollectFrom → Json
  | .fileOut path => variant "FileOut" [("path", .str path)]
  | .stdout => .str "Stdout"
  | .stderr => .str "Stderr"

def collectRule : CollectRule → Json
  | .regex exp => .obj [("Regex", .str exp)]
  | .bottomLines n => .obj [("BottomLines", ofUInt64 n)]
  | .topLines n => .obj [("TopLines", ofUInt64 n)]

def requirements (r : Requirements) : Json :=
  .obj [("cpuCores", ofOption ofUInt64 r.cpuCores), ("nodeCount", ofOption ofInt64 r.nodeCount),
    ("maxWallTime", ofOption ofUInt64 r.maxWallTime),
    ("maxCpuTime", ofOption ofUInt64 r.maxCpuTime), ("stopTime", ofOption ofUInt64 r.stopTime)]

def validateRule : ValidateRule → Json
  | .regex exp => .obj [("regex", .str exp)]
  | .isEmpty empty => .obj [("isEmpty", .bool empty)]

def validatedOperation : ValidatedOperation → Json
  | .reportSuccess => .str "reportSuccess"
  | .reportFailure => .str "reportFailure"

-- `metadata` is written without its entries.
def outValidator (v : OutValidator) : Json :=
  .obj [("validateRules", validateRule v.validateRules),
    ("passOperation", validatedOperation v.passOperation),
    ("failureOperation", validatedOperation v.failureOperation), ("metadata", .obj [])]

def outPathAndValidate (o : OutPathAndValidate) : Json :=
  .obj [("path", .str o.path), ("validator", ofOption outValidator o.validator)]

def scriptKind : ScriptKind → Json
  | .python => .obj [("type", .str "Python")]

def scriptOriginKind : ScriptOriginKind → Json
  | .git url => .obj [("type", .str "Git"), ("url", .str url)]
  | .edit content => .obj [("type", .str "Edit"), ("content", .str content)]

def scriptInfo (s : ScriptInfo) : List (String × Json) :=
  [("kind", scriptKind s.kind), ("inputPath", ofMap .str s.inputPath.val),
    ("outputPath", ofMap outPathAndValidate s.outputPath.val),
    ("origin", scriptOriginKind s.origin)]

def taskCommand : TaskCommand → Json
  | .start => .str "Start"
  | .pause => .str "Pause"
  | .continue => .str "Continue"
  | .delete => .str "Delete"

variable (uuid : UuidText)

def ofUuid (id : Uuid) : Json := .str (uuid.text id)

def collectTo : CollectTo → Json
  | .file id path => variant "File" [("path", .str path), ("id", ofUuid uuid id)]
  | .text id => variant "Text" [("id", ofUuid uuid id)]

def inFileForm : InFileForm → Json
  | .id id => .obj [("Id", ofUuid uuid id)]
  | .content text => .obj [("Content", .str text)]

def fileInfo : FileInfo → Json
  | .input path isPackage form =>
    variant "Input" [("path", .str path), ("is_package", .bool isPackage),
      ("form", inFileForm uuid form)]
  | .output id path isPackage optional =>
    variant "Output" [("id", ofUuid uuid id), ("path", .str path), ("is_package", .bool isPackage),
      ("optional", .bool optional)]

def fileTransmitKind : FileTransmitKind → Json
  | .center fileId isPackaged =>
    variant "Center" [("file_id", ofUuid uuid fileId), ("is_packaged", .bool isPackaged)]
  | .p2p fileId isPackaged =>
    variant "P2P" [("file_id", ofUuid uuid fileId), ("is_packaged", .bool isPackaged)]
  | .text content => variant "Text" [("content", .str content)]

def taskBody : TaskBody → Json
  | .softwareDeployment facility =>
    variant "SoftwareDeployment" [("facility_kind", facilityKind facility)]
  | .usecaseExecution name facility arguments environments stdIn files req =>
    variant "UsecaseExecution"
      [("name", .str name), ("facility_kind", facilityKind facility),
        ("arguments", ofList .str arguments), ("environments", ofMap .str environments.val),
        ("std_in", stdInKind stdIn), ("files", ofList (fileInfo uuid) files),
        ("requirements", ofOption requirements req)]
  | .collectedOut source rule target optional =>
    variant "CollectedOut"
      [("from", collectFrom source), ("rule", collectRule rule), ("to", collectTo uuid target),
        ("optional", .bool optional)]
  | .executeScript info => variant "ExecuteScript" (scriptInfo info)
  | .fileUpload fileId path isPackage =>
    variant "FileUpload" [("file_id", .str fileId), ("path", .str path),
      ("is_package", .bool isPackage)]
  | .fileDownload kind path =>
    variant "FileDownload" [("kind", fileTransmitKind uuid kind), ("path", .str path)]

def task (t : Task) : Json :=
  .obj [("id", ofUuid uuid t.id), ("body", ofList (taskBody uuid) t.body),
    ("command", taskCommand t.command)]

end Writing

end Kuintessence.Protocol

import Kuintessence.Protocol.Task

namespace Kuintessence.Agent.Dto

open Json
open Protocol (UuidText)

def readFacilityKind (j : Json) : Option FacilityKind :=
  match toVariant j with
  | some ("Spack", content) => do
    let e ← toFields ["name", "argument_list"] content
    let name ← field toStr "name" e
    let argumentList ← field (toList toStr) "argument_list" e
    some (.spack name argumentList)
  | some ("Singularity", content) => do
    let e ← toFields ["image", "tag"] content
    let image ← field toStr "image" e
    let tag ← field toStr "tag" e
    some (.singularity image tag)
  | _ => none

def readSoftwareDeploymentCommand (j : Json) : Option SoftwareDeploymentCommand :=
  match toVariant j with
  | some ("Install", .null) => some .install
  | some ("Uninstall", .null) => some .uninstall
  | _ => none

def readStdInKind (j : Json) : Option StdInKind :=
  match toVariant j with
  | some ("Text", content) => do
    let e ← toFields ["text"] content
    let text ← field toStr "text" e
    some (.text text)
  | some ("File", content) => do
    let e ← toFields ["path"] content
    let path ← field toStr "path" e
    some (.file path)
  | some ("None", .null) => some .none
  | _ => none

def readCollectFrom (j : Json) : Option CollectFrom :=
  match toVariant j with
  | some ("FileOut", content) => do
    let e ← toFields ["path"] content
    let path ← field toStr "path" e
    some (.fileOut path)
  | some ("Stdout", .null) => some .stdout
  | some ("Stderr", .null) => some .stderr
  | _ => none

def readCollectRule (j : Json) : Option CollectRule :=
  match toVariant j with
  | some ("Regex", content) => (toStr content).map .regex
  | some ("BottomLines", content) => (toUInt64 content).map .bottomLines
  | some ("TopLines", content) => (toUInt64 content).map .topLines
  | _ => none

def readRequirements (j : Json) : Option Requirements := do
  let e ← toOnlyFields ["cpuCores", "nodeCount", "maxWallTime", "maxCpuTime", "stopTime"] j
  let cpuCores ← optionField toUInt64 "cpuCores" e
  let nodeCount ← optionField toInt64 "nodeCount" e
  let maxWallTime ← optionField toUInt64 "maxWallTime" e
  let maxCpuTime ← optionField toUInt64 "maxCpuTime" e
  let stopTime ← optionField toUInt64 "stopTime" e
  some ⟨cpuCores, nodeCount, maxWallTime, maxCpuTime, stopTime⟩

def readTaskCommand (j : Json) : Option TaskCommand :=
  match toVariant j with
  | some ("Start", .null) => some .start
  | some ("Pause", .null) => some .pause
  | some ("Continue", .null) => some .continue
  | some ("Delete", .null) => some .delete
  | _ => none

variable (uuid : UuidText)

def readUuid (j : Json) : Option Uuid := (toStr j).bind uuid.parse

def readCollectTo (j : Json) : Option CollectTo :=
  match toVariant j with
  | some ("File", content) => do
    let e ← toFields ["id", "path"] content
    let id ← field (readUuid uuid) "id" e
    let path ← field toStr "path" e
    some (.file id path)
  | some ("Text", content) => do
    let e ← toFields ["id"] content
    let id ← field (readUuid uuid) "id" e
    some (.text id)
  | _ => none

def readInFileForm (j : Json) : Option InFileForm :=
  match toVariant j with
  | some ("Id", content) => (readUuid uuid content).map .id
  | some ("Content", content) => (toStr content).map .content
  | _ => none

def readFileInfo (j : Json) : Option FileInfo :=
  match toVariant j with
  | some ("Input", content) => do
    let e ← toFields ["path", "is_package", "form"] content
    let path ← field toStr "path" e
    let isPackage ← field toBool "is_package" e
    let form ← field (readInFileForm uuid) "form" e
    some (.input path isPackage form)
  | some ("Output", content) => do
    let e ← toFields ["id", "path", "is_package", "optional"] content
    let id ← field (readUuid uuid) "id" e
    let path ← field toStr "path" e
    let isPackage ← field toBool "is_package" e
    let optional ← field toBool "optional" e
    some (.output id path isPackage optional)
  | _ => none

def readTaskBody (j : Json) : Option TaskBody :=
  match toVariant j with
  | some ("SoftwareDeployment", content) => do
    let e ← toFields ["facility_kind", "command"] content
    let facilityKind ← field readFacilityKind "facility_kind" e
    let command ← defaultField readSoftwareDeploymentCommand .install "command" e
    some (.softwareDeployment facilityKind command)
  | some ("UsecaseExecution", content) => do
    let e ← toFields ["name", "facility_kind", "arguments", "environments", "std_in", "files",
      "requirements"] content
    let name ← field toStr "name" e
    let facilityKind ← field readFacilityKind "facility_kind" e
    let arguments ← field (toList toStr) "arguments" e
    let environments ← field (toMap toStr) "environments" e
    let stdIn ← field readStdInKind "std_in" e
    let files ← field (toList (readFileInfo uuid)) "files" e
    let requirements ← optionField readRequirements "requirements" e
    some (.usecaseExecution name facilityKind arguments environments stdIn files requirements)
  | some ("CollectedOut", content) => do
    let e ← toFields ["from", "rule", "to", "optional"] content
    let source ← field readCollectFrom "from" e
    let rule ← field readCollectRule "rule" e
    let target ← field (readCollectTo uuid) "to" e
    let optional ← field toBool "optional" e
    some (.collectedOut source rule target optional)
  | _ => none

def readTask (j : Json) : Option Task := do
  let e ← toFields ["id", "body", "command"] j
  let id ← field (readUuid uuid) "id" e
  let body ← field (toList (readTaskBody uuid)) "body" e
  let command ← field readTaskCommand "command" e
  some ⟨id, body, command⟩

end Kuintessence.Agent.Dto

namespace Kuintessence.Protocol

open Json
open Agent.Dto

theorem reads_str : Reads toStr Json.str := fun _ => rfl

theorem reads_facilityKind : Reads readFacilityKind facilityKind := by
  intro f
  cases f with
  | spack name argumentList =>
    simp [readFacilityKind, facilityKind, variant, toFields, reads_str.list argumentList]
  | singularity image tag => simp [readFacilityKind, facilityKind, variant, toFields]

theorem reads_stdInKind : Reads readStdInKind stdInKind := by
  intro k
  cases k with
  | text text => simp [readStdInKind, stdInKind, variant, toFields]
  | file path => simp [readStdInKind, stdInKind, variant, toFields]
  | none => rfl

theorem reads_collectFrom : Reads readCollectFrom collectFrom := by
  intro k
  cases k with
  | fileOut path => simp [readCollectFrom, collectFrom, variant, toFields]
  | stdout => rfl
  | stderr => rfl

theorem reads_collectRule : Reads readCollectRule collectRule := by
  intro k
  cases k with
  | regex exp => simp [readCollectRule, collectRule]
  | bottomLines n => simp [readCollectRule, collectRule]
  | topLines n => simp [readCollectRule, collectRule]

theorem reads_requirements : Reads readRequirements requirements := by
  intro r
  have huint (n : Option UInt64) : toOption toUInt64 (ofOption ofUInt64 n) = some n :=
    Reads.option toUInt64_ofUInt64 rfl n
  have hint (n : Option Int64) : toOption toInt64 (ofOption ofInt64 n) = some n :=
    Reads.option toInt64_ofInt64 rfl n
  simp [readRequirements, requirements, toOnlyFields, toFields, huint, hint]

def commandOf : TaskCommand → Agent.Dto.TaskCommand
  | .start => .start
  | .pause => .pause
  | .continue => .continue
  | .delete => .delete

theorem read_taskCommand (c : TaskCommand) : readTaskCommand (taskCommand c) = some (commandOf c) := by
  cases c <;> rfl

variable (uuid : UuidText)

theorem reads_uuid : Reads (readUuid uuid) (ofUuid uuid) := uuid.parse_text

theorem reads_collectTo : Reads (readCollectTo uuid) (collectTo uuid) := by
  intro k
  cases k with
  | file id path => simp [readCollectTo, collectTo, variant, toFields, reads_uuid uuid id]
  | text id => simp [readCollectTo, collectTo, variant, toFields, reads_uuid uuid id]

theorem reads_inFileForm : Reads (readInFileForm uuid) (inFileForm uuid) := by
  intro k
  cases k with
  | id id => simp [readInFileForm, inFileForm, reads_uuid uuid id]
  | content text => simp [readInFileForm, inFileForm]

theorem reads_fileInfo : Reads (readFileInfo uuid) (fileInfo uuid) := by
  intro f
  cases f with
  | input path isPackage form =>
    simp [readFileInfo, fileInfo, variant, toFields, reads_inFileForm uuid form]
  | output id path isPackage optional =>
    simp [readFileInfo, fileInfo, variant, toFields, reads_uuid uuid id]

-- The task the agent should see; it installs what the orchestrator asks it to deploy.
inductive SameBody : TaskBody → Agent.Dto.TaskBody → Prop
  | softwareDeployment (f) : SameBody (.softwareDeployment f) (.softwareDeployment f .install)
  | usecaseExecution (n f a env i files r) :
      SameBody (.usecaseExecution n f a env i files r) (.usecaseExecution n f a env.val i files r)
  | collectedOut (s r t o) : SameBody (.collectedOut s r t o) (.collectedOut s r t o)

structure SameTask (t : Task) (a : Agent.Dto.Task) : Prop where
  id : a.id = t.id
  body : List.Forall₂ SameBody t.body a.body
  command : a.command = commandOf t.command

def TaskBody.isShared : TaskBody → Bool
  | .softwareDeployment _ => true
  | .usecaseExecution .. => true
  | .collectedOut .. => true
  | _ => false

theorem read_shared {b : TaskBody} (h : b.isShared = true) :
    ∃ a, SameBody b a ∧ readTaskBody uuid (taskBody uuid b) = some a := by
  cases b with
  | softwareDeployment f =>
    refine ⟨_, .softwareDeployment f, ?_⟩
    simp [readTaskBody, taskBody, variant, toFields, reads_facilityKind f]
  | usecaseExecution n f a env i files r =>
    refine ⟨_, .usecaseExecution n f a env i files r, ?_⟩
    have hfiles := (reads_fileInfo uuid).list files
    have hreq := reads_requirements.option rfl r
    simp [readTaskBody, taskBody, variant, toFields, reads_facilityKind f,
      reads_str.list a, toMap_ofMap reads_str env.property, reads_stdInKind i, hfiles, hreq]
  | collectedOut s r t o =>
    refine ⟨_, .collectedOut s r t o, ?_⟩
    simp [readTaskBody, taskBody, variant, toFields, reads_collectFrom s, reads_collectRule r,
      reads_collectTo uuid t]
  | _ => cases h

theorem read_unshared {b : TaskBody} (h : b.isShared = false) :
    readTaskBody uuid (taskBody uuid b) = none := by
  cases b with
  | executeScript info => simp [readTaskBody, taskBody, variant]
  | fileUpload fileId path isPackage => simp [readTaskBody, taskBody, variant]
  | fileDownload kind path => simp [readTaskBody, taskBody, variant]
  | _ => cases h

theorem readAll_body (body : List TaskBody) :
    (∃ as, List.Forall₂ SameBody body as ∧
      readAll (readTaskBody uuid) (body.map (taskBody uuid)) = some as) ↔
      ∀ b ∈ body, b.isShared = true := by
  induction body with
  | nil => exact ⟨fun _ => by simp, fun _ => ⟨[], .nil, rfl⟩⟩
  | cons b body ih =>
    rw [List.forall_mem_cons, List.map_cons, readAll]
    cases hb : b.isShared with
    | false => simp [read_unshared uuid hb]
    | true =>
      obtain ⟨a, hsame, hread⟩ := read_shared uuid hb
      rw [hread, Option.bind_some, ← ih]
      simp only [true_and, Option.map_eq_some_iff]
      constructor
      · rintro ⟨_, hall, as, hrest, rfl⟩
        cases hall with
        | cons _ hall => exact ⟨as, hall, hrest⟩
      · rintro ⟨as, hall, hrest⟩
        exact ⟨a :: as, .cons hsame hall, as, hrest, rfl⟩

theorem read_task (t : Task) : (∃ a, SameTask t a ∧ readTask uuid (task uuid t) = some a) ↔
    ∀ b ∈ t.body, b.isShared = true := by
  have hread : readTask uuid (task uuid t) =
      (readAll (readTaskBody uuid) (t.body.map (taskBody uuid))).map
        fun body => ⟨t.id, body, commandOf t.command⟩ := by
    simp [readTask, task, toFields, reads_uuid uuid t.id, read_taskCommand, ofList, toList]
    cases readAll (readTaskBody uuid) (t.body.map (taskBody uuid)) <;> rfl
  rw [← readAll_body uuid, hread]
  simp only [Option.map_eq_some_iff]
  constructor
  · rintro ⟨a, hsame, as, has, rfl⟩
    exact ⟨as, hsame.body, has⟩
  · rintro ⟨as, hall, has⟩
    exact ⟨_, ⟨rfl, hall, rfl⟩, as, has, rfl⟩

end Kuintessence.Protocol

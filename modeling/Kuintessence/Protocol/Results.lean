import Kuintessence.Protocol.Reading

namespace Kuintessence.Agent.Dto

open Json

def taskResultStatus : TaskResultStatus → Json
  | .success => .str "Success"
  | .failed => .str "Failed"
  | .paused => .str "Paused"
  | .continued => .str "Continued"
  | .deleted => .str "Deleted"
  | .start => .str "Start"

def taskUsedResource (r : TaskUsedResource) : Json :=
  .obj [("cpu", ofUInt64 r.cpu), ("avg_memory", ofUInt64 r.avgMemory),
    ("max_memory", ofUInt64 r.maxMemory), ("storage", ofUInt64 r.storage),
    ("wall_time", ofUInt64 r.wallTime), ("cpu_time", ofUInt64 r.cpuTime),
    ("node", ofUInt64 r.node), ("start_time", ofInt64 r.startTime),
    ("end_time", ofInt64 r.endTime)]

def taskResult (r : TaskResult) : Json :=
  .obj [("id", .str r.id), ("status", taskResultStatus r.status), ("message", .str r.message),
    ("used_resources", ofOption taskUsedResource r.usedResources)]

end Kuintessence.Agent.Dto

namespace Kuintessence.Protocol

open Json

def readTaskResultStatus (j : Json) : Option TaskResultStatus :=
  match toVariant j with
  | some ("Success", .null) => some .success
  | some ("Failed", .null) => some .failed
  | some ("Paused", .null) => some .paused
  | some ("Continued", .null) => some .continued
  | some ("Deleted", .null) => some .deleted
  | _ => none

def readTaskUsedResource (j : Json) : Option TaskUsedResource := do
  let e ← toFields ["cpu", "avg_memory", "max_memory", "storage", "wall_time", "cpu_time", "node",
    "start_time", "end_time"] j
  let cpu ← field toUInt64 "cpu" e
  let avgMemory ← field toUInt64 "avg_memory" e
  let maxMemory ← field toUInt64 "max_memory" e
  let storage ← field toUInt64 "storage" e
  let wallTime ← field toUInt64 "wall_time" e
  let cpuTime ← field toUInt64 "cpu_time" e
  let node ← field toUInt64 "node" e
  let startTime ← field toInt64 "start_time" e
  let endTime ← field toInt64 "end_time" e
  some ⟨cpu.toNat, avgMemory.toNat, maxMemory.toNat, storage.toNat, wallTime.toNat, cpuTime.toNat,
    node.toNat, startTime.toInt, endTime.toInt⟩

def readTaskResult (uuid : UuidText) (j : Json) : Option TaskResult := do
  let e ← toFields ["id", "status", "message", "used_resources"] j
  let id ← field (Agent.Dto.readUuid uuid) "id" e
  let status ← field readTaskResultStatus "status" e
  let message ← field toStr "message" e
  let usedResources ← optionField readTaskUsedResource "used_resources" e
  some ⟨id, status, message, usedResources⟩

inductive SameStatus : Agent.Dto.TaskResultStatus → TaskResultStatus → Prop
  | success : SameStatus .success .success
  | failed : SameStatus .failed .failed
  | paused : SameStatus .paused .paused
  | continued : SameStatus .continued .continued
  | deleted : SameStatus .deleted .deleted

def usedResourceOf (r : Agent.Dto.TaskUsedResource) : TaskUsedResource :=
  ⟨r.cpu.toNat, r.avgMemory.toNat, r.maxMemory.toNat, r.storage.toNat, r.wallTime.toNat,
    r.cpuTime.toNat, r.node.toNat, r.startTime.toInt, r.endTime.toInt⟩

structure SameResult (uuid : UuidText) (a : Agent.Dto.TaskResult) (r : TaskResult) : Prop where
  id : a.id = uuid.text r.id
  status : SameStatus a.status r.status
  message : r.message = a.message
  usedResources : r.usedResources = a.usedResources.map usedResourceOf

theorem read_taskUsedResource (r : Agent.Dto.TaskUsedResource) :
    readTaskUsedResource (Agent.Dto.taskUsedResource r) = some (usedResourceOf r) := by
  -- Unfolding the binds by definition would have the kernel run the range checks of the readers.
  simp -implicitDefEqProofs [readTaskUsedResource, Agent.Dto.taskUsedResource, toFields,
    usedResourceOf]

theorem read_usedResources (r : Option Agent.Dto.TaskUsedResource) :
    toOption readTaskUsedResource (ofOption Agent.Dto.taskUsedResource r) =
      some (r.map usedResourceOf) := by
  cases r with
  | none => rfl
  | some r =>
    have hne : Agent.Dto.taskUsedResource r ≠ .null := by simp [Agent.Dto.taskUsedResource]
    rw [ofOption, toOption_of_ne hne, read_taskUsedResource, Option.map_some, Option.map_some]

theorem read_taskResultStatus (s : Agent.Dto.TaskResultStatus) :
    (∃ r, SameStatus s r ∧ readTaskResultStatus (Agent.Dto.taskResultStatus s) = some r) ↔
      s ≠ .start := by
  cases s with
  | success => exact ⟨by simp, fun _ => ⟨_, .success, rfl⟩⟩
  | failed => exact ⟨by simp, fun _ => ⟨_, .failed, rfl⟩⟩
  | paused => exact ⟨by simp, fun _ => ⟨_, .paused, rfl⟩⟩
  | continued => exact ⟨by simp, fun _ => ⟨_, .continued, rfl⟩⟩
  | deleted => exact ⟨by simp, fun _ => ⟨_, .deleted, rfl⟩⟩
  | start =>
    refine ⟨?_, by simp⟩
    rintro ⟨r, hsame, -⟩
    cases hsame

variable (uuid : UuidText)

theorem readTaskResult_eq (id : Uuid) (a : Agent.Dto.TaskResult) (h : a.id = uuid.text id) :
    readTaskResult uuid (Agent.Dto.taskResult a) =
      (readTaskResultStatus (Agent.Dto.taskResultStatus a.status)).map
        fun status => ⟨id, status, a.message, a.usedResources.map usedResourceOf⟩ := by
  have hid := reads_uuid uuid id
  rw [ofUuid, ← h] at hid
  simp [readTaskResult, Agent.Dto.taskResult, toFields, hid, read_usedResources]
  cases readTaskResultStatus (Agent.Dto.taskResultStatus a.status) <;> rfl

theorem read_taskResult (id : Uuid) (a : Agent.Dto.TaskResult) (h : a.id = uuid.text id) :
    (∃ r, SameResult uuid a r ∧ readTaskResult uuid (Agent.Dto.taskResult a) = some r) ↔
      a.status ≠ .start := by
  rw [← read_taskResultStatus, readTaskResult_eq uuid id a h]
  simp only [Option.map_eq_some_iff]
  constructor
  · rintro ⟨_, hsame, status, hread, rfl⟩
    exact ⟨status, hsame.status, hread⟩
  · rintro ⟨status, hsame, hread⟩
    exact ⟨_, ⟨h, hsame, rfl, rfl⟩, status, hread, rfl⟩

theorem protocol_agrees :
    (∀ t : Task, (∃ a, SameTask t a ∧ Agent.Dto.readTask uuid (task uuid t) = some a) ↔
      ∀ b ∈ t.body, b.isShared = true) ∧
    ∀ (id : Uuid) (status : Agent.Dto.TaskResultStatus) (message : String)
      (usedResources : Option Agent.Dto.TaskUsedResource),
      (∃ r, SameResult uuid ⟨uuid.text id, status, message, usedResources⟩ r ∧
        readTaskResult uuid
          (Agent.Dto.taskResult ⟨uuid.text id, status, message, usedResources⟩) = some r) ↔
        status ≠ .start := by
  refine ⟨read_task uuid, fun id status message usedResources => ?_⟩
  exact read_taskResult uuid id ⟨uuid.text id, status, message, usedResources⟩ rfl

def sampleScript : ScriptInfo where
  kind := .python
  inputPath := ⟨[], by decide⟩
  outputPath := ⟨[], by decide⟩
  origin := .edit "print(1)"

theorem started_unread :
    readTaskResult .hyphenated
        (Agent.Dto.taskResult ⟨UuidText.hyphenated.text 5, .start, "", none⟩) = none ∧
      Agent.Dto.readTask .hyphenated
        (task .hyphenated ⟨5, [.executeScript sampleScript], .start⟩) = none := by
  constructor
  · rw [readTaskResult_eq .hyphenated 5 _ rfl]
    rfl
  · have hread := read_unshared .hyphenated (b := .executeScript sampleScript) rfl
    simp [Agent.Dto.readTask, task, toFields, ofList, toList, readAll, hread]

end Kuintessence.Protocol

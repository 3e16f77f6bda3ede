import Kuintessence.Lib.Assoc
import Kuintessence.Lib.Effect
import Kuintessence.Model.WorkflowDraft

namespace Kuintessence

inductive NodeSpecOutputSlotKind where
  | file (origin : FileOutOrigin) (isBatch : Bool) (allTasksPreparedContentIds : List Uuid)
  | text (allTasksPreparedTextKeys : List Uuid)
  deriving DecidableEq, Repr

structure NodeSpecOutputSlot where
  kind : NodeSpecOutputSlotKind
  descriptor : String
  optional : Bool := false
  deriving DecidableEq, Repr

structure NodeSpec where
  kind : NodeKind
  id : Uuid
  name : String
  inputSlots : List NodeInputSlot
  outputSlots : List NodeSpecOutputSlot
  schedulingStrategy : SchedulingStrategy
  batchStrategies : List BatchStrategy
  deriving DecidableEq, Repr

structure WorkflowInstanceSpec where
  schedulingStrategy : SchedulingStrategy
  nodeSpecs : List NodeSpec
  nodeRelations : List NodeRelation
  deriving DecidableEq, Repr

inductive WorkflowInstanceStatus where
  | created
  | pending
  | running
  | finished
  | error
  | stopping
  | stopped
  | pausing
  | paused
  | recovering
  | unknown
  deriving DecidableEq, Repr

structure WorkflowInstance where
  id : Uuid
  name : String
  status : WorkflowInstanceStatus
  spec : WorkflowInstanceSpec
  lastModifiedTime : Nat
  userId : Uuid
  deriving DecidableEq, Repr

inductive NodeInstanceStatus where
  | created
  | pending
  | running
  | finished
  | error
  | stopping
  | stopped
  | standby
  | pausing
  | paused
  | recovering
  deriving DecidableEq, Repr

structure TaskUsedResource where
  cpu : Nat
  avgMemory : Nat
  maxMemory : Nat
  storage : Nat
  wallTime : Nat
  cpuTime : Nat
  node : Nat
  startTime : Int
  endTime : Int
  deriving DecidableEq, Repr

structure NodeInstance where
  kind : NodeInstanceKind
  id : Uuid
  name : String
  isParent : Bool
  batchParentId : Option Uuid := none
  flowInstanceId : Uuid
  status : NodeInstanceStatus := .created
  clusterId : Option Uuid := none
  log : Option String := none
  resourceMeter : Option TaskUsedResource := none
  deriving DecidableEq, Repr

inductive Error where
  | specific (e : WorkflowDraftException)
  | anyhow (message : String)
  deriving DecidableEq, Repr

abbrev Anyhow := Outcome Error

abbrev bail {α : Type} (message : String) : Anyhow α := .err (.anyhow message)

-- The ids that `Uuid::new_v4` has still to give are a stream: a draw takes its head.
abbrev Gen (α : Type) := Effect Unit (Nat → Uuid) Error α

def newV4 : Gen Uuid := fun _ ids => (.ok (ids 0), fun k => ids (k + 1))

def NodeSpecOutputSlot.from (l : NodeDraftOutputSlot) : Gen NodeSpecOutputSlot := do
  let prepared ← newV4
  match l.kind with
  | .file origin isBatch => pure ⟨.file origin isBatch [prepared], l.descriptor, l.optional⟩
  | .text => pure ⟨.text [prepared], l.descriptor, l.optional⟩

def NodeSpec.from (l : NodeDraft) : Gen NodeSpec := do
  let id ← newV4
  let outputSlots ← Effect.mapEach NodeSpecOutputSlot.from l.outputSlots
  pure ⟨l.kind, id, l.name, l.inputSlots, outputSlots, l.schedulingStrategy,
    l.batchStrategies.getD []⟩

def NodeRelation.updateId (idMap : List (Uuid × Uuid)) (r : NodeRelation) : NodeRelation :=
  idMap.foldl (fun r entry =>
    let r := if entry.1 == r.fromId then { r with fromId := entry.2 } else r
    if entry.1 == r.toId then { r with toId := entry.2 } else r) r

def WorkflowInstanceSpec.from (iter : Order (Uuid × Uuid)) (l : WorkflowDraftSpec) :
    Gen WorkflowInstanceSpec := do
  let oldNodeIds := l.nodeDrafts.map NodeDraft.externalId
  let nodeSpecs ← Effect.mapEach NodeSpec.from l.nodeDrafts
  let oldNewIdMap := Assoc.ofList (oldNodeIds.zip (nodeSpecs.map NodeSpec.id))
  pure ⟨l.schedulingStrategy, nodeSpecs,
    l.nodeRelations.map (NodeRelation.updateId (iter.on oldNewIdMap))⟩

def WorkflowInstance.from (iter : Order (Uuid × Uuid)) (l : WorkflowDraft) :
    Gen WorkflowInstance := do
  let id ← newV4
  let spec ← WorkflowInstanceSpec.from iter l.spec
  pure ⟨id, l.name, .created, spec, 0, 0⟩

namespace NodeSpecOutputSlot

def allTasksFileOutputs (s : NodeSpecOutputSlot) : Anyhow (List Uuid) :=
  match s.kind with
  | .file _ _ ids => .ok ids
  | .text _ => bail s!"OutputSlot {s.descriptor}'s kind is not file"

def allTasksTextOutputs (s : NodeSpecOutputSlot) : Anyhow (List Uuid) :=
  match s.kind with
  | .text keys => .ok keys
  | .file _ _ _ => bail s!"OutputSlot {s.descriptor}'s kind is not text"

def setPrepared (s : NodeSpecOutputSlot) (ids : List Uuid) : NodeSpecOutputSlot :=
  match s.kind with
  | .file origin isBatch _ => { s with kind := .file origin isBatch ids }
  | .text _ => { s with kind := .text ids }

end NodeSpecOutputSlot

namespace NodeSpec

def inputSlot (n : NodeSpec) (descriptor : String) : Anyhow NodeInputSlot :=
  .unwrap (n.inputSlots.find? (fun el => el.descriptor == descriptor))

def outputSlot (n : NodeSpec) (descriptor : String) : Anyhow NodeSpecOutputSlot :=
  .unwrap (n.outputSlots.find? (fun el => el.descriptor == descriptor))

def setInput (s : NodeInputSlot) (input : Input) : Anyhow NodeInputSlot :=
  match s.kind, input with
  | .text _, .text key => .ok { s with kind := .text (some (.single key)) }
  | .text _, .file _ =>
    bail s!"Mismatched input type! node_input_slot_{s.descriptor}: text; input: file"
  | .file _ name isBatch, .file fileInput =>
    .ok { s with kind := .file (some (.single fileInput)) name isBatch }
  | .file _ _ _, .text _ =>
    bail s!"Mismatched input type! node_input_slot_{s.descriptor}: file; input: text"
  | .unknown, _ => bail "Unknown input type!"

def updateWithInput (n : NodeSpec) (descriptor : String) (input : Input) : Anyhow NodeSpec := do
  let inputSlots ← Outcome.mapEach
    (fun s => if s.descriptor == descriptor then setInput s input else .ok s) n.inputSlots
  .ok { n with inputSlots := inputSlots }

def updateWithInputs (n : NodeSpec) : List (String × Input) → Anyhow NodeSpec
  | [] => .ok n
  | (descriptor, input) :: inputs => do
    let n ← n.updateWithInput descriptor input
    updateWithInputs n inputs

def updateOutputSlots (n : NodeSpec) : Gen NodeSpec := do
  let outputSlots ← Effect.mapEach (fun (s : NodeSpecOutputSlot) => do
    let prepared ← newV4
    pure (s.setPrepared [prepared])) n.outputSlots
  pure { n with outputSlots := outputSlots }

end NodeSpec

namespace WorkflowInstanceSpec

def node (w : WorkflowInstanceSpec) (id : Uuid) : Anyhow NodeSpec :=
  .unwrap (w.nodeSpecs.find? (fun el => el.id == id))

def nodeDependencyRelations (w : WorkflowInstanceSpec) (nodeId : Uuid) : List NodeRelation :=
  w.nodeRelations.filter (fun el => el.toId == nodeId)

def checkedMul (a b : Nat) : Anyhow Nat := if a * b ≤ usizeMax then .ok (a * b) else .panic

def strategyCount (w : WorkflowInstanceSpec) (subNodeCount : Uuid → Anyhow Nat) (n : NodeSpec)
    (b : BatchStrategy) : Anyhow Nat :=
  match b.kind with
  | .originalBatch => n.inputSlot b.inputSlotDescriptor >>= NodeInputSlot.inputsCount
  | .matchRegex _ fillCount _ => .ok fillCount
  | .fromBatchOutputs => do
    let relation ← .unwrap ((w.nodeDependencyRelations n.id).find?
      (WorkflowDraftSpec.feeds b.inputSlotDescriptor))
    subNodeCount relation.fromId

def countStrategies (w : WorkflowInstanceSpec) (subNodeCount : Uuid → Anyhow Nat)
    (n : NodeSpec) : List BatchStrategy → Nat → Anyhow Nat
  | [], acc => .ok acc
  | b :: bs, acc => do
    let count ← w.strategyCount subNodeCount n b
    let acc ← checkedMul acc count
    countStrategies w subNodeCount n bs acc

-- Nested calls are counted down by `fuel`; a recursion that outlives it overflows the stack.
def subNodeCountAux (w : WorkflowInstanceSpec) : Nat → Uuid → Anyhow Nat
  | 0, _ => .panic
  | fuel + 1, nodeId => do
    let nodeSpec ← w.node nodeId
    w.countStrategies (w.subNodeCountAux fuel) nodeSpec nodeSpec.batchStrategies 1

def subNodeCount (w : WorkflowInstanceSpec) (nodeId : Uuid) : Anyhow Nat :=
  w.subNodeCountAux (w.nodeSpecs.length + 1) nodeId

end WorkflowInstanceSpec

namespace WorkflowInstance

def completeFrom (nth : Nat) (outSlot : NodeSpecOutputSlot) (inputSlot : NodeInputSlot) :
    Anyhow NodeInputSlot :=
  match inputSlot.kind with
  | .text _ => do
    let inputs ← outSlot.allTasksTextOutputs
    let nthInput ← .okOr (.anyhow s!"input_slot doesn't have {nth}th output!") inputs[nth]?
    .ok { inputSlot with kind := .text (some (.single nthInput)) }
  | .file _ name isBatch => do
    let inputs ← outSlot.allTasksFileOutputs
    let nthInput ← .okOr (.anyhow s!"input_slot doesn't have {nth}th output!") inputs[nth]?
    .ok { inputSlot with kind := .file (some (.single { fileMetadataId := nthInput })) name isBatch }
  | .unknown => bail "Unknown input slot kind!"

def completeSlotRelation (w : WorkflowInstance) (nth : Nat) (fromId : Uuid)
    (inputSlot : NodeInputSlot) (s : SlotRelation) : Anyhow NodeInputSlot :=
  if s.toSlot == inputSlot.descriptor then do
    let fromNode ← w.spec.node fromId
    let outSlot ← fromNode.outputSlot s.fromSlot
    completeFrom nth outSlot inputSlot
  else .ok inputSlot

def completeSlotRelations (w : WorkflowInstance) (nth : Nat) (fromId : Uuid)
    (inputSlot : NodeInputSlot) : List SlotRelation → Anyhow NodeInputSlot
  | [] => .ok inputSlot
  | s :: ss => do
    let inputSlot ← w.completeSlotRelation nth fromId inputSlot s
    completeSlotRelations w nth fromId inputSlot ss

def completeInputSlot (w : WorkflowInstance) (nth : Nat) (inputSlot : NodeInputSlot) :
    List NodeRelation → Anyhow NodeInputSlot
  | [] => .ok inputSlot
  | r :: rs => do
    let inputSlot ← w.completeSlotRelations nth r.fromId inputSlot r.slotRelations
    completeInputSlot w nth inputSlot rs

def produceNodeSpecByCompleteNodeInputs (w : WorkflowInstance) (node : NodeSpec)
    (nth : Option Nat) : Anyhow NodeSpec := do
  let inputSlots ← Outcome.mapEach (fun inputSlot =>
    w.completeInputSlot (nth.getD 0) inputSlot (w.spec.nodeDependencyRelations node.id)) node.inputSlots
  .ok { node with inputSlots := inputSlots }

def rootInstance (w : WorkflowInstance) (n : NodeSpec) : NodeInstance where
  kind := .from n.kind
  id := n.id
  name := n.name
  isParent := !n.batchStrategies.isEmpty
  flowInstanceId := w.id

def subInstance (w : WorkflowInstance) (n : NodeSpec) (i : Nat) : Gen NodeInstance := do
  let id ← newV4
  pure { w.rootInstance n with
    id := id
    name := s!"{n.name}_sub_task_{i}"
    isParent := false
    batchParentId := some n.id }

def parseNodeInstance (w : WorkflowInstance) (n : NodeSpec) : Gen (List NodeInstance) :=
  if n.batchStrategies.isEmpty then pure [w.rootInstance n] else do
    let count ← .lift (w.spec.subNodeCount n.id)
    let subs ← Effect.mapEach (w.subInstance n) (List.range count)
    pure (w.rootInstance n :: subs)

def parseNodeInstances (w : WorkflowInstance) : Gen (List NodeInstance) := do
  let nodeInstances ← Effect.mapEach w.parseNodeInstance w.spec.nodeSpecs
  pure nodeInstances.flatten

end WorkflowInstance

end Kuintessence

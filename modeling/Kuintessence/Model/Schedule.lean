import Kuintessence.Model.Usecase

namespace Kuintessence

inductive ScheduleMode where
  | workflowInstanceId (id : Uuid)
  | nodeInstanceId (id : Uuid)
  deriving DecidableEq, Repr

def adjacencyMap (nodeIds : List Uuid) (nodeDependencies : List (Uuid × Uuid)) :
    List (Uuid × Int) :=
  nodeDependencies.foldl (fun m d => Assoc.insert m d.2 ((Assoc.get m d.2).getD 0 + 1))
    (nodeIds.foldl (fun m id => Assoc.insert m id 0) [])

def findEntryNodesIds (iter : Order (Uuid × Int)) (nodeIds : List Uuid)
    (nodeDependencies : List (Uuid × Uuid)) : List Uuid :=
  ((iter.on (adjacencyMap nodeIds nodeDependencies)).filter (fun e => e.2 == 0)).map Prod.fst

def NodeRelation.ends (r : NodeRelation) : Uuid × Uuid := (r.fromId, r.toId)

def standByNode (entryNodeIds : List Uuid) (spec : NodeSpec) : Svc Unit :=
  if entryNodeIds.contains spec.id then pure () else do
    let node ← getNodeById spec.id
    updateNode { node with status := .standby }
    if spec.batchStrategies.isEmpty then pure () else do
      let subs ← getNodeSubNodeInstances spec.id
      Effect.each (fun sub => updateNode { sub with status := .standby }) subs

def selectFirst (id : Uuid) : Svc (WorkflowInstance × List Uuid) := do
  let env ← .read
  let flow ← getFlowById id
  let flow := { flow with status := .running }
  updateFlow flow
  let _ ← saveChanged
  let w ← .get
  let entryNodeIds := findEntryNodesIds (env.adjacency w.calls) (flow.spec.nodeSpecs.map NodeSpec.id)
    (flow.spec.nodeRelations.map NodeRelation.ends)
  Effect.each (standByNode entryNodeIds) flow.spec.nodeSpecs
  pure (flow, entryNodeIds)

def selectNext (nodeId : Uuid) : Svc (WorkflowInstance × List Uuid) := do
  let env ← .read
  let success ← isAllSameEntrymentNodesSuccess nodeId
  if success then do
    let flow ← getFlowByNodeId nodeId
    let standByNodes ← getAllWorkflowInstanceStandByNodes flow.id
    let nodeDependencies := (flow.spec.nodeRelations.filter
      (fun el => el.fromId != nodeId && el.toId != nodeId)).map NodeRelation.ends
    let w ← .get
    pure (flow, findEntryNodesIds (env.adjacency w.calls) (standByNodes.map NodeInstance.id)
      nodeDependencies)
  else
    fail s!"Nodes in the same batch of node with id: {nodeId} has not been fully scheduled!"

def select : ScheduleMode → Svc (WorkflowInstance × List Uuid)
  | .workflowInstanceId id => selectFirst id
  | .nodeInstanceId id => selectNext id

def withText (s : NodeInputSlot) (fromSlot : NodeSpecOutputSlot) : Anyhow NodeInputSlot := do
  let keys ← fromSlot.allTasksTextOutputs
  let key ← .unwrap keys.head?
  .ok { s with kind := .text (some (.single key)) }

def withFile (s : NodeInputSlot) (name : Option String) (isBatch : Bool)
    (fromSlot : NodeSpecOutputSlot) : Anyhow NodeInputSlot := do
  let ids ← fromSlot.allTasksFileOutputs
  let id ← .unwrap ids.head?
  .ok { s with kind := .file (some (.single { fileMetadataId := id })) name isBatch }

def fillFrom (fromSlot : NodeSpecOutputSlot) (s : NodeInputSlot) : Anyhow NodeInputSlot :=
  match s.kind with
  | .text _ => withText s fromSlot
  | .file _ name isBatch => withFile s name isBatch fromSlot
  | .unknown => .panic

def modifyInputSlot (descriptor : String) (f : NodeInputSlot → Anyhow NodeInputSlot) :
    List NodeInputSlot → Anyhow (List NodeInputSlot)
  | [] => .panic
  | s :: ss =>
    if s.descriptor == descriptor then do
      let s ← f s
      .ok (s :: ss)
    else do
      let ss ← modifyInputSlot descriptor f ss
      .ok (s :: ss)

def fillSlotRelation (static : WorkflowInstanceSpec) (fromId : Uuid) (n : NodeSpec)
    (s : SlotRelation) : Anyhow NodeSpec := do
  let fromNode ← static.node fromId
  let fromSlot ← fromNode.outputSlot s.fromSlot
  let inputSlots ← modifyInputSlot s.toSlot (fillFrom fromSlot) n.inputSlots
  .ok { n with inputSlots := inputSlots }

def fillSlotRelations (static : WorkflowInstanceSpec) (fromId : Uuid) (n : NodeSpec) :
    List SlotRelation → Anyhow NodeSpec
  | [] => .ok n
  | s :: ss => do
    let n ← fillSlotRelation static fromId n s
    fillSlotRelations static fromId n ss

def fillRelations (static : WorkflowInstanceSpec) (n : NodeSpec) :
    List NodeRelation → Anyhow NodeSpec
  | [] => .ok n
  | r :: rs => do
    let n ← fillSlotRelations static r.fromId n r.slotRelations
    fillRelations static n rs

def renameOriginal (renamingPattern : Option String) : Input → Svc Input
  | .file fileInput => do
    let pattern ← .lift (.unwrap renamingPattern)
    let id ← gen newV4
    pure (.file { fileInput with fileMetadataName := replace pattern "\x7b\x7d" (toString id) })
  | .text _ => .lift .panic

def originalInputs (b : BatchStrategy) (s : NodeInputSlot) : Svc (List Input) := do
  let result ← .lift s.inputs
  match s.kind with
  | .file _ _ _ => Effect.mapEach (renameOriginal b.renamingPattern) result
  | _ => .lift .panic

def storeText (text : String) : Svc Input := do
  let key ← gen newV4
  insertText key text
  pure (.text key)

def storeFile (fileName content : String) : Svc Input := do
  let env ← .read
  let size := content.utf8ByteSize
  let fileMetadataId ← gen newV4
  let hash := env.blake3 content
  let id ← gen newV4
  registerMove { id := id, metaId := fileMetadataId, fileName := fileName, hash := hash, size := size }
  doRegisteredMoves fileMetadataId
  pure (.file ⟨fileMetadataId, fileName, hash, size⟩)

def matchRegexInputs (b : BatchStrategy) (regexToMatch : String) (fillCount : Nat)
    (filler : Filler) (s : NodeInputSlot) : Svc (List Input) := do
  let env ← .read
  match s.kind with
  | .text contents => do
    let contents ← .lift (.unwrap contents)
    let key ← .lift (.unwrap contents.toList.head?)
    let content ← getText key
    let w ← .get
    let texts ← .lift (filler.fillMatchRegex (fun n => env.random (w.calls + n)) content
      regexToMatch fillCount)
    Effect.mapEach storeText texts
  | .file contents _ _ => do
    let contents ← .lift (.unwrap contents)
    let file ← .lift (.unwrap contents.toList.head?)
    let content ← getFileText file.fileMetadataId
    let w ← .get
    let texts ← .lift (filler.fillMatchRegex (fun n => env.random (w.calls + n)) content
      regexToMatch fillCount)
    let pattern ← .lift (.unwrap b.renamingPattern)
    Effect.mapEach (fun text => do
      let w ← .get
      storeFile (replace pattern "\x7b\x7d" (toString (env.timestamp w.calls))) text) texts
  | .unknown => .lift .panic

-- The last relation, and in it the last slot relation, that feeds the slot.
def lastFeed (nodeRelations : List NodeRelation) (descriptor : String) :
    Option (Uuid × String) :=
  ((nodeRelations.flatMap fun r =>
    (r.slotRelations.filter (fun s => s.toSlot == descriptor)).map
      (fun s => (r.fromId, s.fromSlot)))).getLast?

def outputInputs (s : NodeSpecOutputSlot) : List Input :=
  match s.kind with
  | .file _ _ ids => ids.map fun id => .file { fileMetadataId := id }
  | .text keys => keys.map Input.text

def fromBatchInputs (nodeRelations : List NodeRelation) (b : BatchStrategy) :
    Svc (List Input) := do
  let feed ← .lift (.unwrap (lastFeed nodeRelations b.inputSlotDescriptor))
  let flow ← getFlowByNodeId feed.1
  let inNode ← .lift (flow.spec.node feed.1)
  let outputSlot ← .lift (inNode.outputSlot feed.2)
  pure (outputInputs outputSlot)

def getBatchInputs (nodeRelations : List NodeRelation) (b : BatchStrategy) (s : NodeInputSlot) :
    Svc (List Input) :=
  match b.kind with
  | .originalBatch => originalInputs b s
  | .matchRegex regexToMatch fillCount filler => matchRegexInputs b regexToMatch fillCount filler s
  | .fromBatchOutputs => fromBatchInputs nodeRelations b

def allPossibleInputs (slots : List (String × List Input)) : List (List (String × Input)) :=
  slots.foldl (fun all slot =>
    if all.isEmpty then slot.2.map (fun j => [(slot.1, j)])
    else slot.2.flatMap (fun j => all.map (fun k => k ++ [(slot.1, j)]))) []

def parseSubNode (n : NodeSpec) (task : Uuid × List (String × Input)) : Svc NodeSpec := do
  let sub ← .lift ({ n with id := task.1 }.updateWithInputs task.2)
  gen sub.updateOutputSlots

def subNodes (n : NodeSpec) (slots : List (String × List Input)) : Svc (List NodeSpec) := do
  let subs ← getNodeSubNodeInstances n.id
  Effect.mapEach (parseSubNode n) ((subs.map NodeInstance.id).zip (allPossibleInputs slots))

def debatch (nodeRelations : List NodeRelation) (n : NodeSpec) : Svc (List NodeSpec) := do
  let slots ← Effect.mapEach (fun b => do
    let inputSlot ← .lift (n.inputSlot b.inputSlotDescriptor)
    let inputs ← getBatchInputs nodeRelations b inputSlot
    pure (b.inputSlotDescriptor, inputs)) n.batchStrategies
  subNodes n slots

def pushPrepared (first : Bool) (task : NodeSpec) (s : NodeSpecOutputSlot) :
    Anyhow NodeSpecOutputSlot := do
  let taskSlot ← task.outputSlot s.descriptor
  match s.kind with
  | .file origin isBatch ids => do
    let outputs ← taskSlot.allTasksFileOutputs
    let id ← .unwrap outputs.head?
    .ok { s with kind := .file origin isBatch ((if first then [] else ids) ++ [id]) }
  | .text keys => do
    let outputs ← taskSlot.allTasksTextOutputs
    let key ← .unwrap outputs.head?
    .ok { s with kind := .text ((if first then [] else keys) ++ [key]) }

def collectPrepared (first : Bool) : List NodeSpec → List NodeSpecOutputSlot →
    Anyhow (List NodeSpecOutputSlot)
  | [], slots => .ok slots
  | task :: tasks, slots => do
    let slots ← Outcome.mapEach (pushPrepared first task) slots
    collectPrepared false tasks slots

-- The entry node as the workflow instance keeps it, and the tasks it gives.
def prepareEntry (static : WorkflowInstanceSpec) (entryNode : NodeSpec) :
    Svc (NodeSpec × List NodeSpec) := do
  let nodeRelations := static.nodeDependencyRelations entryNode.id
  if entryNode.batchStrategies.isEmpty then do
    let entryNode ← .lift (fillRelations static entryNode nodeRelations)
    pure (entryNode, [entryNode])
  else do
    let taskNodes ← debatch nodeRelations entryNode
    let outputSlots ← .lift (collectPrepared true taskNodes entryNode.outputSlots)
    pure ({ entryNode with outputSlots := outputSlots }, entryNode :: taskNodes)

def prepareNode (static : WorkflowInstanceSpec) (entryNodeIds : List Uuid) (n : NodeSpec) :
    Svc (NodeSpec × List NodeSpec) :=
  if entryNodeIds.contains n.id then prepareEntry static n else pure (n, [])

def runTasks (tasks : List NodeSpec) : Svc Unit := do
  Effect.each (fun (task : NodeSpec) => do
    let node ← getNodeById task.id
    updateNode { node with status := .running }) tasks
  let _ ← saveChanged
  Effect.each sendUsecase tasks

def dispatch (flow : WorkflowInstance) (entryNodeIds : List Uuid) : Svc Unit := do
  let prepared ← Effect.mapEach (prepareNode flow.spec entryNodeIds) flow.spec.nodeSpecs
  runTasks (prepared.flatMap Prod.snd)
  updateFlow { flow with spec := { flow.spec with nodeSpecs := prepared.map Prod.fst } }
  let _ ← saveChanged
  pure ()

def finish (flow : WorkflowInstance) : Svc Unit := do
  updateFlow { flow with status := .finished }
  let _ ← saveChanged
  note fun nodes => .finish flow.id nodes

def scheduleNextNodes (mode : ScheduleMode) : Svc Unit := do
  let selected ← select mode
  if selected.2.isEmpty then finish selected.1 else dispatch selected.1 selected.2

def setAndOperate (status : NodeInstanceStatus) (command : TaskCommand) (node : NodeInstance) :
    Svc Unit := do
  updateNode { node with status := status }
  operateTask ⟨node.id, command, node.kind⟩

def operateWorkflow (flowStatus : WorkflowInstanceStatus) (status : NodeInstanceStatus)
    (command : TaskCommand) (affected : NodeInstanceStatus → Bool) (id : Uuid) : Svc Unit := do
  let flow ← getFlowById id
  let nodes ← getAllWorkflowInstanceNodes flow.id
  Effect.each (setAndOperate status command) (nodes.filter (fun el => affected el.status))
  updateFlow { flow with status := flowStatus }
  let _ ← saveChanged
  pure ()

def pauseWorkflow : Uuid → Svc Unit :=
  operateWorkflow .paused .paused .pause (fun s => s == .running)

def continueWorkflow : Uuid → Svc Unit :=
  operateWorkflow .running .running .continue (fun s => s == .paused)

def terminateWorkflow : Uuid → Svc Unit :=
  operateWorkflow .stopped .stopped .delete (fun s => s == .running || s == .paused)

end Kuintessence

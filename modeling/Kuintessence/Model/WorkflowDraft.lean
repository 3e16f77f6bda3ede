import Kuintessence.Model.Common

namespace Kuintessence

inductive NodeDraftOutputSlotKind where
  | file (origin : FileOutOrigin) (isBatch : Bool)
  | text
  deriving DecidableEq, Repr

structure NodeDraftOutputSlot where
  kind : NodeDraftOutputSlotKind
  descriptor : String
  optional : Bool := false
  deriving DecidableEq, Repr

structure NodeDraft where
  kind : NodeKind
  externalId : Uuid
  name : String
  batchStrategies : Option (List BatchStrategy)
  inputSlots : List NodeInputSlot
  outputSlots : List NodeDraftOutputSlot
  schedulingStrategy : SchedulingStrategy
  deriving DecidableEq, Repr

structure WorkflowDraftSpec where
  schedulingStrategy : SchedulingStrategy
  nodeDrafts : List NodeDraft
  nodeRelations : List NodeRelation
  deriving DecidableEq, Repr

structure WorkflowDraft where
  id : Uuid
  name : String
  spec : WorkflowDraftSpec
  deriving DecidableEq, Repr

inductive WorkflowDraftException where
  | noSuchNode (id : Uuid)
  | noSuchOutputSlot (nodeId : Uuid) (descriptor : String)
  | notSingleInputWithMatchRegex (nodeId : Uuid) (descriptor : String)
  | originalBatchInputsLessThanOne (nodeId : Uuid) (descriptor : String)
  | noSuchBatchOutputs (nodeId : Uuid) (descriptor : String)
  | reliedNodeIsNotBatched (fromNodeId nodeId : Uuid) (descriptor : String)
  | reliedSlotIsNotBatched (fromNodeId : Uuid) (fromDescriptor : String) (nodeId : Uuid)
      (descriptor : String)
  | mismatchPairedSlot (fromNodeId : Uuid) (fromDescriptor : String) (toNodeId : Uuid)
      (toDescriptor : String)
  | reliedSlotContentsNotEmpty (fromNodeId : Uuid) (fromDescriptor : String) (toNodeId : Uuid)
      (toDescriptor : String)
  | noReliedSlotContentsEmpty (nodeId : Uuid) (descriptor : String)
  | fileMetadataNotUploaded (fileMetadataId nodeId : Uuid) (slotDescriptor : String)
  | atLeastOneCluster
  deriving DecidableEq, Repr

abbrev Validation := Outcome WorkflowDraftException

namespace NodeDraft

def getInputSlot (n : NodeDraft) (descriptor : String) : Option NodeInputSlot :=
  n.inputSlots.find? (fun el => el.descriptor == descriptor)

def inputSlot (n : NodeDraft) (descriptor : String) : Validation NodeInputSlot :=
  .unwrap (n.inputSlots.find? (fun el => el.descriptor == descriptor))

def getOutputSlot (n : NodeDraft) (descriptor : String) : Option NodeDraftOutputSlot :=
  n.outputSlots.find? (fun el => el.descriptor == descriptor)

end NodeDraft

namespace WorkflowDraftSpec

def getNode (d : WorkflowDraftSpec) (id : Uuid) : Option NodeDraft :=
  d.nodeDrafts.find? (fun el => el.externalId == id)

def node (d : WorkflowDraftSpec) (id : Uuid) : Validation NodeDraft :=
  .unwrap (d.nodeDrafts.find? (fun el => el.externalId == id))

def sameKind (fromSlot : NodeDraftOutputSlot) (toSlot : NodeInputSlot) : Bool :=
  match fromSlot.kind, toSlot.kind with
  | .file _ _, .text _ => false
  | .text, .file _ _ _ => false
  | _, _ => true

def validateSlotRelation (fromNode toNode : NodeDraft) (fromId toId : Uuid) (s : SlotRelation) :
    Validation Unit := do
  let fromSlot ← .okOr (.noSuchOutputSlot fromId s.fromSlot) (fromNode.getOutputSlot s.fromSlot)
  let toSlot ← .okOr (.noSuchOutputSlot toId s.toSlot) (toNode.getInputSlot s.toSlot)
  let count ← toSlot.inputsCount
  .guard (count == 0) (.reliedSlotContentsNotEmpty fromId s.fromSlot toId s.toSlot)
  .guard (sameKind fromSlot toSlot) (.mismatchPairedSlot fromId s.fromSlot toId s.toSlot)

def validateRelation (d : WorkflowDraftSpec) (r : NodeRelation) : Validation Unit := do
  let fromNode ← .okOr (.noSuchNode r.fromId) (d.getNode r.fromId)
  let toNode ← .okOr (.noSuchNode r.toId) (d.getNode r.toId)
  Outcome.each (validateSlotRelation fromNode toNode r.fromId r.toId) r.slotRelations

def reliedInputSlots (d : WorkflowDraftSpec) : List String :=
  d.nodeRelations.flatMap (fun r => r.slotRelations.map SlotRelation.toSlot)

def validateRelatedNodes (d : WorkflowDraftSpec) : Validation (List String) := do
  Outcome.each d.validateRelation d.nodeRelations
  .ok d.reliedInputSlots

def validateContents (fileExists : Uuid → Bool) (n : NodeDraft) (s : NodeInputSlot) :
    Validation Unit :=
  match s.kind with
  | .file contents _ _ => do
    let contents ← .unwrap contents
    Outcome.each (fun content => .guard (fileExists content.fileMetadataId)
      (.fileMetadataNotUploaded content.fileMetadataId n.externalId s.descriptor)) contents.toList
  | _ => .ok ()

def validateInputSlot (relied : List String) (fileExists : Uuid → Bool) (n : NodeDraft)
    (s : NodeInputSlot) : Validation Unit := do
  -- `&&` stops at the first false operand: a relied-on slot is never counted
  let empty ← if relied.contains s.descriptor then .ok false else do
    let count ← s.inputsCount
    .ok (decide (count < 1) && !s.optional)
  if empty then .err (.noReliedSlotContentsEmpty n.externalId s.descriptor)
  else validateContents fileExists n s

def selectsCluster : SchedulingStrategy → Bool
  | .manual clusters => !clusters.isEmpty
  | .prefer clusters => !clusters.isEmpty
  | .auto => true

def feeds (descriptor : String) (r : NodeRelation) : Bool :=
  r.slotRelations.any (fun el => el.toSlot == descriptor)

def feedingSlot (descriptor : String) (r : NodeRelation) : Option SlotRelation :=
  r.slotRelations.find? (fun el => el.toSlot == descriptor)

def validateFromBatchOutputs (d : WorkflowDraftSpec) (n : NodeDraft) (s : NodeInputSlot) :
    Validation Unit :=
  match d.nodeRelations.find? (feeds s.descriptor) with
  | none => .err (.noSuchBatchOutputs n.externalId s.descriptor)
  | some r => do
    let slotRelation ← .unwrap (feedingSlot s.descriptor r)
    let fromNode ← d.node r.fromId
    match fromNode.batchStrategies with
    | none => .err (.reliedNodeIsNotBatched r.fromId n.externalId s.descriptor)
    | some batchStrategies =>
      if batchStrategies.isEmpty then
        .err (.reliedNodeIsNotBatched r.fromId n.externalId s.descriptor)
      else
        .guard (batchStrategies.any (fun el => el.inputSlotDescriptor == slotRelation.fromSlot))
          (.reliedSlotIsNotBatched r.fromId slotRelation.fromSlot n.externalId s.descriptor)

def validateBatchStrategy (d : WorkflowDraftSpec) (n : NodeDraft) (b : BatchStrategy) :
    Validation Unit := do
  let s ← n.inputSlot b.inputSlotDescriptor
  match b.kind with
  | .matchRegex _ _ _ => do
    let count ← s.inputsCount
    .guard (count == 1) (.notSingleInputWithMatchRegex n.externalId s.descriptor)
  | .originalBatch => do
    let count ← s.inputsCount
    -- the source writes `!input_slot.inputs_count() >= 1`: `!` binds tighter than `>=`
    .guard (!decide (1 ≤ usizeNot count)) (.originalBatchInputsLessThanOne n.externalId s.descriptor)
  | .fromBatchOutputs => validateFromBatchOutputs d n s

def validateNode (d : WorkflowDraftSpec) (relied : List String) (fileExists : Uuid → Bool)
    (n : NodeDraft) : Validation Unit := do
  Outcome.each (validateInputSlot relied fileExists n) n.inputSlots
  .guard (selectsCluster n.schedulingStrategy) .atLeastOneCluster
  match n.batchStrategies with
  | none => .ok ()
  | some batchStrategies => Outcome.each (validateBatchStrategy d n) batchStrategies

def validatePerNode (d : WorkflowDraftSpec) (relied : List String) (fileExists : Uuid → Bool) :
    Validation Unit :=
  Outcome.each (d.validateNode relied fileExists) d.nodeDrafts

def validateWorkflowDraft (fileExists : Uuid → Bool) (d : WorkflowDraftSpec) : Validation Unit := do
  let relied ← d.validateRelatedNodes
  d.validatePerNode relied fileExists

end WorkflowDraftSpec

end Kuintessence

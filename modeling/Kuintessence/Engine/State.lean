import Kuintessence.Instance.Supply
import Kuintessence.Model.Service

namespace Kuintessence

open Effect

structure Calm (s t : World) : Prop where
  db : t.db = s.db
  statements : t.statements = s.statements
  canDrop : t.canDrop = s.canDrop
  trace : t.trace = s.trace
  ids : Tail s.ids t.ids

theorem Calm.refl (s : World) : Calm s s := ⟨rfl, rfl, rfl, rfl, .refl _⟩

theorem Calm.trans {s t u : World} (h : Calm s t) (h' : Calm t u) : Calm s u :=
  ⟨h'.db.trans h.db, h'.statements.trans h.statements, h'.canDrop.trans h.canDrop,
    h'.trace.trans h.trace, h.ids.trans h'.ids⟩

def calmFrame : Frame World := ⟨Calm, Calm.refl, Calm.trans⟩

section Calm

variable {α β : Type}

theorem keeps_fail (message : String) : Keeps calmFrame (fail message : Svc α) := keeps_throw _

theorem calm_count (s : World) : calmFrame.rel s { s with calls := s.calls + 1 } :=
  ⟨rfl, rfl, rfl, rfl, .refl _⟩

theorem keeps_attempt : Keeps calmFrame attempt :=
  keeps_read.bind fun _ => keeps_get.bind fun _ =>
    (keeps_modify calm_count).bind fun _ => keeps_pure _

theorem keeps_call : Keeps calmFrame call := by
  refine keeps_get.bind fun _ => keeps_attempt.bind fun up => ?_
  cases up
  · exact keeps_fail _
  · exact keeps_pure _

theorem keeps_gen {m : Gen α} (h : Keeps tailFrame m) : Keeps calmFrame (gen m) :=
  fun _ s => ⟨rfl, rfl, rfl, rfl, h () s.ids⟩

theorem calm_files (f : World → Files) (s : World) :
    calmFrame.rel s { s with files := f s } :=
  ⟨rfl, rfl, rfl, rfl, .refl _⟩

theorem keeps_files (f : World → Files) :
    Keeps calmFrame (modify fun w => { w with files := f w } : Svc Unit) :=
  keeps_modify (calm_files f)

theorem keeps_getNodeById (id : Uuid) : Keeps calmFrame (getNodeById id) := by
  refine keeps_call.bind fun _ => keeps_get.bind fun w => ?_
  split
  · exact keeps_pure _
  · exact keeps_fail _

theorem keeps_getFlowById (id : Uuid) : Keeps calmFrame (getFlowById id) := by
  refine keeps_call.bind fun _ => keeps_get.bind fun w => ?_
  split
  · exact keeps_pure _
  · exact keeps_fail _

theorem keeps_getFlowByNodeId (id : Uuid) : Keeps calmFrame (getFlowByNodeId id) :=
  (keeps_getNodeById id).bind fun _ => keeps_getFlowById _

theorem keeps_selectNodes (p : NodeInstance → Bool) : Keeps calmFrame (selectNodes p) :=
  keeps_read.bind fun _ => keeps_call.bind fun _ => keeps_get.bind fun _ => keeps_pure _

theorem keeps_getText (key : Uuid) : Keeps calmFrame (getText key) := by
  refine keeps_call.bind fun _ => keeps_get.bind fun w => ?_
  split
  · exact keeps_pure _
  · exact keeps_fail _

theorem keeps_getFileText (id : Uuid) : Keeps calmFrame (getFileText id) := by
  refine keeps_read.bind fun env => keeps_call.bind fun k => ?_
  split
  · exact keeps_pure _
  · exact keeps_fail _

theorem keeps_storeText (text : String) : Keeps calmFrame (storeText text) :=
  (keeps_gen keeps_newV4).bind fun _ =>
    (keeps_call.bind fun _ => keeps_files _).bind fun _ => keeps_pure _

theorem keeps_registerMove (info : MoveRegistration) : Keeps calmFrame (registerMove info) := by
  refine keeps_call.bind fun _ => keeps_get.bind fun w => ?_
  split
  · exact keeps_fail _
  · exact keeps_files _

theorem keeps_doRegisteredMoves (metaId : Uuid) : Keeps calmFrame (doRegisteredMoves metaId) :=
  keeps_call.bind fun _ => keeps_get.bind fun _ =>
    Keeps.each (fun _ => keeps_call.bind fun _ => keeps_files _) _

theorem keeps_storeFile (fileName content : String) : Keeps calmFrame (storeFile fileName content) :=
  keeps_read.bind fun _ => (keeps_gen keeps_newV4).bind fun _ =>
    (keeps_gen keeps_newV4).bind fun _ => (keeps_registerMove _).bind fun _ =>
      (keeps_doRegisteredMoves _).bind fun _ => keeps_pure _

theorem keeps_renameOriginal (pattern : Option String) (i : Input) :
    Keeps calmFrame (renameOriginal pattern i) := by
  cases i with
  | text key => exact keeps_lift _
  | file fileInput =>
    exact (keeps_lift _).bind fun _ => (keeps_gen keeps_newV4).bind fun _ => keeps_pure _

theorem keeps_originalInputs (b : BatchStrategy) (s : NodeInputSlot) :
    Keeps calmFrame (originalInputs b s) := by
  refine (keeps_lift _).bind fun _ => ?_
  split
  · exact Keeps.mapEach (keeps_renameOriginal _) _
  · exact keeps_lift _

theorem keeps_matchRegexInputs (b : BatchStrategy) (regexToMatch : String) (fillCount : Nat)
    (filler : Filler) (s : NodeInputSlot) :
    Keeps calmFrame (matchRegexInputs b regexToMatch fillCount filler s) := by
  refine keeps_read.bind fun env => ?_
  split
  · exact (keeps_lift _).bind fun _ => (keeps_lift _).bind fun _ => (keeps_getText _).bind fun _ =>
      keeps_get.bind fun _ => (keeps_lift _).bind fun _ => Keeps.mapEach keeps_storeText _
  · exact (keeps_lift _).bind fun _ => (keeps_lift _).bind fun _ => (keeps_getFileText _).bind
      fun _ => keeps_get.bind fun _ => (keeps_lift _).bind fun _ => (keeps_lift _).bind fun _ =>
        Keeps.mapEach (fun _ => keeps_get.bind fun _ => keeps_storeFile _ _) _
  · exact keeps_lift _

theorem keeps_fromBatchInputs (rs : List NodeRelation) (b : BatchStrategy) :
    Keeps calmFrame (fromBatchInputs rs b) :=
  (keeps_lift _).bind fun _ => (keeps_getFlowByNodeId _).bind fun _ => (keeps_lift _).bind fun _ =>
    (keeps_lift _).bind fun _ => keeps_pure _

theorem keeps_getBatchInputs (rs : List NodeRelation) (b : BatchStrategy) (s : NodeInputSlot) :
    Keeps calmFrame (getBatchInputs rs b s) := by
  unfold getBatchInputs
  cases b.kind with
  | originalBatch => exact keeps_originalInputs b s
  | matchRegex regexToMatch fillCount filler => exact keeps_matchRegexInputs b _ _ _ s
  | fromBatchOutputs => exact keeps_fromBatchInputs rs b

theorem keeps_parseSubNode (n : NodeSpec) (task : Uuid × List (String × Input)) :
    Keeps calmFrame (parseSubNode n task) :=
  (keeps_lift _).bind fun _ => keeps_gen (keeps_updateOutputSlots _)

theorem keeps_subNodes (n : NodeSpec) (slots : List (String × List Input)) :
    Keeps calmFrame (subNodes n slots) :=
  (keeps_selectNodes _).bind fun _ => Keeps.mapEach (keeps_parseSubNode n) _

theorem keeps_debatch (rs : List NodeRelation) (n : NodeSpec) : Keeps calmFrame (debatch rs n) :=
  (Keeps.mapEach (fun _ => (keeps_lift _).bind fun _ => (keeps_getBatchInputs _ _ _).bind
    fun _ => keeps_pure _) _).bind fun _ => keeps_subNodes n _

theorem keeps_prepareEntry (static : WorkflowInstanceSpec) (n : NodeSpec) :
    Keeps calmFrame (prepareEntry static n) := by
  unfold prepareEntry
  split
  · exact (keeps_lift _).bind fun _ => keeps_pure _
  · exact (keeps_debatch _ _).bind fun _ => (keeps_lift _).bind fun _ => keeps_pure _

theorem keeps_prepareNode (static : WorkflowInstanceSpec) (entryNodeIds : List Uuid)
    (n : NodeSpec) : Keeps calmFrame (prepareNode static entryNodeIds n) := by
  unfold prepareNode
  split
  · exact keeps_prepareEntry static n
  · exact keeps_pure _

theorem keeps_getRandomCluster : Keeps calmFrame getRandomCluster :=
  keeps_read.bind fun _ => keeps_call.bind fun _ => keeps_lift _

theorem keeps_isAllSame (nodeId : Uuid) :
    Keeps calmFrame (isAllSameEntrymentNodesSuccess nodeId) := by
  refine keeps_call.bind fun _ => keeps_get.bind fun w => ?_
  split
  · exact keeps_fail _
  · exact (keeps_selectNodes _).bind fun _ => keeps_pure _

theorem keeps_selectNext (nodeId : Uuid) : Keeps calmFrame (selectNext nodeId) := by
  refine keeps_read.bind fun env => (keeps_isAllSame nodeId).bind fun success => ?_
  cases success with
  | true =>
    exact (keeps_getFlowByNodeId _).bind fun _ => (keeps_selectNodes _).bind fun _ =>
      keeps_get.bind fun _ => keeps_pure _
  | false => exact keeps_fail _

end Calm

end Kuintessence

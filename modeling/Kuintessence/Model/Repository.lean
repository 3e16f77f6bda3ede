import Kuintessence.Model.WorkflowInstance

namespace Kuintessence

inductive TaskCommand where
  | start
  | pause
  | continue
  | delete
  deriving DecidableEq, Repr

structure OperateTask where
  taskId : Uuid
  command : TaskCommand
  kind : NodeInstanceKind
  deriving DecidableEq, Repr

inductive TaskResultStatus where
  | success
  | failed
  | paused
  | continued
  | deleted
  deriving DecidableEq, Repr

structure TaskResult where
  id : Uuid
  status : TaskResultStatus
  message : String := ""
  usedResources : Option TaskUsedResource := none
  deriving DecidableEq, Repr

structure MoveRegistration where
  id : Uuid
  metaId : Uuid
  fileName : String
  hash : String
  size : Nat
  userId : Option Uuid := none
  deriving DecidableEq, Repr

-- What leaves the orchestrator, in order. `sendUsecase` and `finish` carry the node table as it is
-- at that moment.
inductive Event where
  | sendUsecase (spec : NodeSpec) (nodes : List NodeInstance)
  | operateTask (task : OperateTask)
  | sendTask (taskId : Uuid) (command : TaskCommand) (clusterId : Uuid)
  | nodeStatus (result : TaskResult)
  | finish (flowInstanceId : Uuid) (nodes : List NodeInstance)
  | bill (nodeInstanceId : Uuid)
  deriving DecidableEq, Repr

structure Tables where
  flows : List WorkflowInstance
  nodes : List NodeInstance
  deriving DecidableEq, Repr

inductive Statement where
  | updateFlow (flow : WorkflowInstance)
  | updateNode (node : NodeInstance)
  | insertNode (node : NodeInstance)
  deriving DecidableEq, Repr

structure Files where
  texts : List (Uuid × String)
  moves : List (Uuid × MoveRegistration)
  uploads : List (Uuid × Uuid)
  deriving DecidableEq, Repr

structure World where
  db : Tables
  files : Files
  statements : List Statement
  canDrop : Bool
  trace : List Event
  user : Option Uuid
  ids : Nat → Uuid
  calls : Nat

-- What the orchestrator does not decide itself. The first argument of an oracle is the number of
-- external calls made so far, so two calls need not get the same answer.
structure Env where
  fails : Nat → Bool
  draft : Nat → Uuid → Option WorkflowDraft
  fileMeta : Nat → Uuid → Bool
  rows : Nat → Order NodeInstance
  idMap : Nat → Order (Uuid × Uuid)
  adjacency : Nat → Order (Uuid × Int)
  stamp : Nat → Nat → Nat
  clusters : Nat → List Uuid
  random : Nat → Nat
  timestamp : Nat → Int
  blake3 : String → String
  fileText : Nat → Uuid → Option String
  parseTask : Nat → NodeSpec → Anyhow Unit

abbrev Svc (α : Type) := Effect Env World Error α

def fail {α : Type} (message : String) : Svc α := .throw (.anyhow message)

def attempt : Svc Bool := do
  let env ← .read
  let w ← .get
  .modify (fun w => { w with calls := w.calls + 1 })
  pure (!env.fails w.calls)

def call : Svc Nat := do
  let w ← .get
  let up ← attempt
  if up then pure w.calls else fail "external call failed"

theorem attempt_eq {env : Env} {w : World} :
    attempt env w = (.ok (!env.fails w.calls), { w with calls := w.calls + 1 }) := rfl

theorem call_ok {env : Env} {w : World} (h : env.fails w.calls = false) :
    call env w = (.ok w.calls, { w with calls := w.calls + 1 }) := by
  rw [call, Effect.bind_of_ok (rfl : Effect.get env w = (.ok w, w)), Effect.bind_of_ok attempt_eq, h]
  rfl

theorem call_lost {env : Env} {w : World} (h : env.fails w.calls = true) : call env w =
    (.err (.anyhow "external call failed"), { w with calls := w.calls + 1 }) := by
  rw [call, Effect.bind_of_ok (rfl : Effect.get env w = (.ok w, w)), Effect.bind_of_ok attempt_eq, h]
  rfl

def gen {α : Type} (m : Gen α) : Svc α := fun _ w =>
  let out := m () w.ids
  (out.1, { w with ids := out.2 })

def note (e : List NodeInstance → Event) : Svc Unit :=
  .modify (fun w => { w with trace := w.trace ++ [e w.db.nodes] })

def push (s : Statement) : Svc Unit :=
  .modify (fun w => { w with statements := w.statements ++ [s], canDrop := false })

def Tables.execute (stamp : Nat → Nat) (t : Tables) : Statement → Option Tables
  | .updateFlow flow => some { t with flows := t.flows.map fun row =>
      if row.id = flow.id ∧ row.lastModifiedTime = flow.lastModifiedTime then
        { row with
          spec := flow.spec
          status := flow.status
          lastModifiedTime := stamp row.lastModifiedTime }
      else row }
  | .updateNode node => some { t with nodes := t.nodes.map fun row =>
      if row.id = node.id then node else row }
  | .insertNode node =>
    if t.nodes.any (fun row => row.id == node.id) then none
    else some { t with nodes := t.nodes ++ [node] }

def executeAll (t : Tables) : List Statement → Svc (Option Tables)
  | [] => pure (some t)
  | s :: ss => do
    let env ← .read
    let w ← .get
    let up ← attempt
    match if up then t.execute (env.stamp w.calls) s else none with
    | none => pure none
    | some t => executeAll t ss

def clearStatements (w : World) : World := { w with statements := [], canDrop := true }

def saveChanged : Svc Bool := do
  let w ← .get
  if w.canDrop then pure false else do
    let _ ← call
    match ← executeAll w.db w.statements with
    | none => do
      let _ ← call
      .modify clearStatements
      fail "statement failed"
    | some db => do
      let _ ← call
      .modify (fun w => clearStatements { w with db := db })
      pure true

def getFlowById (id : Uuid) : Svc WorkflowInstance := do
  let _ ← call
  let w ← .get
  match w.db.flows.find? (fun row => row.id == id) with
  | some flow => pure flow
  | none => fail s!"There is no such flow_instance id: {id}"

def updateFlow (flow : WorkflowInstance) : Svc Unit := do
  let _ ← call
  push (.updateFlow flow)

def insertFlow (flow : WorkflowInstance) : Svc Unit := do
  let env ← .read
  let w ← .get
  match w.user with
  | none => fail "Seaorm repo no user id when need it."
  | some user => do
    let k ← call
    let w ← .get
    if w.db.flows.any (fun row => row.id == flow.id) then fail "statement failed"
    else .modify (fun w => { w with db := { w.db with flows := w.db.flows ++
      [{ flow with userId := user, lastModifiedTime := env.stamp k 0 }] } })

def getNodeById (id : Uuid) : Svc NodeInstance := do
  let _ ← call
  let w ← .get
  match w.db.nodes.find? (fun row => row.id == id) with
  | some node => pure node
  | none => fail s!"There is no such node_instance with id: {id}"

def updateNode (node : NodeInstance) : Svc Unit := do
  let _ ← call
  push (.updateNode node)

def insertNode (node : NodeInstance) : Svc Unit := do
  let _ ← call
  push (.insertNode node)

def selectNodes (p : NodeInstance → Bool) : Svc (List NodeInstance) := do
  let env ← .read
  let k ← call
  let w ← .get
  pure ((env.rows k).on (w.db.nodes.filter p))

def getNodeSubNodeInstances (batchParentId : Uuid) : Svc (List NodeInstance) :=
  selectNodes (fun el => el.batchParentId == some batchParentId)

def isAllSameEntrymentNodesSuccess (nodeId : Uuid) : Svc Bool := do
  let _ ← call
  let w ← .get
  match w.db.nodes.find? (fun row => row.id == nodeId) with
  | none => fail "No such node!"
  | some node => do
    let res ← selectNodes
      (fun el => el.flowInstanceId == node.flowInstanceId && el.batchParentId.isNone)
    pure (res.all (fun el => el.status == .finished || el.status == .standby))

def getAllWorkflowInstanceStandByNodes (workflowInstanceId : Uuid) : Svc (List NodeInstance) :=
  selectNodes (fun el => el.flowInstanceId == workflowInstanceId && el.status == .standby)

def getAllWorkflowInstanceNodes (workflowInstanceId : Uuid) : Svc (List NodeInstance) :=
  selectNodes (fun el => el.flowInstanceId == workflowInstanceId)

def getFlowByNodeId (nodeId : Uuid) : Svc WorkflowInstance := do
  let node ← getNodeById nodeId
  getFlowById node.flowInstanceId

def getText (key : Uuid) : Svc String := do
  let _ ← call
  let w ← .get
  match Assoc.get w.files.texts key with
  | some value => pure value
  | none => fail "No such text key!"

def insertText (key : Uuid) (value : String) : Svc Unit := do
  let _ ← call
  .modify (fun w => { w with files := { w.files with
    texts := Assoc.insert w.files.texts key value } })

def registerMove (info : MoveRegistration) : Svc Unit := do
  let _ ← call
  let w ← .get
  match info.userId.or w.user with
  | none => fail "No user info when redis need it."
  | some user =>
    .modify (fun w => { w with files := { w.files with moves := w.files.moves ++ [(user, info)] } })

-- The scheduler registers moves to the storage server only.
def doRegisteredMoves (metaId : Uuid) : Svc Unit := do
  let _ ← call
  let w ← .get
  Effect.each (fun move => do
    let _ ← call
    .modify (fun w => { w with files := { w.files with
      uploads := w.files.uploads ++ [(move.2.id, move.1)] } }))
    (w.files.moves.filter (fun move => move.2.metaId == metaId))

def getFileText (id : Uuid) : Svc String := do
  let env ← .read
  let k ← call
  match env.fileText k id with
  | some text => pure text
  | none => fail "no such file"

end Kuintessence

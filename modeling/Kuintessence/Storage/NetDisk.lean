import Kuintessence.Lib.Growth
import Kuintessence.Storage.Depot

namespace Kuintessence.FileTree

open Storage (CreateNetDiskFileCommand FileType uuidText)

inductive DirKind where
  | flowDraft
  | flowInstance
  | nodeInstance
  deriving DecidableEq, Repr

structure NetDiskMeta where
  flowDraftId : Option Uuid := none
  flowInstanceId : Option Uuid := none
  nodeInstanceId : Option Uuid := none
  dirKind : Option DirKind := none
  deriving DecidableEq, Repr

structure NetDisk where
  id : Uuid
  parentId : Option Uuid
  name : String
  isDict : Bool
  kind : FileType
  fileMetadataId : Option Uuid
  metadata : Option NetDiskMeta
  userId : Option Uuid
  deriving DecidableEq, Repr

def firstGroup (id : Uuid) : String := String.ofList (((uuidText id).toList.splitOn '-').headD [])

namespace NetDisk

def directory (id parentId : Uuid) (name : String) (metadata : NetDiskMeta) (userId : Option Uuid) :
    NetDisk := ⟨id, some parentId, name, true, .folder, none, some metadata, userId⟩

def flowDraftRoot (rootId : Uuid) : NetDisk :=
  directory 0 rootId "来自工作流草稿" { dirKind := some .flowDraft } none

def flowInstanceRoot (rootId : Uuid) (userId : Option Uuid) : NetDisk :=
  directory 0 rootId "来自工作流实例" { dirKind := some .flowInstance } userId

def flowDraftDir (draftRootId draftId : Uuid) (draftName : String) : NetDisk :=
  directory draftId draftRootId s!"{draftName}_{firstGroup draftId}"
    { flowDraftId := some draftId, dirKind := some .flowDraft } none

def flowInstanceDir (instanceRootId instanceId : Uuid) (instanceName : String)
    (userId : Option Uuid) : NetDisk :=
  directory instanceId instanceRootId s!"{instanceName}_{firstGroup instanceId}"
    { flowInstanceId := some instanceId, dirKind := some .flowInstance } userId

def nodeInstanceDir (flowInstanceDirId flowId instanceId : Uuid) (instanceName : String)
    (userId : Option Uuid) : NetDisk :=
  directory instanceId flowInstanceDirId s!"{instanceName}_{firstGroup instanceId}"
    { flowInstanceId := some flowId, nodeInstanceId := some instanceId,
      dirKind := some .flowInstance } userId

end NetDisk

-- A row of the table `file_system`.
structure FileSystem where
  id : Uuid
  parentId : Option Uuid
  name : String
  isDict : Bool
  kind : FileType
  ownerId : Uuid
  fileMetadataId : Option Uuid
  metadata : Option NetDiskMeta
  deriving DecidableEq, Repr

namespace FileSystem

def dirKind (row : FileSystem) : Option DirKind := row.metadata.bind NetDiskMeta.dirKind

def flowDraftId (row : FileSystem) : Option Uuid := row.metadata.bind NetDiskMeta.flowDraftId

def flowInstanceId (row : FileSystem) : Option Uuid := row.metadata.bind NetDiskMeta.flowInstanceId

def nodeInstanceId (row : FileSystem) : Option Uuid := row.metadata.bind NetDiskMeta.nodeInstanceId

end FileSystem

structure Disk where
  rows : List FileSystem
  ids : Nat → Uuid
  calls : Nat

-- What a request finds outside the table; a node comes with its workflow, a workflow with its user.
structure Env where
  session : Except String (Option Uuid)
  checked : Bool
  fails : Nat → Bool
  rows : Nat → Order FileSystem
  flowDraft : Nat → Uuid → Option String
  nodeInstance : Nat → Uuid → Option (Uuid × String)
  flowInstance : Nat → Uuid → Option (String × Uuid)
  now : Nat → String

abbrev Act (α : Type) := Effect Env Disk String α

def call : Act Nat := do
  let env ← .read
  let d ← .get
  .modify (fun d => { d with calls := d.calls + 1 })
  if env.fails d.calls then .throw "external call failed" else pure d.calls

def orFail {α : Type} (message : String) : Option α → Act α
  | some a => pure a
  | none => .throw message

def newV4 : Act Uuid := do
  let d ← .get
  .modify (fun d => { d with ids := fun n => d.ids (n + 1) })
  pure (d.ids 0)

namespace Repo

def user (userId : Option Uuid) : Act Uuid := do
  let env ← .read
  match env.session with
  | .error e => .throw e
  | .ok session => orFail "No user id when net disk need it." (userId.or session)

-- The first row that the database returns.
def find (p : FileSystem → Bool) : Act (Option Uuid) := do
  let env ← .read
  let k ← call
  let d ← .get
  pure (((env.rows k).on (d.rows.filter p)).head?.map FileSystem.id)

def getRootId (userId : Option Uuid) : Act (Option Uuid) := do
  let user ← user userId
  find fun row => row.id == user

def getFlowDraftDirId (flowDraftId : Uuid) : Act (Option Uuid) := do
  let user ← user none
  find fun row => row.dirKind == some .flowDraft && row.flowDraftId == some flowDraftId &&
    row.ownerId == user

def getNodeInstanceDirId (nodeInstance : Uuid) : Act (Option Uuid) :=
  find fun row => row.dirKind == some .nodeInstance && row.nodeInstanceId == some nodeInstance

def getFlowInstanceDirId (flowInstance : Uuid) : Act (Option Uuid) :=
  find fun row => row.dirKind == some .flowInstance && row.flowInstanceId == some flowInstance

def getFlowDraftRootId : Act (Option Uuid) := do
  let user ← user none
  find fun row => row.dirKind == some .flowDraft && row.flowDraftId == none && row.ownerId == user

def getFlowInstanceRootId (userId : Option Uuid) : Act (Option Uuid) := do
  let user ← user userId
  find fun row => row.dirKind == some .flowInstance && row.flowInstanceId == none &&
    row.ownerId == user

def isSamePidFnameExists (parentId : Option Uuid) (fileName : String) (userId : Option Uuid) :
    Act Bool := do
  let user ← user userId
  let found ← find fun row => row.parentId == parentId.or (some user) && row.name == fileName &&
    row.ownerId == user
  pure found.isSome

def u128 (checked : Bool) (n : Nat) : Outcome String Nat :=
  if n < 2 ^ 128 then .ok n else if checked then .panic else .ok (n % 2 ^ 128)

-- The two directories under a root have the user's id plus one and plus two.
def fixedId (checked : Bool) (user id : Uuid) : Option NetDiskMeta → Outcome String Uuid
  | some ⟨none, _, _, some .flowDraft⟩ => u128 checked (user + 1)
  | some ⟨_, none, _, some .flowInstance⟩ => u128 checked (user + 2)
  | _ => .ok id

def rowOf (entity : NetDisk) : Act FileSystem := do
  let user ← user entity.userId
  let env ← .read
  let id ← .lift (fixedId env.checked user entity.id entity.metadata)
  pure ⟨id, entity.parentId, entity.name, entity.isDict, entity.kind, user, entity.fileMetadataId,
    entity.metadata⟩

def hasParent (rows : List FileSystem) (row : FileSystem) : Bool :=
  match row.parentId with
  | some parent => parent == row.id || rows.any (fun r => r.id == parent)
  | none => true

-- One statement in its transaction; `ignored` stands for `on conflict (id) do nothing`.
def save (ignored : Bool) (row : FileSystem) : Act Unit := do
  let _ ← call
  let d ← .get
  if d.rows.any (fun r => r.id == row.id) then
    if ignored then pure () else .throw "duplicate key value violates unique constraint"
  else if hasParent d.rows row then .modify (fun d => { d with rows := d.rows ++ [row] })
  else .throw "insert violates foreign key constraint"

def insert (entity : NetDisk) : Act Uuid := do
  let row ← rowOf entity
  save true row
  pure row.id

def createRoot : Act Uuid := do
  let user ← user none
  save false ⟨user, none, uuidText user, true, .folder, user, none, none⟩
  pure user

end Repo

-- A request gives way to the others between its calls of the database.
abbrev Request (α : Type) := Prog Unit Env Disk String α

def query {α : Type} (m : Act α) : Request α := .atom () m

namespace NetDiskService

def getRootId (userId : Option Uuid) : Request Uuid := do
  match ← query (Repo.getRootId userId) with
  | some el => pure el
  | none => query Repo.createRoot

def fixFileName (parentId : Option Uuid) (fileName : String) (userId : Option Uuid) :
    Request String := query do
  let env ← .read
  let d ← .get
  let exist ← Repo.isSamePidFnameExists parentId fileName userId
  if exist then pure s!"{fileName}_{env.now d.calls}" else pure fileName

def getOrCreateFlowDraftRoot : Request Uuid := do
  match ← query Repo.getFlowDraftRootId with
  | some el => pure el
  | none => do
    let rootId ← getRootId none
    query (Repo.insert (.flowDraftRoot rootId))

def getOrCreateFlowDraftDir (flowDraftId : Uuid) (flowName : String) : Request Uuid := do
  match ← query (Repo.getFlowDraftDirId flowDraftId) with
  | some el => pure el
  | none => do
    let flowDraftRootDirId ← getOrCreateFlowDraftRoot
    query (Repo.insert (.flowDraftDir flowDraftRootDirId flowDraftId flowName))

def getOrCreateFlowInstanceRoot (userId : Option Uuid) : Request Uuid := do
  match ← query (Repo.getFlowInstanceRootId userId) with
  | some el => pure el
  | none => do
    let rootId ← getRootId userId
    query (Repo.insert (.flowInstanceRoot rootId userId))

def getOrCreateFlowInstanceDir (flowInstanceId : Uuid) (flowName : String) (userId : Option Uuid) :
    Request Uuid := do
  match ← query (Repo.getFlowInstanceDirId flowInstanceId) with
  | some el => pure el
  | none => do
    let flowInstanceRootDirId ← getOrCreateFlowInstanceRoot userId
    query (Repo.insert (.flowInstanceDir flowInstanceRootDirId flowInstanceId flowName userId))

-- What the new directory of a node is put into.
def getOrCreateDirFor (nodeId flowInstanceId : Uuid) (flowName : String) (userId : Option Uuid) :
    Request Uuid := do
  match ← query (Repo.getNodeInstanceDirId nodeId) with
  | some el => pure el
  | none => getOrCreateFlowInstanceDir flowInstanceId flowName userId

def getOrCreateNodeInstanceDir (nodeId flowInstanceId : Uuid) (nodeName flowName : String)
    (userId : Option Uuid) : Request Uuid := do
  let flowInstanceDirId ← getOrCreateDirFor nodeId flowInstanceId flowName userId
  query (Repo.insert (.nodeInstanceDir flowInstanceDirId flowInstanceId nodeId nodeName userId))

def insertFile (parentId metaId : Uuid) (name : String) (kind : FileType)
    (metadata : Option NetDiskMeta) (userId : Option Uuid) : Request Uuid := query do
  let id ← newV4
  Repo.insert ⟨id, some parentId, name, false, kind, some metaId, metadata, userId⟩

def getById {α : Type} (records : Env → Nat → Uuid → Option α) (id : Uuid) : Request α := query do
  let env ← .read
  let k ← call
  orFail "No such record." (records env k id)

def createNodeInstanceFile (nodeId metaId : Uuid) (fileName : String) (fileKind : FileType) :
    Request Unit := do
  let (flowInstanceId, nodeName) ← getById Env.nodeInstance nodeId
  let (flowName, user) ← getById Env.flowInstance flowInstanceId
  let nodeInstanceDirId ←
    getOrCreateNodeInstanceDir nodeId flowInstanceId nodeName flowName (some user)
  let name ← fixFileName (some nodeInstanceDirId) fileName (some user)
  let _ ← insertFile nodeInstanceDirId metaId name fileKind
    (some { flowInstanceId := some flowInstanceId, nodeInstanceId := some nodeId }) (some user)
  pure ()

def createFlowDraftFile (flowDraftId metaId : Uuid) (fileName : String) (fileKind : FileType) :
    Request Unit := do
  let flowName ← getById Env.flowDraft flowDraftId
  let parentId ← getOrCreateFlowDraftDir flowDraftId flowName
  let name ← fixFileName (some parentId) fileName none
  let _ ← insertFile parentId metaId name fileKind (some { flowDraftId := some flowDraftId }) none
  pure ()

def createNormalFile (parentId : Option Uuid) (metaId : Uuid) (fileName : String)
    (fileKind : FileType) : Request Unit := do
  let name ← fixFileName parentId fileName none
  let parentId ←
    match parentId with
    | some el => pure el
    | none => getRootId none
  let _ ← insertFile parentId metaId name fileKind none none
  pure ()

def createFile (command : CreateNetDiskFileCommand) : Request Unit :=
  match command.kind with
  | .nodeInstance nodeId =>
    createNodeInstanceFile nodeId command.metaId command.fileName command.fileType
  | .flowDraft flowDraftId =>
    createFlowDraftFile flowDraftId command.metaId command.fileName command.fileType
  | .normal parentId =>
    createNormalFile parentId command.metaId command.fileName command.fileType

end NetDiskService

-- A command and the request that it comes with.
structure Job where
  env : Env
  command : CreateNetDiskFileCommand

def start (job : Job) : Thread Unit Env Disk String :=
  ⟨job.env, NetDiskService.createFile job.command⟩

end Kuintessence.FileTree

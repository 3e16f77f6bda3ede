import Kuintessence.Storage.Service

namespace Kuintessence.Storage

inductive PreparePartialUploadResponseResult where
  | normal
  | unfinished
  | flashUpload
  | conflictedId
  deriving DecidableEq, Repr

structure PreparePartialUploadResponse where
  result : PreparePartialUploadResponseResult
  id : Uuid
  deriving DecidableEq, Repr

-- The four endpoints share this; `none` is an error without content.
def prepare (user : Option Uuid) (info : MoveRegistration) (count : Nat) :
    Act (Option PreparePartialUploadResponse) := do
  match ← Effect.attempt (FileMoveService.ifPossibleDoFlashUpload info) with
  | .error (.flashUpload _ _ _ alreadyId) => pure (some ⟨.flashUpload, alreadyId⟩)
  | .error _ => pure none
  | .ok _ =>
    match ← Effect.attempt (MultipartService.create info.metaId info.hash info.hashAlgorithm
      count) with
    | .error (.conflictedId id) => pure (some ⟨.conflictedId, id⟩)
    | .error (.conflictedHash id _) => pure (some ⟨.unfinished, id⟩)
    | .error _ => pure none
    | .ok _ =>
      match ← Effect.attempt (FileMoveService.registerMove user info) with
      | .error _ => pure none
      | .ok _ => pure (some ⟨.normal, info.metaId⟩)

structure PreparePartialUploadRequest where
  fileName : String
  hash : String
  hashAlgorithm : String
  size : Nat
  count : Nat
  deriving DecidableEq, Repr

namespace PreparePartialUploadRequest

def registration (r : PreparePartialUploadRequest) (id metaId : Uuid)
    (hashAlgorithm : HashAlgorithm) (destination : MoveDestination) (userId : Option Uuid) :
    MoveRegistration :=
  ⟨id, metaId, r.fileName, MultipartService.toUppercase r.hash, hashAlgorithm, r.size, destination,
    false, none, userId⟩

def withMetaId (fileMetadataId : Option Uuid) : Act Uuid :=
  match fileMetadataId with
  | some id => pure id
  | none => newV4

-- A user's own upload, for a draft or for the net disk.
def fromUser (user : Uuid) (kind : RecordNetDiskKind) (fileMetadataId : Option Uuid)
    (r : PreparePartialUploadRequest) : Act (Option PreparePartialUploadResponse) := do
  let metaId ← withMetaId fileMetadataId
  match HashAlgorithm.fromStr r.hashAlgorithm with
  | none => pure none
  | some hashAlgorithm => do
    let id ← newV4
    let destination := .storageServer (some ⟨.unkonwn, kind⟩)
    prepare (some user) (r.registration id metaId hashAlgorithm destination none) r.count

def fromFlowEditor (user flowDraftUuid : Uuid) (fileMetadataId : Option Uuid)
    (r : PreparePartialUploadRequest) : Act (Option PreparePartialUploadResponse) :=
  fromUser user (.flowDraft flowDraftUuid) fileMetadataId r

def fromNetDisk (user : Uuid) (parentId fileMetadataId : Option Uuid)
    (r : PreparePartialUploadRequest) : Act (Option PreparePartialUploadResponse) :=
  fromUser user (.normal parentId) fileMetadataId r

-- An agent's upload on behalf of a node's user.
def fromNode (nodeId metaId : Uuid) (destination : MoveDestination)
    (r : PreparePartialUploadRequest) : Act (Option PreparePartialUploadResponse) := do
  match HashAlgorithm.fromStr r.hashAlgorithm with
  | none => pure none
  | some hashAlgorithm => do
    let env ← .read
    match ← Effect.attempt call with
    | .error _ => pure none
    | .ok k =>
      match env.nodeUser k nodeId with
      | none => pure none
      | some userId => do
        let id ← newV4
        prepare none (r.registration id metaId hashAlgorithm destination (some userId)) r.count

def fromNodeInstance (nodeInstanceUuid fileMetadataId : Uuid) (r : PreparePartialUploadRequest) :
    Act (Option PreparePartialUploadResponse) :=
  fromNode nodeInstanceUuid fileMetadataId
    (.storageServer (some ⟨.unkonwn, .nodeInstance nodeInstanceUuid⟩)) r

def fromSnapshot (nodeId fileId : Uuid) (timestamp : Int64) (r : PreparePartialUploadRequest) :
    Act (Option PreparePartialUploadResponse) := do
  let metaId ← newV4
  fromNode nodeId metaId (.snapshot nodeId timestamp fileId) r

end PreparePartialUploadRequest

def partialUpload (part : Part) : Act Unit := do
  match ← Effect.attempt (MultipartService.completePart part) with
  | .ok [] => FileMoveService.doRegisteredMoves part.metaId
  | .ok _ => pure ()
  | .error (.differentHashs _ origin completed) => do
    let _ ← Effect.attempt (FileMoveService.setAllMovesWithSameMetaIdAsFailed part.metaId
      s!"Original hash: {origin}. Completed hash: {completed}")
    pure ()
  | .error _ => pure ()

-- What reaches the file service, from any client and in any order. A lease that runs out takes its
-- redis key away.
inductive Request where
  | flowEditor (user flowDraftUuid : Uuid) (fileMetadataId : Option Uuid)
      (r : PreparePartialUploadRequest)
  | netDisk (user : Uuid) (parentId fileMetadataId : Option Uuid) (r : PreparePartialUploadRequest)
  | nodeInstance (nodeInstanceUuid fileMetadataId : Uuid) (r : PreparePartialUploadRequest)
  | snapshot (nodeId fileId : Uuid) (timestamp : Int64) (r : PreparePartialUploadRequest)
  | part (p : Part)
  | retry (metaId : Uuid)
  | deliver (cmd : FileUploadCommand)
  | expire (key : String)
  deriving DecidableEq

namespace Request

def serve : Request → Act Unit
  | .flowEditor user flowDraftUuid fileMetadataId r => do
    let _ ← r.fromFlowEditor user flowDraftUuid fileMetadataId
    pure ()
  | .netDisk user parentId fileMetadataId r => do
    let _ ← r.fromNetDisk user parentId fileMetadataId
    pure ()
  | .nodeInstance nodeInstanceUuid fileMetadataId r => do
    let _ ← r.fromNodeInstance nodeInstanceUuid fileMetadataId
    pure ()
  | .snapshot nodeId fileId timestamp r => do
    let _ ← r.fromSnapshot nodeId fileId timestamp
    pure ()
  | .part p => partialUpload p
  | .retry metaId => FileMoveService.doRegisteredMoves metaId
  | .deliver cmd => FileUploadRunner.uploadFile cmd
  | .expire key => .modify (fun d => { d with
      moves := deleteKeys d.moves [key]
      multiparts := deleteKeys d.multiparts [key] })

end Request

def step (env : Env) (d : Depot) (q : Request) : Depot := (q.serve env d).2

section Samples

def upEnv : Env where
  fails _ := false
  keys _ := .asIs _
  rows _ := .asIs _
  nodeUser _ _ := some 5
  server _ := some 3
  blake3 content := String.ofList (content.map fun b => Char.ofNat b.toNat)

def emptyDepot : Depot where
  parts := []
  normal := []
  snapshotFiles := []
  moves := []
  multiparts := []
  snapshots := []
  metas := []
  storages := []
  netDisk := []
  uploads := []
  objects := []
  ids n := 500 + n
  calls := 0

end Samples

end Kuintessence.Storage

import Kuintessence.Storage.Depot

namespace Kuintessence.Storage

namespace MultipartService

def idHashKey (id : Uuid) (hash : String) : String := s!"multipart_{uuidText id}_{hash}"

def idKeyRegex (id : Uuid) : String := s!"multipart_{uuidText id}_*"

def hashKeyRegex (hash : String) : String := s!"multipart_*_{hash}"

def create (metaId : Uuid) (hash : String) (hashAlgorithm : HashAlgorithm) (count : Nat) :
    Act Unit := do
  match ← MultipartRepo.getOneByKeyRegex (hashKeyRegex hash) with
  | some el => .throw (.conflictedHash el.metaId hash)
  | none =>
    match ← MultipartRepo.getOneByKeyRegex (idKeyRegex metaId) with
    | some _ => .throw (.conflictedId metaId)
    | none => do
      let multipart : Multipart := ⟨metaId, hash, hashAlgorithm, .replicate count false⟩
      MultipartRepo.write (idHashKey metaId hash) multipart

def unfinishedParts (parts : List Bool) : List Nat :=
  (List.range parts.length).filter fun n => parts[n]? == some false

def toUppercase (hash : String) : String := hash.map Char.toUpper

def merge (metaId : Uuid) (multipart : Multipart) : Act Unit := do
  let env ← .read
  let contents ← Effect.mapEach (CacheService.readPart metaId) (List.range multipart.parts.length)
  let completedHash := toUppercase (env.blake3 contents.flatten)
  if completedHash ≠ multipart.hash then
    .throw (.differentHashs metaId multipart.hash completedHash)
  else do
    CacheService.writeNormal metaId contents.flatten
    CacheService.removeMultipartDir metaId

def completePart (part : Part) : Act (List Nat) := do
  CacheService.writePart part
  match ← MultipartRepo.getOneByKeyRegex (idKeyRegex part.metaId) with
  | none => .throw (.multipartNotFound part.metaId)
  | some multipart =>
    if part.nth < multipart.parts.length then do
      let multipart := { multipart with parts := multipart.parts.set part.nth true }
      MultipartRepo.write (idHashKey part.metaId multipart.hash) multipart
      let unfinished := unfinishedParts multipart.parts
      if unfinished.isEmpty then do
        merge part.metaId multipart
        pure []
      else pure unfinished
    else .throw (.noSuchPart part.metaId part.nth)

def remove (metaId : Uuid) : Act Unit := do
  MultipartRepo.deleteByKeyRegex (idKeyRegex metaId)
  let _ ← Effect.attempt (CacheService.removeMultipartDir metaId)
  pure ()

end MultipartService

namespace SnapshotService

def completeKey (record : Snapshot) : String :=
  s!"snapshot_{uuidText record.id}_{uuidText record.nodeId}_{uuidText record.fileId}_" ++
    s!"{record.timestamp}_{record.hashAlgorithm.toString}_{record.hash}"

def hashKeyRegex (hash : String) (hashAlgorithm : HashAlgorithm) : String :=
  s!"snapshot_*_*_*_*_{hashAlgorithm.toString}_{hash}"

def createRecord (snapshot : Snapshot) : Act Unit :=
  SnapshotRepo.insertWithLease (completeKey snapshot) snapshot

def create (snapshot : Snapshot) : Act Unit := do
  CacheService.changeNormalToSnapshot snapshot.metaId
  createRecord snapshot

def satisfyFlashUpload (hash : String) (hashAlgorithm : HashAlgorithm) : Act (Option Uuid) := do
  let snapshot ← SnapshotRepo.getOneByKeyRegex (hashKeyRegex hash hashAlgorithm)
  pure (snapshot.map Snapshot.metaId)

end SnapshotService

namespace MetaStorageService

-- One transaction: a second row for the file's id breaks the primary key.
def recordMetaAndStorage (fileMeta : FileMeta) (storageServerId userId : Uuid) : Act Unit := do
  let _ ← call
  let d ← .get
  if d.metas.any (fun row => row.id == fileMeta.id) then fail "statement failed"
  else .modify (fun d => { d with
    metas := d.metas ++ [fileMeta]
    storages := d.storages ++ [⟨storageServerId, fileMeta.id, userId⟩] })

def satisfyFlashUpload (hash : String) (hashAlgorithm : HashAlgorithm) : Act (Option Uuid) := do
  let env ← .read
  let k ← call
  let d ← .get
  pure (((env.rows k).on (d.metas.filter fun row =>
    row.hash == hash && row.hashAlgorithm == hashAlgorithm)).head?.map FileMeta.id)

end MetaStorageService

namespace NetDiskService

def createFile (command : CreateNetDiskFileCommand) : Act Unit := do
  let _ ← call
  .modify (fun d => { d with netDisk := d.netDisk ++ [command] })

def record (metaId : Uuid) (fileName : String) : Option RecordNetDisk → Act Unit
  | none => pure ()
  | some el => createFile ⟨metaId, fileName, el.fileType, el.kind⟩

end NetDiskService

namespace FileMoveService

def key (moveId metaId : Uuid) : String := s!"movereg_{uuidText moveId}_{uuidText metaId}"

def metaIdKeyRegex (metaId : Uuid) : String := s!"movereg_*_{uuidText metaId}"

def moveIdKeyRegex (moveId : Uuid) : String := s!"movereg_{uuidText moveId}_*"

def registerMove (user : Option Uuid) (info : MoveRegistration) : Act Unit :=
  MoveRegistrationRepo.insertWithLease user (key info.id info.metaId) info

def snapshotOf (info : MoveRegistration) (metaId nodeId fileId : Uuid) (timestamp : Int64) :
    Act Snapshot := do
  let id ← newV4
  let userId ← orFail "No user_id when insert snapshot" info.userId
  pure ⟨id, metaId, nodeId, fileId, timestamp, info.fileName, info.size, info.hash,
    info.hashAlgorithm, userId⟩

def doMove (info : MoveRegistration) : Act Unit :=
  match info.destination with
  | .snapshot nodeId timestamp fileId => do
    let snapshot ← snapshotOf info info.metaId nodeId fileId timestamp
    SnapshotService.create snapshot
    MultipartService.remove info.metaId
    MoveRegistrationRepo.removeAllByKeyRegex (metaIdKeyRegex info.metaId)
  | .storageServer _ => do
    let user ← MoveRegistrationRepo.getUserByKeyRegex (moveIdKeyRegex info.id)
    let userId ← orFail "No such move_id" user
    let _ ← call
    .modify (fun d => { d with uploads := d.uploads ++ [⟨info.id, userId⟩] })

def doRegisteredMoves (metaId : Uuid) : Act Unit := do
  let registrations ← MoveRegistrationRepo.getAllByKeyRegex (metaIdKeyRegex metaId)
  Effect.each doMove registrations

def ifPossibleDoFlashUpload (info : MoveRegistration) : Act Unit :=
  match info.destination with
  | .snapshot nodeId timestamp fileId => do
    match ← SnapshotService.satisfyFlashUpload info.hash info.hashAlgorithm with
    | none => pure ()
    | some alreadyId => do
      let snapshot ← snapshotOf info alreadyId nodeId fileId timestamp
      SnapshotService.createRecord snapshot
      .throw (.flashUpload "Snapshot" info.hash info.metaId alreadyId)
  | .storageServer recordNetDisk => do
    match ← MetaStorageService.satisfyFlashUpload info.hash info.hashAlgorithm with
    | none => pure ()
    | some alreadyId => do
      NetDiskService.record alreadyId info.fileName recordNetDisk
      .throw (.flashUpload "StorageServer" info.hash info.metaId alreadyId)

def markFailed (failedReason : String) (info : MoveRegistration) : MoveRegistration :=
  { info with isUploadFailed := true, failedReason := some failedReason }

def setAllMovesWithSameMetaIdAsFailed (metaId : Uuid) (failedReason : String) : Act Unit := do
  let infos ← MoveRegistrationRepo.getAllByKeyRegex (metaIdKeyRegex metaId)
  Effect.each (fun info =>
    MoveRegistrationRepo.updateWithLease (key info.id metaId) (markFailed failedReason info)) infos

def getMoveInfo (moveId : Uuid) : Act (Option MoveRegistration) :=
  MoveRegistrationRepo.getOneByKeyRegex (moveIdKeyRegex moveId)

def getUserId (moveId : Uuid) : Act (Option Uuid) :=
  MoveRegistrationRepo.getUserByKeyRegex (moveIdKeyRegex moveId)

def setMoveAsFailed (moveId : Uuid) (failedReason : String) : Act Unit := do
  let info ← getMoveInfo moveId
  let info ← orFail "No such move with id" info
  MoveRegistrationRepo.updateWithLease (key moveId info.metaId) (markFailed failedReason info)

def removeAllWithMetaId (metaId : Uuid) : Act Unit :=
  MoveRegistrationRepo.removeAllByKeyRegex (metaIdKeyRegex metaId)

end FileMoveService

namespace StorageServer

def upload (metaId : Uuid) (content : Bytes) : Act Uuid := do
  let env ← .read
  let k ← call
  let server ← orFail "no default storage server" (env.server k)
  let _ ← call
  .modify (fun d => { d with objects := Assoc.insert d.objects (server, metaId) content })
  pure server

end StorageServer

namespace FileUploadRunner

def destinationRecord : MoveDestination → Act (Option RecordNetDisk)
  | .storageServer recordNetDisk => pure recordNetDisk
  | .snapshot _ _ _ => fail "Unreachable destination when run file upload."

def store (moveId : Uuid) (info : MoveRegistration) (content : Bytes) : Act Uuid := do
  match ← Effect.attempt (StorageServer.upload info.metaId content) with
  | .ok server => pure server
  | .error _ => do
    FileMoveService.setMoveAsFailed moveId "upload failed"
    fail "Error when upload file"

def uploadFile (cmd : FileUploadCommand) : Act Unit := do
  let info ← FileMoveService.getMoveInfo cmd.moveId
  let info ← orFail "No such move info id" info
  let userId ← FileMoveService.getUserId cmd.moveId
  let userId ← orFail "No such move info id" userId
  let recordNetDisk ← destinationRecord info.destination
  let content ← CacheService.readNormal info.metaId
  let server ← store cmd.moveId info content
  MetaStorageService.recordMetaAndStorage
    ⟨info.metaId, info.fileName, info.hash, info.hashAlgorithm, info.size⟩ server userId
  NetDiskService.record info.metaId info.fileName recordNetDisk
  CacheService.removeNormal info.metaId
  MultipartService.remove info.metaId
  FileMoveService.removeAllWithMetaId info.metaId

end FileUploadRunner

end Kuintessence.Storage

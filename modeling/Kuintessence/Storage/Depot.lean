import Kuintessence.Lib.Effect
import Kuintessence.Lib.Glob
import Kuintessence.Protocol.Task

namespace Kuintessence.Storage

abbrev Bytes := List UInt8

def uuidText (id : Uuid) : String := Protocol.UuidText.hyphenated.text id

inductive HashAlgorithm where
  | blake3
  deriving DecidableEq, Repr

namespace HashAlgorithm

def toString : HashAlgorithm → String
  | .blake3 => "blake3"

def fromStr (s : String) : Option HashAlgorithm := if s = "blake3" then some .blake3 else none

end HashAlgorithm

inductive RecordNetDiskKind where
  | flowDraft (flowDraftId : Uuid)
  | nodeInstance (nodeId : Uuid)
  | normal (parentId : Option Uuid)
  deriving DecidableEq, Repr

inductive FileType where
  | unkonwn
  | text
  | folder
  deriving DecidableEq, Repr

structure RecordNetDisk where
  fileType : FileType
  kind : RecordNetDiskKind
  deriving DecidableEq, Repr

inductive MoveDestination where
  | snapshot (nodeId : Uuid) (timestamp : Int64) (fileId : Uuid)
  | storageServer (recordNetDisk : Option RecordNetDisk)
  deriving DecidableEq, Repr

structure MoveRegistration where
  id : Uuid
  metaId : Uuid
  fileName : String
  hash : String
  hashAlgorithm : HashAlgorithm
  size : Nat
  destination : MoveDestination
  isUploadFailed : Bool
  failedReason : Option String
  userId : Option Uuid
  deriving DecidableEq, Repr

structure Multipart where
  metaId : Uuid
  hash : String
  hashAlgorithm : HashAlgorithm
  parts : List Bool
  deriving DecidableEq, Repr

structure Part where
  metaId : Uuid
  nth : Nat
  content : Bytes
  deriving DecidableEq, Repr

structure Snapshot where
  id : Uuid
  metaId : Uuid
  nodeId : Uuid
  fileId : Uuid
  timestamp : Int64
  fileName : String
  size : Nat
  hash : String
  hashAlgorithm : HashAlgorithm
  userId : Uuid
  deriving DecidableEq, Repr

structure FileMeta where
  id : Uuid
  name : String
  hash : String
  hashAlgorithm : HashAlgorithm
  size : Nat
  deriving DecidableEq, Repr

structure FileStorage where
  storageServerId : Uuid
  metaId : Uuid
  createdUserId : Uuid
  deriving DecidableEq, Repr

structure CreateNetDiskFileCommand where
  metaId : Uuid
  fileName : String
  fileType : FileType
  kind : RecordNetDiskKind
  deriving DecidableEq, Repr

structure FileUploadCommand where
  moveId : Uuid
  userId : Uuid
  deriving DecidableEq, Repr

-- The cache directory, the redis keys, the database rows and the object store.
structure Depot where
  parts : List ((Uuid × Nat) × Bytes)
  normal : List (Uuid × Bytes)
  snapshotFiles : List (Uuid × Bytes)
  moves : List (String × MoveRegistration)
  multiparts : List (String × Multipart)
  snapshots : List (String × Snapshot)
  metas : List FileMeta
  storages : List FileStorage
  netDisk : List CreateNetDiskFileCommand
  uploads : List FileUploadCommand
  objects : List ((Uuid × Uuid) × Bytes)
  ids : Nat → Uuid
  calls : Nat

inductive Exception where
  | flashUpload (destination hash : String) (metaId alreadyId : Uuid)
  | conflictedId (id : Uuid)
  | conflictedHash (id : Uuid) (hash : String)
  | multipartNotFound (id : Uuid)
  | noSuchPart (id : Uuid) (nth : Nat)
  | differentHashs (id : Uuid) (origin completed : String)
  | anyhow (message : String)
  deriving DecidableEq, Repr

-- What the file service does not decide itself; `k` counts the external calls made so far.
structure Env where
  fails : Nat → Bool
  keys : Nat → Order String
  rows : Nat → Order FileMeta
  nodeUser : Nat → Uuid → Option Uuid
  server : Nat → Option Uuid
  blake3 : Bytes → String

abbrev Act (α : Type) := Effect Env Depot Exception α

def fail {α : Type} (message : String) : Act α := .throw (.anyhow message)

def call : Act Nat := do
  let env ← .read
  let d ← .get
  .modify (fun d => { d with calls := d.calls + 1 })
  if env.fails d.calls then fail "external call failed" else pure d.calls

def newV4 : Act Uuid := do
  let d ← .get
  .modify (fun d => { d with ids := fun n => d.ids (n + 1) })
  pure (d.ids 0)

def orFail {α : Type} (message : String) : Option α → Act α
  | some a => pure a
  | none => fail message

section Redis

variable {α : Type}

def queryKeys (entries : List (String × α)) (regex : String) : Act (List String) := do
  let env ← .read
  let k ← call
  pure ((env.keys k).on ((Assoc.keys entries).filter (glob regex)))

def valuesOf (entries : List (String × α)) (keys : List String) : List α :=
  keys.filterMap (Assoc.get entries)

def deleteKeys (entries : List (String × α)) (keys : List String) : List (String × α) :=
  entries.filter (fun e => !keys.contains e.1)

end Redis

def anyUserKeyRegex (regex : String) : String := "*_" ++ regex

namespace MoveRegistrationRepo

def insertWithLease (user : Option Uuid) (key : String) (entity : MoveRegistration) : Act Unit := do
  let userId ← orFail "No user info when redis need it." (entity.userId.or user)
  let _ ← call
  .modify (fun d => { d with moves := Assoc.insert d.moves (uuidText userId ++ "_" ++ key) entity })

def updateWithLease (key : String) (entity : MoveRegistration) : Act Unit := do
  let d ← .get
  let keys ← queryKeys d.moves (anyUserKeyRegex key)
  let key ← orFail "No such move info" keys.head?
  let _ ← call
  .modify (fun d => { d with moves := Assoc.insert d.moves key entity })

def getAllByKeyRegex (regex : String) : Act (List MoveRegistration) := do
  let d ← .get
  let keys ← queryKeys d.moves (anyUserKeyRegex regex)
  pure (valuesOf d.moves keys)

def getOneByKeyRegex (regex : String) : Act (Option MoveRegistration) := do
  let d ← .get
  let keys ← queryKeys d.moves (anyUserKeyRegex regex)
  pure (keys.head?.bind (Assoc.get d.moves))

def getUserByKeyRegex (regex : String) : Act (Option Uuid) := do
  let d ← .get
  let keys ← queryKeys d.moves (anyUserKeyRegex regex)
  match keys.head? with
  | none => pure none
  | some key => do
    let text := String.ofList (key.toList.takeWhile (· ≠ '_'))
    let user ← orFail "invalid uuid" (Protocol.UuidText.hyphenated.parse text)
    pure (some user)

-- `DEL` without a key is an error.
def removeAllByKeyRegex (regex : String) : Act Unit := do
  let d ← .get
  let keys ← queryKeys d.moves (anyUserKeyRegex regex)
  if keys.isEmpty then fail "wrong number of arguments for 'del' command"
  else .modify (fun d => { d with moves := deleteKeys d.moves keys })

end MoveRegistrationRepo

namespace MultipartRepo

def write (key : String) (entity : Multipart) : Act Unit := do
  let _ ← call
  .modify (fun d => { d with multiparts := Assoc.insert d.multiparts key entity })

def getOneByKeyRegex (regex : String) : Act (Option Multipart) := do
  let d ← .get
  let keys ← queryKeys d.multiparts regex
  pure (keys.head?.bind (Assoc.get d.multiparts))

def deleteByKeyRegex (regex : String) : Act Unit := do
  let d ← .get
  let keys ← queryKeys d.multiparts regex
  let key ← orFail "No such multipart" keys.head?
  .modify (fun d => { d with multiparts := deleteKeys d.multiparts [key] })

end MultipartRepo

namespace SnapshotRepo

def insertWithLease (key : String) (entity : Snapshot) : Act Unit := do
  let _ ← call
  .modify (fun d => { d with
    snapshots := Assoc.insert d.snapshots (uuidText entity.userId ++ "_" ++ key) entity })

def getOneByKeyRegex (regex : String) : Act (Option Snapshot) := do
  let d ← .get
  let keys ← queryKeys d.snapshots (anyUserKeyRegex regex)
  pure (keys.head?.bind (Assoc.get d.snapshots))

end SnapshotRepo

namespace CacheService

def writeNormal (metaId : Uuid) (content : Bytes) : Act Unit := do
  let _ ← call
  .modify (fun d => { d with normal := Assoc.insert d.normal metaId content })

def writePart (part : Part) : Act Unit := do
  let _ ← call
  .modify (fun d => { d with parts := Assoc.insert d.parts (part.metaId, part.nth) part.content })

def removeMultipartDir (metaId : Uuid) : Act Unit := do
  let _ ← call
  let d ← .get
  if d.parts.any (fun e => e.1.1 == metaId) then
    .modify (fun d => { d with parts := d.parts.filter (fun e => e.1.1 != metaId) })
  else fail "No such file or directory"

def readNormal (metaId : Uuid) : Act Bytes := do
  let _ ← call
  let d ← .get
  orFail "No such file or directory" (Assoc.get d.normal metaId)

def readPart (metaId : Uuid) (nth : Nat) : Act Bytes := do
  let _ ← call
  let d ← .get
  orFail "No such file or directory" (Assoc.get d.parts (metaId, nth))

def removeNormal (metaId : Uuid) : Act Unit := do
  let _ ← readNormal metaId
  .modify (fun d => { d with normal := d.normal.filter (fun e => e.1 != metaId) })

def changeNormalToSnapshot (metaId : Uuid) : Act Unit := do
  let content ← readNormal metaId
  .modify (fun d => { d with
    normal := d.normal.filter (fun e => e.1 != metaId)
    snapshotFiles := Assoc.insert d.snapshotFiles metaId content })

end CacheService

end Kuintessence.Storage

import Kuintessence.Lib.Run
import Kuintessence.Storage.Endpoints

namespace Kuintessence.Storage

open Effect

-- No content waits in the cache under the id.
def Uncached (id : Uuid) (d : Depot) : Prop := id ∉ Assoc.keys d.normal

def Depot.rowsOf (d : Depot) (id : Uuid) : List FileMeta := d.metas.filter (fun row => row.id = id)

structure Undisturbed (id : Uuid) (s t : Depot) : Prop where
  uncached : Uncached id s → Uncached id t
  rows : Uncached id s → t.rowsOf id = s.rowsOf id
  objects : Uncached id s → ∀ server,
    Assoc.get t.objects (server, id) = Assoc.get s.objects (server, id)

def idFrame (id : Uuid) : Frame Depot where
  rel := Undisturbed id
  refl _ := ⟨fun h => h, fun _ => rfl, fun _ _ => rfl⟩
  trans h h' := ⟨fun hs => h'.uncached (h.uncached hs),
    fun hs => (h'.rows (h.uncached hs)).trans (h.rows hs),
    fun hs server => (h'.objects (h.uncached hs) server).trans (h.objects hs server)⟩

section Untouched

variable {id : Uuid} {α β : Type}

theorem untouched {s t : Depot} (hnormal : t.normal = s.normal) (hobjects : t.objects = s.objects)
    (hmetas : t.metas = s.metas) : Undisturbed id s t := by
  refine ⟨fun h => ?_, fun _ => ?_, fun _ _ => ?_⟩
  · rw [Uncached, hnormal]
    exact h
  · rw [Depot.rowsOf, hmetas, Depot.rowsOf]
  · rw [hobjects]

theorem keeps_untouched {f : Depot → Depot} (hnormal : ∀ d, (f d).normal = d.normal)
    (hobjects : ∀ d, (f d).objects = d.objects) (hmetas : ∀ d, (f d).metas = d.metas) :
    Keeps (idFrame id) (modify f : Act Unit) :=
  keeps_modify fun d => untouched (hnormal d) (hobjects d) (hmetas d)

theorem keeps_fail (message : String) : Keeps (idFrame id) (fail message : Act α) :=
  keeps_throw _

theorem keeps_call : Keeps (idFrame id) call := by
  refine keeps_read.bind fun env => keeps_get.bind fun d => Keeps.bind ?_ fun _ => ?_
  · exact keeps_untouched (fun _ => rfl) (fun _ => rfl) fun _ => rfl
  split
  · exact keeps_fail _
  · exact keeps_pure _

theorem keeps_newV4 : Keeps (idFrame id) newV4 := by
  refine keeps_get.bind fun d => Keeps.bind ?_ fun _ => keeps_pure _
  exact keeps_untouched (fun _ => rfl) (fun _ => rfl) fun _ => rfl

theorem keeps_orFail (message : String) (o : Option α) :
    Keeps (idFrame id) (orFail message o) := by
  cases o with
  | none => exact keeps_fail message
  | some a => exact keeps_pure a

theorem keeps_queryKeys (entries : List (String × α)) (regex : String) :
    Keeps (idFrame id) (queryKeys entries regex) :=
  keeps_read.bind fun _ => keeps_call.bind fun _ => keeps_pure _

end Untouched

section Repositories

variable {id : Uuid}

theorem keeps_insertMove (user : Option Uuid) (key : String) (entity : MoveRegistration) :
    Keeps (idFrame id) (MoveRegistrationRepo.insertWithLease user key entity) :=
  (keeps_orFail _ _).bind fun _ => keeps_call.bind fun _ =>
    keeps_untouched (fun _ => rfl) (fun _ => rfl) fun _ => rfl

theorem keeps_updateMove (key : String) (entity : MoveRegistration) :
    Keeps (idFrame id) (MoveRegistrationRepo.updateWithLease key entity) :=
  keeps_get.bind fun _ => (keeps_queryKeys _ _).bind fun _ => (keeps_orFail _ _).bind fun _ =>
    keeps_call.bind fun _ => keeps_untouched (fun _ => rfl) (fun _ => rfl) fun _ => rfl

theorem keeps_getMoves (regex : String) :
    Keeps (idFrame id) (MoveRegistrationRepo.getAllByKeyRegex regex) :=
  keeps_get.bind fun _ => (keeps_queryKeys _ _).bind fun _ => keeps_pure _

theorem keeps_getMove (regex : String) :
    Keeps (idFrame id) (MoveRegistrationRepo.getOneByKeyRegex regex) :=
  keeps_get.bind fun _ => (keeps_queryKeys _ _).bind fun _ => keeps_pure _

theorem keeps_getUser (regex : String) :
    Keeps (idFrame id) (MoveRegistrationRepo.getUserByKeyRegex regex) := by
  refine keeps_get.bind fun _ => (keeps_queryKeys _ _).bind fun keys => ?_
  split
  · exact keeps_pure _
  · exact (keeps_orFail _ _).bind fun _ => keeps_pure _

theorem keeps_removeMoves (regex : String) :
    Keeps (idFrame id) (MoveRegistrationRepo.removeAllByKeyRegex regex) := by
  refine keeps_get.bind fun _ => (keeps_queryKeys _ _).bind fun keys => ?_
  split
  · exact keeps_fail _
  · exact keeps_untouched (fun _ => rfl) (fun _ => rfl) fun _ => rfl

theorem keeps_writeMultipart (key : String) (entity : Multipart) :
    Keeps (idFrame id) (MultipartRepo.write key entity) :=
  keeps_call.bind fun _ => keeps_untouched (fun _ => rfl) (fun _ => rfl) fun _ => rfl

theorem keeps_getMultipart (regex : String) :
    Keeps (idFrame id) (MultipartRepo.getOneByKeyRegex regex) :=
  keeps_get.bind fun _ => (keeps_queryKeys _ _).bind fun _ => keeps_pure _

theorem keeps_deleteMultipart (regex : String) :
    Keeps (idFrame id) (MultipartRepo.deleteByKeyRegex regex) :=
  keeps_get.bind fun _ => (keeps_queryKeys _ _).bind fun _ => (keeps_orFail _ _).bind fun _ =>
    keeps_untouched (fun _ => rfl) (fun _ => rfl) fun _ => rfl

theorem keeps_createRecord (snapshot : Snapshot) :
    Keeps (idFrame id) (SnapshotService.createRecord snapshot) :=
  keeps_call.bind fun _ => keeps_untouched (fun _ => rfl) (fun _ => rfl) fun _ => rfl

theorem keeps_writePart (part : Part) : Keeps (idFrame id) (CacheService.writePart part) :=
  keeps_call.bind fun _ => keeps_untouched (fun _ => rfl) (fun _ => rfl) fun _ => rfl

theorem keeps_removeMultipartDir (metaId : Uuid) :
    Keeps (idFrame id) (CacheService.removeMultipartDir metaId) := by
  refine keeps_call.bind fun _ => keeps_get.bind fun d => ?_
  split
  · exact keeps_untouched (fun _ => rfl) (fun _ => rfl) fun _ => rfl
  · exact keeps_fail _

theorem keeps_readNormal (metaId : Uuid) : Keeps (idFrame id) (CacheService.readNormal metaId) :=
  keeps_call.bind fun _ => keeps_get.bind fun _ => keeps_orFail _ _

theorem keeps_readPart (metaId : Uuid) (nth : Nat) :
    Keeps (idFrame id) (CacheService.readPart metaId nth) :=
  keeps_call.bind fun _ => keeps_get.bind fun _ => keeps_orFail _ _

theorem undisturbed_dropNormal (metaId : Uuid) {s t : Depot}
    (hnormal : t.normal = s.normal.filter (fun e => e.1 != metaId))
    (hobjects : t.objects = s.objects) (hmetas : t.metas = s.metas) : Undisturbed id s t := by
  refine ⟨fun h => ?_, fun _ => ?_, fun _ _ => ?_⟩
  · rw [Uncached, hnormal]
    exact fun hin => h (List.map_subset _ (List.filter_subset_self _) hin)
  · rw [Depot.rowsOf, hmetas, Depot.rowsOf]
  · rw [hobjects]

theorem keeps_removeNormal (metaId : Uuid) :
    Keeps (idFrame id) (CacheService.removeNormal metaId) :=
  (keeps_readNormal metaId).bind fun _ => keeps_modify fun _ => undisturbed_dropNormal metaId rfl rfl rfl

theorem keeps_changeNormalToSnapshot (metaId : Uuid) :
    Keeps (idFrame id) (CacheService.changeNormalToSnapshot metaId) :=
  (keeps_readNormal metaId).bind fun _ => keeps_modify fun _ => undisturbed_dropNormal metaId rfl rfl rfl

theorem keeps_writeNormal {metaId : Uuid} (h : metaId ≠ id) (content : Bytes) :
    Keeps (idFrame id) (CacheService.writeNormal metaId content) := by
  refine keeps_call.bind fun _ => keeps_modify fun d => ⟨fun hd => ?_, fun _ => rfl, fun _ _ => rfl⟩
  rw [Uncached, Assoc.mem_keys_insert, not_or]
  exact ⟨hd, Ne.symm h⟩

theorem keeps_uploadObject {metaId : Uuid} (h : metaId ≠ id) (content : Bytes) :
    Keeps (idFrame id) (StorageServer.upload metaId content) := by
  have hinsert (server : Uuid) : Keeps (idFrame id) (modify fun d =>
      { d with objects := Assoc.insert d.objects (server, metaId) content } : Act Unit) := by
    refine keeps_modify fun d => ⟨fun hd => hd, fun _ => rfl, fun _ other => ?_⟩
    rw [Assoc.get_insert, if_neg fun heq => h (Prod.ext_iff.mp heq).2.symm]
  exact keeps_read.bind fun _ => keeps_call.bind fun _ => (keeps_orFail _ _).bind fun server =>
    keeps_call.bind fun _ => (hinsert server).bind fun _ => keeps_pure _

theorem keeps_recordMeta {fileMeta : FileMeta} (h : fileMeta.id ≠ id) (server userId : Uuid) :
    Keeps (idFrame id) (MetaStorageService.recordMetaAndStorage fileMeta server userId) := by
  refine keeps_call.bind fun _ => keeps_get.bind fun d => ?_
  split
  · exact keeps_fail _
  · refine keeps_modify fun d => ⟨fun hd => hd, fun _ => ?_, fun _ _ => rfl⟩
    rw [Depot.rowsOf, List.filter_append, List.filter_cons_of_neg (by simpa using h),
      List.filter_nil, List.append_nil, Depot.rowsOf]

-- Nothing follows a read of the cache where it holds no content.
theorem keeps_afterRead {α : Type} (k : Bytes → Act α) :
    Keeps (idFrame id) (CacheService.readNormal id >>= k) := by
  intro env d
  by_cases hcached : Uncached id d
  · have hread : wp (CacheService.readNormal id) env (fun _ _ => False)
        ((idFrame id).rel d) d := by
      have hcall : wp call env (fun _ t => Undisturbed id d t) (Undisturbed id d) d :=
        (@keeps_call id).wp env d
      refine (wp_bind _ _).mpr (wp_mono hcall (fun _ t ht => ?_) fun t ht => ht)
      have hnone := Assoc.get_eq_none_iff.mpr (ht.uncached hcached)
      simp only [wp_bind, wp_get, hnone, orFail, fail, wp_throw]
      exact ht
    have hall : wp (CacheService.readNormal id >>= k) env
        (fun _ t => (idFrame id).rel d t) ((idFrame id).rel d) d :=
      (wp_bind _ _).mpr (wp_mono hread (fun _ _ hf => hf.elim) fun _ ht => ht)
    exact wp_final.mp hall
  · exact ⟨fun h => absurd h hcached, fun h => absurd h hcached, fun h => absurd h hcached⟩

end Repositories

section Services

variable {id : Uuid}

theorem keeps_createMultipart (metaId : Uuid) (hash : String) (hashAlgorithm : HashAlgorithm)
    (count : Nat) :
    Keeps (idFrame id) (MultipartService.create metaId hash hashAlgorithm count) := by
  refine (keeps_getMultipart _).bind fun same => ?_
  split
  · exact keeps_throw _
  · refine (keeps_getMultipart _).bind fun same => ?_
    split
    · exact keeps_throw _
    · exact keeps_writeMultipart _ _

theorem keeps_merge {metaId : Uuid} (h : metaId ≠ id) (multipart : Multipart) :
    Keeps (idFrame id) (MultipartService.merge metaId multipart) := by
  refine keeps_read.bind fun env => (Keeps.mapEach (keeps_readPart metaId) _).bind fun contents => ?_
  dsimp only
  split
  · exact keeps_throw _
  · exact (keeps_writeNormal h _).bind fun _ => keeps_removeMultipartDir _

theorem keeps_completePart {part : Part} (h : part.metaId ≠ id) :
    Keeps (idFrame id) (MultipartService.completePart part) := by
  refine (keeps_writePart part).bind fun _ => (keeps_getMultipart _).bind fun found => ?_
  split
  · exact keeps_throw _
  · split
    · refine (keeps_writeMultipart _ _).bind fun _ => ?_
      dsimp only
      split
      · exact (keeps_merge h _).bind fun _ => keeps_pure _
      · exact keeps_pure _
    · exact keeps_throw _

theorem keeps_removeMultipart (metaId : Uuid) :
    Keeps (idFrame id) (MultipartService.remove metaId) :=
  (keeps_deleteMultipart _).bind fun _ => (keeps_removeMultipartDir metaId).attempt.bind fun _ =>
    keeps_pure _

theorem keeps_record (metaId : Uuid) (fileName : String) (recordNetDisk : Option RecordNetDisk) :
    Keeps (idFrame id) (NetDiskService.record metaId fileName recordNetDisk) := by
  cases recordNetDisk with
  | none => exact keeps_pure _
  | some el =>
    exact keeps_call.bind fun _ => keeps_untouched (fun _ => rfl) (fun _ => rfl) fun _ => rfl

theorem keeps_snapshotOf (info : MoveRegistration) (metaId nodeId fileId : Uuid)
    (timestamp : Int64) :
    Keeps (idFrame id) (FileMoveService.snapshotOf info metaId nodeId fileId timestamp) :=
  keeps_newV4.bind fun _ => (keeps_orFail _ _).bind fun _ => keeps_pure _

theorem keeps_doMove (info : MoveRegistration) :
    Keeps (idFrame id) (FileMoveService.doMove info) := by
  unfold FileMoveService.doMove
  split
  · exact (keeps_snapshotOf _ _ _ _ _).bind fun _ =>
      ((keeps_changeNormalToSnapshot _).bind fun _ => keeps_createRecord _).bind fun _ =>
        (keeps_removeMultipart _).bind fun _ => keeps_removeMoves _
  · exact (keeps_getUser _).bind fun _ => (keeps_orFail _ _).bind fun _ => keeps_call.bind fun _ =>
      keeps_untouched (fun _ => rfl) (fun _ => rfl) fun _ => rfl

theorem keeps_doRegisteredMoves (metaId : Uuid) :
    Keeps (idFrame id) (FileMoveService.doRegisteredMoves metaId) :=
  (keeps_getMoves _).bind fun _ => Keeps.each keeps_doMove _

theorem keeps_ifPossibleDoFlashUpload (info : MoveRegistration) :
    Keeps (idFrame id) (FileMoveService.ifPossibleDoFlashUpload info) := by
  unfold FileMoveService.ifPossibleDoFlashUpload
  split
  · have hsatisfy := (keeps_get.bind fun d => (@keeps_queryKeys id _ d.snapshots
      (anyUserKeyRegex (SnapshotService.hashKeyRegex info.hash info.hashAlgorithm))).bind
        fun keys => keeps_pure (keys.head?.bind (Assoc.get d.snapshots)))
    refine (hsatisfy.bind fun _ => keeps_pure _).bind fun already => ?_
    split
    · exact keeps_pure _
    · exact (keeps_snapshotOf _ _ _ _ _).bind fun _ => (keeps_createRecord _).bind fun _ =>
        keeps_throw _
  · refine (keeps_read.bind fun _ => keeps_call.bind fun _ => keeps_get.bind fun _ =>
      keeps_pure _).bind fun already => ?_
    split
    · exact keeps_pure _
    · exact (keeps_record _ _ _).bind fun _ => keeps_throw _

theorem keeps_store {info : MoveRegistration} (h : info.metaId ≠ id) (moveId : Uuid)
    (content : Bytes) : Keeps (idFrame id) (FileUploadRunner.store moveId info content) := by
  refine (keeps_uploadObject h content).attempt.bind fun stored => ?_
  split
  · exact keeps_pure _
  · exact ((keeps_getMove _).bind fun _ => (keeps_orFail _ _).bind fun _ =>
      keeps_updateMove _ _).bind fun _ => keeps_fail _

theorem keeps_uploadFile (cmd : FileUploadCommand) :
    Keeps (idFrame id) (FileUploadRunner.uploadFile cmd) := by
  refine (keeps_getMove _).bind fun _ => (keeps_orFail _ _).bind fun info =>
    (keeps_getUser _).bind fun _ => (keeps_orFail _ _).bind fun userId => ?_
  have hdestination :
      Keeps (idFrame id) (FileUploadRunner.destinationRecord info.destination) := by
    cases info.destination with
    | snapshot nodeId timestamp fileId => exact keeps_fail _
    | storageServer recordNetDisk => exact keeps_pure _
  refine hdestination.bind fun recordNetDisk => ?_
  by_cases h : info.metaId = id
  · rw [h]
    exact keeps_afterRead _
  · exact (keeps_readNormal _).bind fun _ => (keeps_store h _ _).bind fun _ =>
      (keeps_recordMeta h _ _).bind fun _ => (keeps_record _ _ _).bind fun _ =>
        (keeps_removeNormal _).bind fun _ => (keeps_removeMultipart _).bind fun _ =>
          keeps_removeMoves _

end Services

section Requests

variable {id : Uuid}

theorem keeps_prepare (user : Option Uuid) (info : MoveRegistration) (count : Nat) :
    Keeps (idFrame id) (prepare user info count) := by
  refine (keeps_ifPossibleDoFlashUpload info).attempt.bind fun flash => ?_
  split
  · exact keeps_pure _
  · exact keeps_pure _
  · refine (keeps_createMultipart _ _ _ _).attempt.bind fun created => ?_
    split
    · exact keeps_pure _
    · exact keeps_pure _
    · exact keeps_pure _
    · refine (keeps_insertMove _ _ _).attempt.bind fun registered => ?_
      split
      · exact keeps_pure _
      · exact keeps_pure _

theorem keeps_fromUser (user : Uuid) (kind : RecordNetDiskKind) (fileMetadataId : Option Uuid)
    (r : PreparePartialUploadRequest) : Keeps (idFrame id) (r.fromUser user kind fileMetadataId) := by
  have hmeta : Keeps (idFrame id) (PreparePartialUploadRequest.withMetaId fileMetadataId) := by
    cases fileMetadataId with
    | none => exact keeps_newV4
    | some metaId => exact keeps_pure metaId
  refine hmeta.bind fun metaId => ?_
  split
  · exact keeps_pure _
  · exact keeps_newV4.bind fun _ => keeps_prepare _ _ _

theorem keeps_fromNode (nodeId metaId : Uuid) (destination : MoveDestination)
    (r : PreparePartialUploadRequest) :
    Keeps (idFrame id) (r.fromNode nodeId metaId destination) := by
  unfold PreparePartialUploadRequest.fromNode
  split
  · exact keeps_pure _
  · refine keeps_read.bind fun env => keeps_call.attempt.bind fun k => ?_
    split
    · exact keeps_pure _
    · split
      · exact keeps_pure _
      · exact keeps_newV4.bind fun _ => keeps_prepare _ _ _

theorem keeps_partialUpload {part : Part} (h : part.metaId ≠ id) :
    Keeps (idFrame id) (partialUpload part) := by
  refine (keeps_completePart h).attempt.bind fun completed => ?_
  split
  · exact keeps_doRegisteredMoves _
  · exact keeps_pure _
  · exact ((keeps_getMoves _).bind fun _ =>
      Keeps.each (fun _ => keeps_updateMove _ _) _).attempt.bind fun _ => keeps_pure _
  · exact keeps_pure _

def Request.handsIn (id : Uuid) : Request → Bool
  | .part p => p.metaId == id
  | _ => false

theorem keeps_serve {q : Request} (h : q.handsIn id = false) : Keeps (idFrame id) q.serve := by
  cases q with
  | flowEditor user flowDraftUuid fileMetadataId r =>
    exact (keeps_fromUser user _ fileMetadataId r).bind fun _ => keeps_pure _
  | netDisk user parentId fileMetadataId r =>
    exact (keeps_fromUser user _ fileMetadataId r).bind fun _ => keeps_pure _
  | nodeInstance nodeInstanceUuid fileMetadataId r =>
    exact (keeps_fromNode nodeInstanceUuid fileMetadataId _ r).bind fun _ => keeps_pure _
  | snapshot nodeId fileId timestamp r =>
    exact (keeps_newV4.bind fun _ => keeps_fromNode nodeId _ _ r).bind fun _ => keeps_pure _
  | part p =>
    have hne : p.metaId ≠ id := by simpa [Request.handsIn] using h
    exact keeps_partialUpload hne
  | retry metaId => exact keeps_doRegisteredMoves metaId
  | deliver cmd => exact keeps_uploadFile cmd
  | expire key => exact keeps_untouched (fun _ => rfl) (fun _ => rfl) fun _ => rfl

theorem step_undisturbed (env : Env) (d : Depot) {q : Request} (h : q.handsIn id = false) :
    Undisturbed id d (step env d q) := keeps_serve h env d

theorem run_undisturbed (env : Env) (d : Depot) {qs : List Request}
    (h : ∀ q ∈ qs, q.handsIn id = false) : Undisturbed id d (run (step env) d qs) := by
  have hstep : ∀ t q, Undisturbed id d t → Request.handsIn id q = false →
      Undisturbed id d (step env t q) :=
    fun t q ht hq => (idFrame id).trans ht (step_undisturbed env t hq)
  exact run_invariant hstep ((idFrame id).refl d) (Along.of_forall fun _ q hq => h q hq)

end Requests

end Kuintessence.Storage

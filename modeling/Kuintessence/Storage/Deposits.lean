import Kuintessence.Storage.Integrity

namespace Kuintessence.Storage.Deposits

open Effect SnapshotService

-- What the file service holds for each of its records.
structure Trustworthy (env : Env) (d : Depot) : Prop where
  rows : ∀ row ∈ d.metas, ∃ storage ∈ d.storages, storage.metaId = row.id ∧ ∃ content,
    Assoc.get d.objects (storage.storageServerId, row.id) = some content ∧
      digest env content = row.hash
  distinct : (d.metas.map FileMeta.id).Nodup
  snapshots : ∀ e ∈ d.snapshots, ∃ content,
    Assoc.get d.snapshotFiles e.2.metaId = some content ∧ digest env content = e.2.hash
  reads : ∀ id content t, SnapshotService.read id env d = (.ok content, t) →
    ∃ e ∈ t.snapshots, e.2.id = id ∧ digest env content = e.2.hash

section Flash

variable {c : Catalogue} {env : Env} {d : Depot} {id server : Uuid}

-- The content that an answer spares the client to send.
def Backed (env : Env) (hash : String) (id : Uuid) (d : Depot) : MoveDestination → Prop
  | .snapshot _ _ _ => ∃ content, Assoc.get d.snapshotFiles id = some content ∧
      digest env content = hash
  | .storageServer _ => ∃ server content, Assoc.get d.objects (server, id) = some content ∧
      digest env content = hash

theorem Kept.content (h : Kept c env id d) : ∃ content,
    Assoc.get d.snapshotFiles id = some content ∧ digest env content = c.hash id := by
  obtain ⟨content, hget⟩ := Option.ne_none_iff_exists'.mp (Assoc.get_eq_none_iff.not.mpr (not_not.mpr h.2))
  exact ⟨content, hget, h.1.files _ (Assoc.mem_of_get hget)⟩

theorem Stocked.content (h : Stocked c env server id d) : ∃ content,
    Assoc.get d.objects (server, id) = some content ∧ digest env content = c.hash id := by
  obtain ⟨content, hget⟩ := Option.ne_none_iff_exists'.mp (Assoc.get_eq_none_iff.not.mpr (not_not.mpr h.2))
  exact ⟨content, hget, h.1.objects _ (Assoc.mem_of_get hget)⟩

theorem Intact.stocked (h : Intact c env d) {row : FileMeta} (hrow : row ∈ d.metas) :
    ∃ storage ∈ d.storages, storage.metaId = row.id ∧
      Stocked c env storage.storageServerId row.id d := by
  have hin : row.id ∈ d.storages.map FileStorage.metaId := by
    rw [h.rows]
    exact List.mem_map_of_mem hrow
  obtain ⟨storage, hstorage, heq⟩ := List.mem_map.mp hin
  exact ⟨storage, hstorage, heq, h, heq ▸ h.stored storage hstorage⟩

theorem triple_snapshotFlash (id : Uuid) (hashAlgorithm : HashAlgorithm) :
    Triple (Intact c env) env (SnapshotService.satisfyFlashUpload (c.hash id) hashAlgorithm)
      (fun found d => Intact c env d ∧
        ∀ already, found = some already → Kept c env already d ∧ c.hash already = c.hash id)
      fun _ => Intact c env := by
  refine Triple.bind (triple_getSnapshot _) fun found => .pure fun t ht => ⟨ht.1, ?_⟩
  intro already halready
  obtain ⟨record, hrecord, rfl⟩ := Option.map_eq_some_iff.mp halready
  obtain ⟨key, hmem, hglob⟩ := ht.2.1 record hrecord
  obtain ⟨-, hhash, hfile⟩ := ht.1.snapshots _ hmem
  exact ⟨⟨ht.1, hfile⟩, hhash.symm.trans ((ht.1.glob_hash hmem hashAlgorithm).mp hglob)⟩

theorem triple_storageFlash (hash : String) (hashAlgorithm : HashAlgorithm) :
    Triple (Intact c env) env (MetaStorageService.satisfyFlashUpload hash hashAlgorithm)
      (fun found d => Intact c env d ∧
        ∀ already, found = some already → (∃ server, Stocked c env server already d) ∧
          c.hash already = hash)
      fun _ => Intact c env := by
  refine Upholds.andThen (V := fun _ => True) (.read trivial) fun r _ => ?_
  refine intact_call.andThen fun k _ => ?_
  refine Triple.bind (Q := fun d t => t = d ∧ Intact c env t) (.get fun d hd => ⟨rfl, hd⟩) fun d => ?_
  refine .pure ?_
  rintro t ⟨rfl, ht⟩
  refine ⟨ht, fun already halready => ?_⟩
  obtain ⟨row, hrow, rfl⟩ := Option.map_eq_some_iff.mp halready
  have hin := List.mem_filter.mp ((Order.mem_on _).mp (List.mem_of_mem_head? hrow))
  obtain ⟨storage, -, -, hstocked⟩ := ht.stocked hin.1
  refine ⟨⟨_, hstocked⟩, ?_⟩
  rw [← ht.metas row hin.1]
  rw [Bool.and_eq_true, beq_iff_eq] at hin
  exact hin.2.1

def Anyhow (e : Exception) : Prop := ∃ message, e = .anyhow message

theorem throws_call : Throws Anyhow call := by
  refine throws_read.bind fun env => throws_get.bind fun d => (throws_modify _).bind fun _ => ?_
  split
  · exact throws_throw ⟨_, rfl⟩
  · exact throws_pure _

theorem throws_orFail {α : Type} (message : String) (o : Option α) : Throws Anyhow (orFail message o) := by
  cases o with
  | none => exact throws_throw ⟨_, rfl⟩
  | some a => exact throws_pure a

theorem throws_snapshotFlash (hash : String) (hashAlgorithm : HashAlgorithm) :
    Throws Anyhow (SnapshotService.satisfyFlashUpload hash hashAlgorithm) := by
  refine Throws.bind (throws_get.bind fun d => ?_) fun _ => throws_pure _
  exact (throws_read.bind fun _ => throws_call.bind fun _ => throws_pure _).bind fun _ =>
    throws_pure _

theorem throws_storageFlash (hash : String) (hashAlgorithm : HashAlgorithm) :
    Throws Anyhow (MetaStorageService.satisfyFlashUpload hash hashAlgorithm) :=
  throws_read.bind fun _ => throws_call.bind fun _ => throws_get.bind fun _ => throws_pure _

theorem throws_newRecord (info : MoveRegistration) (metaId nodeId fileId : Uuid)
    (timestamp : Int64) : Throws Anyhow (do
      let snapshot ← FileMoveService.snapshotOf info metaId nodeId fileId timestamp
      SnapshotService.createRecord snapshot) := by
  refine Throws.bind ?_ fun snapshot => throws_call.bind fun _ => throws_modify _
  exact (throws_get.bind fun _ => (throws_modify _).bind fun _ => throws_pure _).bind fun _ =>
    (throws_orFail _ _).bind fun _ => throws_pure _

theorem throws_record (metaId : Uuid) (fileName : String) (recordNetDisk : Option RecordNetDisk) :
    Throws Anyhow (NetDiskService.record metaId fileName recordNetDisk) := by
  cases recordNetDisk with
  | none => exact throws_pure ()
  | some el => exact throws_call.bind fun _ => throws_modify _

-- How a preparation that is cut short ends.
def Spared (c : Catalogue) (env : Env) (info : MoveRegistration) (e : Option Exception) (d : Depot) :
    Prop :=
  Intact c env d ∧ ∀ kind hash metaId already,
    e = some (.flashUpload kind hash metaId already) → Backed env info.hash already d info.destination

theorem spared_of_throws {α : Type} {info : MoveRegistration} {P : Depot → Prop} {m : Act α}
    {Q : α → Depot → Prop} (h : Triple P env m Q fun _ => Intact c env) (hm : Throws Anyhow m) :
    Triple P env m Q (Spared c env info) := by
  refine h.throws hm fun e d hd he => ⟨hd, fun kind hash metaId already heq => ?_⟩
  obtain ⟨message, hmessage⟩ := he _ heq
  cases hmessage

theorem triple_flash {info : MoveRegistration} (h : Announced c info) :
    Triple (Intact c env) env (FileMoveService.ifPossibleDoFlashUpload info)
      (fun _ => Intact c env) (Spared c env info) := by
  unfold FileMoveService.ifPossibleDoFlashUpload
  split
  · next nodeId timestamp fileId hdestination =>
    have hflash := @triple_snapshotFlash c env info.metaId info.hashAlgorithm
    rw [← h] at hflash
    refine Triple.bind (spared_of_throws hflash (throws_snapshotFlash _ _)) fun found => ?_
    cases found with
    | none => exact .pure fun _ hd => hd.1
    | some already =>
      have hrecord : Triple (fun d => Kept c env already d ∧ c.hash already = info.hash) env (do
          let snapshot ← FileMoveService.snapshotOf info already nodeId fileId timestamp
          SnapshotService.createRecord snapshot)
          (fun _ d => Kept c env already d ∧ c.hash already = info.hash) fun _ => Intact c env := by
        rintro d ⟨hd, hhash⟩
        refine Triple.bind ((kept_snapshotOf nodeId fileId timestamp).conseq (fun _ hs => hs)
          (fun _ _ ht => ht) fun _ _ ht => ht.1) (fun snapshot => ?_) d hd
        rintro t ⟨ht, rfl, hsame⟩
        exact (kept_createRecord (hsame.trans hhash.symm)).conseq (fun _ hs => hs)
          (fun _ _ ht => ⟨ht, hhash⟩) (fun _ _ ht => ht) t ht
      dsimp only
      rw [← bind_assoc]
      refine Triple.bind ((spared_of_throws hrecord (throws_newRecord _ _ _ _ _)).conseq
        (fun d hd => ⟨(hd.2 already rfl).1, (hd.2 already rfl).2⟩) (fun _ _ ht => ht)
        fun _ _ ht => ht) fun _ => .throw fun d hd => ⟨hd.1.1, fun kind hash metaId found heq => ?_⟩
      cases heq
      rw [hdestination, ← hd.2]
      exact hd.1.content
  · next recordNetDisk hdestination =>
    refine Triple.bind (spared_of_throws (triple_storageFlash info.hash info.hashAlgorithm)
      (throws_storageFlash _ _)) fun found => ?_
    cases found with
    | none => exact .pure fun _ hd => hd.1
    | some already =>
      let I : Depot → Prop := fun d =>
        Intact c env d ∧ (∃ server, Stocked c env server already d) ∧ c.hash already = info.hash
      have htimeless : Timeless I := by
        rintro d calls ids ⟨hd, ⟨server, hserver⟩, hhash⟩
        exact ⟨timeless_intact d calls ids hd, ⟨server, timeless_stocked d calls ids hserver⟩, hhash⟩
      have hnetDisk : ∀ d netDisk, I d → I { d with netDisk := netDisk } := by
        rintro d netDisk ⟨hd, ⟨server, hserver⟩, hhash⟩
        exact ⟨{ hd with }, ⟨server, { hserver.1 with }, hserver.2⟩, hhash⟩
      have hrecord : Upholds I env (NetDiskService.record already info.fileName recordNetDisk)
          fun _ => True := upholds_record htimeless hnetDisk _ _ _
      dsimp only
      refine Triple.bind ((spared_of_throws (hrecord.conseq (fun _ hd => hd) (fun _ _ ht => ht.1)
        fun _ _ ht => ht.1) (throws_record _ _ _)).conseq (fun d hd => ?_) (fun _ _ ht => ht)
        fun _ _ ht => ht) fun _ => .throw fun d hd => ⟨hd.1, fun kind hash metaId found heq => ?_⟩
      · exact ⟨hd.1, (hd.2 already rfl).1, (hd.2 already rfl).2⟩
      · cases heq
        obtain ⟨-, ⟨server, hserver⟩, hhash⟩ := hd
        obtain ⟨content, hget, hdigest⟩ := hserver.content
        rw [hdestination]
        exact ⟨server, content, hget, hdigest.trans hhash⟩

end Flash

section Requests

variable {c : Catalogue} {env : Env} {d : Depot}

def Answered (c : Catalogue) (env : Env) (hash : String) (destination : MoveDestination)
    (response : Option PreparePartialUploadResponse) (d : Depot) : Prop :=
  Intact c env d ∧ ∀ already, response = some ⟨.flashUpload, already⟩ →
    Backed env hash already d destination

theorem answered_without {hash : String} {destination : MoveDestination}
    {response : Option PreparePartialUploadResponse} (hd : Intact c env d)
    (h : ∀ already, response ≠ some ⟨.flashUpload, already⟩) :
    Answered c env hash destination response d := ⟨hd, fun already heq => absurd heq (h already)⟩

theorem triple_prepare (user : Option Uuid) {info : MoveRegistration} (count : Nat)
    (h : Announced c info) : Triple (Intact c env) env (prepare user info count)
      (Answered c env info.hash info.destination) fun _ => Intact c env := by
  refine Triple.bind ((triple_flash h).attempt fun _ hd => hd.1) fun flash => ?_
  cases flash with
  | error e =>
    intro d hd
    cases e
    case flashUpload kind hash metaId already =>
      refine ⟨hd.1, fun found heq => ?_⟩
      cases heq
      exact hd.2 kind hash metaId already rfl
    all_goals exact answered_without hd.1 fun _ heq => by cases heq
  | ok _ =>
    refine (intact_create info.hashAlgorithm count h).attempt.andThen fun created _ => ?_
    cases created with
    | error e =>
      intro d hd
      cases e
      all_goals exact answered_without hd fun _ heq => by cases heq
    | ok _ =>
      refine (intact_insertMove h).attempt.andThen fun registered _ => ?_
      cases registered with
      | error e => exact .pure fun d hd => answered_without hd fun _ heq => by cases heq
      | ok _ => exact .pure fun d hd => answered_without hd fun _ heq => by cases heq

theorem triple_withMetaId (fileMetadataId : Option Uuid) (r : PreparePartialUploadRequest) :
    Triple (fun d => Intact c env d ∧ Announces c (fileMetadataId.getD (d.ids 0)) r) env
      (PreparePartialUploadRequest.withMetaId fileMetadataId)
      (fun metaId d => Intact c env d ∧ Announces c metaId r) fun _ => Intact c env := by
  cases fileMetadataId with
  | some id => exact .pure fun _ hd => hd
  | none =>
    rintro d ⟨hd, hr⟩
    exact ⟨timeless_intact d d.calls _ hd, hr⟩

theorem triple_fromUser (user : Uuid) (kind : RecordNetDiskKind) (fileMetadataId : Option Uuid)
    (r : PreparePartialUploadRequest) :
    Triple (fun d => Intact c env d ∧ Announces c (fileMetadataId.getD (d.ids 0)) r) env
      (r.fromUser user kind fileMetadataId)
      (Answered c env (MultipartService.toUppercase r.hash) (.storageServer (some ⟨.unkonwn, kind⟩)))
      fun _ => Intact c env := by
  refine Triple.bind (triple_withMetaId fileMetadataId r) fun metaId => Triple.given fun hr => ?_
  unfold Announces at hr
  split
  · exact .pure fun d hd => answered_without hd fun _ heq => by cases heq
  · refine (upholds_newV4 timeless_intact).andThen fun id _ => ?_
    have hinfo : ∀ hashAlgorithm destination, Announced c
        (r.registration id metaId hashAlgorithm destination none) := fun _ _ => hr
    exact triple_prepare _ _ (hinfo _ _)

theorem triple_fromNode (nodeId metaId : Uuid) (destination : MoveDestination)
    {r : PreparePartialUploadRequest} (hr : Announces c metaId r) :
    Triple (Intact c env) env (r.fromNode nodeId metaId destination)
      (Answered c env (MultipartService.toUppercase r.hash) destination) fun _ => Intact c env := by
  have hnone : ∀ d, Intact c env d →
      Answered c env (MultipartService.toUppercase r.hash) destination none d :=
    fun d hd => answered_without hd fun _ heq => by cases heq
  unfold PreparePartialUploadRequest.fromNode
  split
  · exact .pure hnone
  · refine Upholds.andThen (V := fun _ => True) (.read trivial) fun env' _ => ?_
    refine intact_call.attempt.andThen fun x _ => ?_
    cases x with
    | error e => exact .pure hnone
    | ok k =>
      dsimp only
      split
      · exact .pure hnone
      · refine (upholds_newV4 timeless_intact).andThen fun id _ => ?_
        have hinfo : ∀ hashAlgorithm userId, Announced c
            (r.registration id metaId hashAlgorithm destination userId) := fun _ _ => hr
        exact triple_prepare _ _ (hinfo _ _)

theorem triple_fromSnapshot (nodeId fileId : Uuid) (timestamp : Int64)
    (r : PreparePartialUploadRequest) :
    Triple (fun d => Intact c env d ∧ Announces c (d.ids 0) r) env
      (r.fromSnapshot nodeId fileId timestamp)
      (Answered c env (MultipartService.toUppercase r.hash) (.snapshot nodeId timestamp fileId))
      fun _ => Intact c env := by
  refine Triple.bind (Q := fun metaId d => Intact c env d ∧ Announces c metaId r) ?_ fun metaId =>
    Triple.given fun hr => triple_fromNode nodeId metaId _ hr
  rintro d ⟨hd, hr⟩
  exact ⟨timeless_intact d d.calls _ hd, hr⟩

structure Preparation where
  act : Act (Option PreparePartialUploadResponse)
  hash : String
  destination : MoveDestination

-- What a request announces, and the call that answers it.
def preparation : Request → Option Preparation
  | .flowEditor user flowDraftUuid fileMetadataId r => some
      ⟨r.fromFlowEditor user flowDraftUuid fileMetadataId, MultipartService.toUppercase r.hash,
        .storageServer (some ⟨.unkonwn, .flowDraft flowDraftUuid⟩)⟩
  | .netDisk user parentId fileMetadataId r => some
      ⟨r.fromNetDisk user parentId fileMetadataId, MultipartService.toUppercase r.hash,
        .storageServer (some ⟨.unkonwn, .normal parentId⟩)⟩
  | .nodeInstance nodeInstanceUuid fileMetadataId r => some
      ⟨r.fromNodeInstance nodeInstanceUuid fileMetadataId, MultipartService.toUppercase r.hash,
        .storageServer (some ⟨.unkonwn, .nodeInstance nodeInstanceUuid⟩)⟩
  | .snapshot nodeId fileId timestamp r => some
      ⟨r.fromSnapshot nodeId fileId timestamp, MultipartService.toUppercase r.hash,
        .snapshot nodeId timestamp fileId⟩
  | .part _ => none
  | .retry _ => none
  | .deliver _ => none
  | .expire _ => none

theorem triple_preparation {q : Request} {p : Preparation} (hp : preparation q = some p) :
    Triple (fun d => Intact c env d ∧ Honest c d (.request q)) env p.act
      (Answered c env p.hash p.destination) fun _ => Intact c env := by
  cases q with
  | flowEditor user flowDraftUuid fileMetadataId r =>
    cases hp
    exact triple_fromUser user _ fileMetadataId r
  | netDisk user parentId fileMetadataId r =>
    cases hp
    exact triple_fromUser user _ fileMetadataId r
  | nodeInstance nodeInstanceUuid fileMetadataId r =>
    cases hp
    exact Triple.given fun hr => triple_fromNode nodeInstanceUuid fileMetadataId _ hr
  | snapshot nodeId fileId timestamp r =>
    cases hp
    exact triple_fromSnapshot nodeId fileId timestamp r
  | part p => cases hp
  | retry metaId => cases hp
  | deliver cmd => cases hp
  | expire key => cases hp

theorem serve_eq {q : Request} {p : Preparation} (hp : preparation q = some p) :
    q.serve = p.act >>= fun _ => pure () := by
  cases q
  all_goals
    cases hp
    try rfl

theorem Intact.step (h : Intact c env d) {e : Event} (hhonest : Honest c d e) :
    Intact c env (e.step env d) := by
  cases e with
  | request q =>
    cases hq : preparation q with
    | some p =>
      have hserve : Triple (fun d => Intact c env d ∧ Honest c d (.request q)) env q.serve
          (fun _ => Intact c env) fun _ => Intact c env := by
        rw [serve_eq hq]
        exact Triple.bind (triple_preparation hq) fun _ => .pure fun _ ht => ht.1
      exact hserve.final ⟨h, hhonest⟩
    | none =>
      cases q with
      | flowEditor user flowDraftUuid fileMetadataId r => cases hq
      | netDisk user parentId fileMetadataId r => cases hq
      | nodeInstance nodeInstanceUuid fileMetadataId r => cases hq
      | snapshot nodeId fileId timestamp r => cases hq
      | part p => exact (intact_partialUpload p).final h
      | retry metaId => exact (intact_doRegisteredMoves metaId).final h
      | deliver cmd => exact (intact_uploadFile cmd).final h
      | expire key => exact (h.dropMoves [key]).dropMultiparts [key]
  | cancel metaId => exact ((intact_remove metaId).bind fun _ _ => intact_removeMoves _).final h
  | removeSnapshot id => exact (intact_removeSnapshot id).final h
  | expireSnapshot key => exact h.dropRecords [key]

theorem triple_read (id : Uuid) :
    Triple (Intact c env) env (SnapshotService.read id)
      (fun content d => Intact c env d ∧ ∃ e ∈ d.snapshots, e.2.id = id ∧
        digest env content = e.2.hash) fun _ => Intact c env := by
  refine Triple.bind (triple_getSnapshot _) fun found => ?_
  cases found with
  | none => exact Triple.bind (Q := fun _ _ => False) (.throw fun d hd => hd.1) fun _ _ hd => hd.elim
  | some record =>
    refine Triple.bind (Q := fun found d => Intact c env d ∧ found = record ∧
      ∃ e ∈ d.snapshots, e.2 = record ∧ record.id = id) (.pure ?_) fun found => ?_
    · rintro d ⟨hd, hfound, -⟩
      obtain ⟨key, hmem, hglob⟩ := hfound record rfl
      obtain ⟨hkey, hhash, -⟩ := hd.snapshots _ hmem
      have hplain : Alphanumeric record.hash := by
        rw [show record.hash = c.hash record.metaId from hhash]
        exact c.plain _
      rw [show key = keyOf record from hkey] at hglob
      exact ⟨hd, rfl, _, hmem, rfl, glob_idKeyRegex hplain hglob⟩
    · have htimeless : Timeless fun d => Intact c env d ∧ found = record ∧
          ∃ e ∈ d.snapshots, e.2 = record ∧ record.id = id :=
        fun d calls ids hd => ⟨timeless_intact d calls ids hd.1, hd.2⟩
      refine Triple.bind ((upholds_call htimeless).conseq (fun _ hd => hd) (fun _ _ ht => ht.1)
        fun _ _ ht => ht.1) fun _ => ?_
      refine Triple.bind (Q := fun s d => s = d ∧ Intact c env d ∧ found = record ∧
        ∃ e ∈ d.snapshots, e.2 = record ∧ record.id = id) (.get fun _ hd => ⟨rfl, hd⟩) fun s => ?_
      rintro d ⟨rfl, hd, rfl, e, he, rfl, hid⟩
      cases hget : Assoc.get s.snapshotFiles e.2.metaId with
      | none => exact hd
      | some content =>
        refine ⟨hd, e, he, hid, ?_⟩
        rw [hd.files _ (Assoc.mem_of_get hget), (hd.snapshots e he).2.1]

theorem Intact.trustworthy (h : Intact c env d) : Trustworthy env d where
  rows row hrow := by
    obtain ⟨storage, hstorage, heq, hstocked⟩ := h.stocked hrow
    obtain ⟨content, hget, hdigest⟩ := hstocked.content
    exact ⟨storage, hstorage, heq, content, hget, hdigest.trans (h.metas row hrow).symm⟩
  distinct := h.distinct
  snapshots e he := by
    obtain ⟨-, hhash, hfile⟩ := h.snapshots e he
    obtain ⟨content, hget, hdigest⟩ := Kept.content ⟨h, hfile⟩
    exact ⟨content, hget, hdigest.trans hhash.symm⟩
  reads id content t hrun := ((triple_read id).of_ok h hrun).2

end Requests

-- Nothing was uploaded yet.
def blank (ids : Nat → Uuid) : Depot := { emptyDepot with ids := ids }

theorem intact_blank (c : Catalogue) (env : Env) (ids : Nat → Uuid) : Intact c env (blank ids) where
  normal := List.forall_mem_nil _
  multiparts := List.forall_mem_nil _
  moves := List.forall_mem_nil _
  files := List.forall_mem_nil _
  snapshots := List.forall_mem_nil _
  objects := List.forall_mem_nil _
  metas := List.forall_mem_nil _
  rows := rfl
  distinct := List.nodup_nil
  stored := List.forall_mem_nil _

theorem run_intact (c : Catalogue) (env : Env) (ids : Nat → Uuid) {es : List Event}
    (h : Along (Event.step env) (Honest c) (blank ids) es) :
    Intact c env (run (Event.step env) (blank ids) es) :=
  run_invariant (fun _ _ hd he => hd.step he) (intact_blank c env ids) h

section Samples

def catalogue : Catalogue where
  hash id := if id = 40 ∨ id = 41 then "123" else ""
  plain id := by
    have hall : "123".toList.all Char.isAlphanum = true ∧ "".toList.all Char.isAlphanum = true := by
      decide
    split
    · exact List.all_eq_true.mp hall.1
    · exact List.all_eq_true.mp hall.2

def announcement : PreparePartialUploadRequest := ⟨"f", "123", "blake3", 3, 1⟩

-- A user uploads a file to the net disk, and the command of the queue is handled.
def delivered : List Event :=
  [.request (.netDisk 5 none (some 40) announcement), .request (.part ⟨40, 0, [49, 50, 51]⟩),
    .request (.deliver ⟨500, 5⟩)]

theorem honest_delivered :
    Along (Event.step upEnv) (Honest catalogue) (blank fun n => 500 + n) delivered := by
  decide +kernel

end Samples

def depot : Depot := run (Event.step upEnv) (blank fun n => 500 + n) delivered

end Kuintessence.Storage.Deposits

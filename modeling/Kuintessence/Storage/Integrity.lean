import Kuintessence.Lib.Run
import Kuintessence.Lib.Triple
import Kuintessence.Storage.Snapshots

namespace Kuintessence.Storage.Deposits

open Effect SnapshotService

-- The one hash that each file id is announced with.
structure Catalogue where
  hash : Uuid → String
  plain : ∀ id, Alphanumeric (hash id)

def digest (env : Env) (content : Bytes) : String :=
  MultipartService.toUppercase (env.blake3 content)

structure Intact (c : Catalogue) (env : Env) (d : Depot) : Prop where
  normal : ∀ e ∈ d.normal, digest env e.2 = c.hash e.1
  multiparts : ∀ e ∈ d.multiparts,
    e.1 = MultipartService.idHashKey e.2.metaId e.2.hash ∧ e.2.hash = c.hash e.2.metaId
  moves : ∀ e ∈ d.moves, e.2.hash = c.hash e.2.metaId
  files : ∀ e ∈ d.snapshotFiles, digest env e.2 = c.hash e.1
  snapshots : ∀ e ∈ d.snapshots,
    e.1 = keyOf e.2 ∧ e.2.hash = c.hash e.2.metaId ∧ e.2.metaId ∈ Assoc.keys d.snapshotFiles
  objects : ∀ e ∈ d.objects, digest env e.2 = c.hash e.1.2
  metas : ∀ row ∈ d.metas, row.hash = c.hash row.id
  rows : d.storages.map FileStorage.metaId = d.metas.map FileMeta.id
  distinct : (d.metas.map FileMeta.id).Nodup
  stored : ∀ row ∈ d.storages, (row.storageServerId, row.metaId) ∈ Assoc.keys d.objects

-- The snapshot file, or the object on the server, is there.
def Kept (c : Catalogue) (env : Env) (id : Uuid) (d : Depot) : Prop :=
  Intact c env d ∧ id ∈ Assoc.keys d.snapshotFiles

def Stocked (c : Catalogue) (env : Env) (server id : Uuid) (d : Depot) : Prop :=
  Intact c env d ∧ (server, id) ∈ Assoc.keys d.objects

def cancelPartialUpload (metaId : Uuid) : Act Unit := do
  MultipartService.remove metaId
  FileMoveService.removeAllWithMetaId metaId

inductive Event where
  | request (q : Request)
  | cancel (metaId : Uuid)
  | removeSnapshot (id : Uuid)
  | expireSnapshot (key : String)
  deriving DecidableEq

namespace Event

def serve : Event → Act Unit
  | .request q => q.serve
  | .cancel metaId => cancelPartialUpload metaId
  | .removeSnapshot id => SnapshotService.remove id
  | .expireSnapshot key => .modify (fun d => { d with snapshots := deleteKeys d.snapshots [key] })

def step (env : Env) (d : Depot) (e : Event) : Depot := (e.serve env d).2

end Event

def Announces (c : Catalogue) (metaId : Uuid) (r : PreparePartialUploadRequest) : Prop :=
  MultipartService.toUppercase r.hash = c.hash metaId

-- An id that the client leaves out is the next one drawn.
def Honest (c : Catalogue) (d : Depot) : Event → Prop
  | .request (.flowEditor _ _ fileMetadataId r) => Announces c (fileMetadataId.getD (d.ids 0)) r
  | .request (.netDisk _ _ fileMetadataId r) => Announces c (fileMetadataId.getD (d.ids 0)) r
  | .request (.nodeInstance _ fileMetadataId r) => Announces c fileMetadataId r
  | .request (.snapshot _ _ _ r) => Announces c (d.ids 0) r
  | .request (.part _) => True
  | .request (.retry _) => True
  | .request (.deliver _) => True
  | .request (.expire _) => True
  | .cancel _ => True
  | .removeSnapshot _ => True
  | .expireSnapshot _ => True

instance (c : Catalogue) (d : Depot) : (e : Event) → Decidable (Honest c d e)
  | .request (.flowEditor _ _ _ _) => inferInstanceAs (Decidable (_ = _))
  | .request (.netDisk _ _ _ _) => inferInstanceAs (Decidable (_ = _))
  | .request (.nodeInstance _ _ _) => inferInstanceAs (Decidable (_ = _))
  | .request (.snapshot _ _ _ _) => inferInstanceAs (Decidable (_ = _))
  | .request (.part _) => .isTrue trivial
  | .request (.retry _) => .isTrue trivial
  | .request (.deliver _) => .isTrue trivial
  | .request (.expire _) => .isTrue trivial
  | .cancel _ => .isTrue trivial
  | .removeSnapshot _ => .isTrue trivial
  | .expireSnapshot _ => .isTrue trivial

section Clock

variable {env : Env} {I : Depot → Prop} {α : Type}

-- Neither the calls made so far nor the ids drawn so far matter.
def Timeless (I : Depot → Prop) : Prop :=
  ∀ d calls ids, I d → I { d with calls := calls, ids := ids }

theorem upholds_call (hI : Timeless I) : Upholds I env call fun _ => True := by
  refine (Upholds.read (V := fun _ => True) trivial).bind fun _ _ => Upholds.get.bind fun d _ => ?_
  refine (Upholds.modify fun s hs => hI s _ s.ids hs).bind fun _ _ => ?_
  split
  · exact .throw _
  · exact .pure trivial

theorem upholds_newV4 (hI : Timeless I) : Upholds I env newV4 fun _ => True :=
  Upholds.get.bind fun _ _ => (Upholds.modify fun s hs => hI s s.calls _ hs).bind fun _ _ =>
    .pure trivial

theorem upholds_orFail {V : α → Prop} (message : String) {o : Option α} (h : ∀ a, o = some a → V a) :
    Upholds I env (orFail message o) V := by
  cases o with
  | none => exact .throw _
  | some a => exact .pure (h a rfl)

theorem upholds_queryKeys (hI : Timeless I) (entries : List (String × α)) (regex : String) :
    Upholds I env (queryKeys entries regex)
      fun keys => ∀ key, key ∈ keys ↔ key ∈ Assoc.keys entries ∧ glob regex key = true := by
  refine (Upholds.read (V := fun r => r = env) rfl).bind fun r _ => (upholds_call hI).bind fun k _ => ?_
  exact .pure fun key => (Order.mem_on _).trans List.mem_filter

-- One entry whose key fits, or none has one.
theorem upholds_getOne (hI : Timeless I) (entries : Depot → List (String × α)) (regex : String) :
    Upholds I env (do
      let d ← .get
      let keys ← queryKeys (entries d) regex
      pure (keys.head?.bind (Assoc.get (entries d))))
      fun found => ∃ d, I d ∧
        ∀ a, found = some a → ∃ key, (key, a) ∈ entries d ∧ glob regex key = true := by
  refine Upholds.get.bind fun d hd => (upholds_queryKeys hI _ regex).bind fun keys hkeys => ?_
  refine .pure ⟨d, hd, fun a ha => ?_⟩
  obtain ⟨key, hkey, hget⟩ := Option.bind_eq_some_iff.mp ha
  exact ⟨key, Assoc.mem_of_get hget, ((hkeys key).mp (List.mem_of_mem_head? hkey)).2⟩

end Clock

section Intact

variable {c : Catalogue} {env : Env} {d : Depot} {id server : Uuid} {α : Type}

theorem timeless_intact : Timeless (Intact c env) := fun _ _ _ h => { h with }

theorem timeless_kept : Timeless (Kept c env id) := fun d calls ids h =>
  ⟨timeless_intact d calls ids h.1, h.2⟩

theorem timeless_stocked : Timeless (Stocked c env server id) := fun d calls ids h =>
  ⟨timeless_intact d calls ids h.1, h.2⟩

theorem Intact.writeMove (h : Intact c env d) {info : MoveRegistration}
    (hinfo : info.hash = c.hash info.metaId) (key : String) :
    Intact c env { d with moves := Assoc.insert d.moves key info } :=
  { h with
    moves := fun e he => (Assoc.mem_of_mem_insert he).elim (h.moves e) fun heq => heq ▸ hinfo }

theorem Intact.dropMoves (h : Intact c env d) (keys : List String) :
    Intact c env { d with moves := deleteKeys d.moves keys } :=
  { h with moves := fun e he => h.moves e (List.mem_of_mem_filter he) }

theorem Intact.writeMultipart (h : Intact c env d) {m : Multipart}
    (hm : m.hash = c.hash m.metaId) : Intact c env { d with
      multiparts := Assoc.insert d.multiparts (MultipartService.idHashKey m.metaId m.hash) m } :=
  { h with
    multiparts := fun e he => (Assoc.mem_of_mem_insert he).elim (h.multiparts e) fun heq =>
      heq ▸ ⟨rfl, hm⟩ }

theorem Intact.dropMultiparts (h : Intact c env d) (keys : List String) :
    Intact c env { d with multiparts := deleteKeys d.multiparts keys } :=
  { h with multiparts := fun e he => h.multiparts e (List.mem_of_mem_filter he) }

theorem Intact.writeParts (h : Intact c env d) (parts : List ((Uuid × Nat) × Bytes)) :
    Intact c env { d with parts := parts } := { h with }

theorem Intact.writeNormal (h : Intact c env d) {content : Bytes}
    (hcontent : digest env content = c.hash id) :
    Intact c env { d with normal := Assoc.insert d.normal id content } :=
  { h with
    normal := fun e he => (Assoc.mem_of_mem_insert he).elim (h.normal e) fun heq => heq ▸ hcontent }

theorem Intact.dropNormal (h : Intact c env d) (id : Uuid) :
    Intact c env { d with normal := d.normal.filter (fun e => e.1 != id) } :=
  { h with normal := fun e he => h.normal e (List.mem_of_mem_filter he) }

theorem Intact.writeFile (h : Intact c env d) {content : Bytes}
    (hcontent : digest env content = c.hash id) :
    Kept c env id { d with snapshotFiles := Assoc.insert d.snapshotFiles id content } := by
  refine ⟨{ h with files := fun e he => ?_, snapshots := fun e he => ?_ }, ?_⟩
  · exact (Assoc.mem_of_mem_insert he).elim (h.files e) fun heq => heq ▸ hcontent
  · obtain ⟨hkey, hhash, hfile⟩ := h.snapshots e he
    exact ⟨hkey, hhash, Assoc.mem_keys_insert.mpr (.inl hfile)⟩
  · exact Assoc.mem_keys_insert.mpr (.inr rfl)

theorem Kept.writeRecord {record : Snapshot} (h : Kept c env record.metaId d)
    (hrecord : record.hash = c.hash record.metaId) : Intact c env { d with
      snapshots := Assoc.insert d.snapshots (keyOf record) record } :=
  { h.1 with
    snapshots := fun e he => (Assoc.mem_of_mem_insert he).elim (h.1.snapshots e) fun heq =>
      heq ▸ ⟨rfl, hrecord, h.2⟩ }

theorem Intact.dropRecords (h : Intact c env d) (keys : List String) :
    Intact c env { d with snapshots := deleteKeys d.snapshots keys } :=
  { h with snapshots := fun e he => h.snapshots e (List.mem_of_mem_filter he) }

theorem Intact.dropFile (h : Intact c env d) (hunused : ∀ e ∈ d.snapshots, e.2.metaId ≠ id) :
    Intact c env { d with snapshotFiles := d.snapshotFiles.filter (fun e => e.1 != id) } := by
  refine { h with files := fun e he => h.files e (List.mem_of_mem_filter he),
                  snapshots := fun e he => ?_ }
  obtain ⟨hkey, hhash, hfile⟩ := h.snapshots e he
  refine ⟨hkey, hhash, ?_⟩
  obtain ⟨file, hfile, heq⟩ := List.mem_map.mp hfile
  refine List.mem_map.mpr ⟨file, List.mem_filter.mpr ⟨hfile, ?_⟩, heq⟩
  rw [heq, bne_iff_ne]
  exact hunused e he

theorem Intact.writeObject (h : Intact c env d) {content : Bytes}
    (hcontent : digest env content = c.hash id) :
    Stocked c env server id { d with objects := Assoc.insert d.objects (server, id) content } := by
  refine ⟨{ h with objects := fun e he => ?_, stored := fun row hrow => ?_ }, ?_⟩
  · exact (Assoc.mem_of_mem_insert he).elim (h.objects e) fun heq => heq ▸ hcontent
  · exact Assoc.mem_keys_insert.mpr (.inl (h.stored row hrow))
  · exact Assoc.mem_keys_insert.mpr (.inr rfl)

theorem Stocked.writeRows {row : FileMeta} (h : Stocked c env server row.id d)
    (hrow : row.hash = c.hash row.id) (hnew : d.metas.any (fun r => r.id == row.id) = false)
    (user : Uuid) : Intact c env { d with
      metas := d.metas ++ [row]
      storages := d.storages ++ [⟨server, row.id, user⟩] } := by
  refine { h.1 with
    metas := fun r hr => ?_
    rows := ?_
    distinct := ?_
    stored := fun r hr => ?_ }
  · obtain hr | hr := List.mem_append.mp hr
    · exact h.1.metas r hr
    · rw [List.mem_singleton.mp hr, hrow]
  · rw [List.map_append, List.map_append, h.1.rows]
    rfl
  · rw [List.map_append, List.map_singleton, ← List.concat_eq_append]
    refine h.1.distinct.concat fun hin => ?_
    obtain ⟨r, hr, heq⟩ := List.mem_map.mp hin
    rw [List.any_eq_false] at hnew
    exact hnew r hr (beq_iff_eq.mpr heq)
  · obtain hr | hr := List.mem_append.mp hr
    · exact h.1.stored r hr
    · rw [List.mem_singleton.mp hr]
      exact h.2

end Intact

section Services

variable {c : Catalogue} {env : Env} {α : Type} {V : α → Prop}

def Announced (c : Catalogue) (info : MoveRegistration) : Prop := info.hash = c.hash info.metaId

theorem intact_call : Upholds (Intact c env) env call fun _ => True := upholds_call timeless_intact

theorem intact_called {m : Nat → Act α} (h : ∀ k, Upholds (Intact c env) env (m k) V) :
    Upholds (Intact c env) env (call >>= m) V := intact_call.bind fun k _ => h k

theorem intact_insertMove {user : Option Uuid} {key : String} {info : MoveRegistration}
    (h : Announced c info) :
    Upholds (Intact c env) env (MoveRegistrationRepo.insertWithLease user key info) fun _ => True :=
  (upholds_orFail (V := fun _ => True) _ fun _ _ => trivial).bind fun _ _ =>
    intact_called fun _ => .modify fun _ hs => hs.writeMove h _

theorem intact_updateMove {key : String} {info : MoveRegistration} (h : Announced c info) :
    Upholds (Intact c env) env (MoveRegistrationRepo.updateWithLease key info) fun _ => True :=
  Upholds.get.bind fun _ _ => (upholds_queryKeys timeless_intact _ _).bind fun _ _ =>
    (upholds_orFail (V := fun _ => True) _ fun _ _ => trivial).bind fun _ _ =>
      intact_called fun _ => .modify fun _ hs => hs.writeMove h _

theorem intact_getMoves (regex : String) : Upholds (Intact c env) env
    (MoveRegistrationRepo.getAllByKeyRegex regex) fun infos => ∀ info ∈ infos, Announced c info := by
  refine Upholds.get.bind fun d hd => (upholds_queryKeys timeless_intact _ _).bind fun keys _ => ?_
  refine .pure fun info hinfo => ?_
  obtain ⟨key, -, hget⟩ := List.mem_filterMap.mp hinfo
  exact hd.moves _ (Assoc.mem_of_get hget)

theorem intact_getMove (regex : String) : Upholds (Intact c env) env
    (MoveRegistrationRepo.getOneByKeyRegex regex) fun found => ∀ info, found = some info →
      Announced c info := by
  refine (upholds_getOne timeless_intact Depot.moves _).weaken ?_
  rintro found ⟨d, hd, hfound⟩ info hinfo
  obtain ⟨key, hmem, -⟩ := hfound info hinfo
  exact hd.moves _ hmem

theorem intact_getUser (regex : String) : Upholds (Intact c env) env
    (MoveRegistrationRepo.getUserByKeyRegex regex) fun _ => True := by
  refine Upholds.get.bind fun d _ => (upholds_queryKeys timeless_intact _ _).bind fun keys _ => ?_
  split
  · exact .pure trivial
  · exact (upholds_orFail (V := fun _ => True) _ fun _ _ => trivial).bind fun _ _ => .pure trivial

theorem intact_removeMoves (regex : String) : Upholds (Intact c env) env
    (MoveRegistrationRepo.removeAllByKeyRegex regex) fun _ => True := by
  refine Upholds.get.bind fun d _ => (upholds_queryKeys timeless_intact _ _).bind fun keys _ => ?_
  split
  · exact .throw _
  · exact .modify fun _ hs => hs.dropMoves _

theorem intact_getById (id : Uuid) : Upholds (Intact c env) env
    (MultipartRepo.getOneByKeyRegex (MultipartService.idKeyRegex id)) fun found =>
      ∀ m, found = some m → m.metaId = id ∧ m.hash = c.hash id := by
  refine (upholds_getOne timeless_intact Depot.multiparts _).weaken ?_
  rintro found ⟨d, hd, hfound⟩ m hm
  obtain ⟨key, hmem, hglob⟩ := hfound m hm
  obtain ⟨hkey, hhash⟩ := hd.multiparts _ hmem
  rw [show key = MultipartService.idHashKey m.metaId m.hash from hkey] at hglob
  have hid : id = m.metaId := MultipartService.glob_id_iff.mp hglob
  exact ⟨hid.symm, hid ▸ hhash⟩

theorem intact_getByHash (regex : String) : Upholds (Intact c env) env
    (MultipartRepo.getOneByKeyRegex regex) fun _ => True :=
  (upholds_getOne timeless_intact Depot.multiparts _).weaken fun _ _ => trivial

theorem intact_writeMultipart {id : Uuid} {m : Multipart} (hid : m.metaId = id)
    (hhash : m.hash = c.hash id) : Upholds (Intact c env) env
      (MultipartRepo.write (MultipartService.idHashKey id m.hash) m) fun _ => True := by
  subst hid
  exact intact_called fun _ => .modify fun _ hs => hs.writeMultipart hhash

theorem intact_removeMultipartDir (id : Uuid) :
    Upholds (Intact c env) env (CacheService.removeMultipartDir id) fun _ => True := by
  refine intact_called fun _ => Upholds.get.bind fun d _ => ?_
  split
  · exact .modify fun _ hs => hs.writeParts _
  · exact .throw _

theorem intact_remove (id : Uuid) :
    Upholds (Intact c env) env (MultipartService.remove id) fun _ => True := by
  refine Upholds.bind (V := fun _ => True) ?_ fun _ _ =>
    (intact_removeMultipartDir id).attempt.bind fun _ _ => .pure trivial
  refine Upholds.get.bind fun _ _ => (upholds_queryKeys timeless_intact _ _).bind fun _ _ => ?_
  exact (upholds_orFail (V := fun _ => True) _ fun _ _ => trivial).bind fun _ _ =>
    .modify fun _ hs => hs.dropMultiparts _

theorem intact_readNormal (id : Uuid) : Upholds (Intact c env) env (CacheService.readNormal id)
    fun content => digest env content = c.hash id := by
  refine intact_called fun _ => Upholds.get.bind fun d hd => upholds_orFail _ fun content hget => ?_
  exact hd.normal _ (Assoc.mem_of_get hget)

theorem intact_create {metaId : Uuid} {hash : String} (hashAlgorithm : HashAlgorithm) (count : Nat)
    (h : hash = c.hash metaId) :
    Upholds (Intact c env) env (MultipartService.create metaId hash hashAlgorithm count)
      fun _ => True := by
  refine (intact_getByHash _).bind fun found _ => ?_
  split
  · exact .throw _
  · refine (intact_getByHash _).bind fun found _ => ?_
    split
    · exact .throw _
    · exact intact_writeMultipart (m := ⟨metaId, hash, hashAlgorithm, _⟩) rfl h

-- The digest is compared before the content is put together in the cache.
theorem intact_merge {id : Uuid} {m : Multipart} (h : m.hash = c.hash id) :
    Upholds (Intact c env) env (MultipartService.merge id m) fun _ => True := by
  refine (Upholds.read (V := fun r => r = env) rfl).bind fun r hr => ?_
  have hread : ∀ nth, Upholds (Intact c env) env (CacheService.readPart id nth) fun _ => True :=
    fun nth => intact_called fun _ => Upholds.get.bind fun d _ => upholds_orFail _ fun _ _ => trivial
  refine (Upholds.mapEach fun nth _ => hread nth).bind fun contents _ => ?_
  dsimp only
  split
  · exact .throw _
  · next hequal =>
    have hdigest : digest env contents.flatten = c.hash id := by
      rw [digest, ← hr, ← h]
      exact not_not.mp hequal
    exact Upholds.bind (intact_called fun _ => .modify fun _ hs => hs.writeNormal hdigest)
      fun _ _ => intact_removeMultipartDir id

theorem intact_completePart (part : Part) :
    Upholds (Intact c env) env (MultipartService.completePart part) fun _ => True := by
  refine Upholds.bind (intact_called fun _ => .modify fun _ hs => hs.writeParts _) fun _ _ => ?_
  refine (intact_getById part.metaId).bind fun found hfound => ?_
  split
  · exact .throw _
  · next m =>
    obtain ⟨hid, hhash⟩ := hfound m rfl
    split
    · dsimp only
      have hwrite := @intact_writeMultipart c env part.metaId
        { m with parts := m.parts.set part.nth true } hid hhash
      refine hwrite.bind fun _ _ => ?_
      split
      · have hmerge := @intact_merge c env part.metaId
          { m with parts := m.parts.set part.nth true } hhash
        exact hmerge.bind fun _ _ => Upholds.pure (V := fun _ => True) trivial
      · exact .pure trivial
    · exact .throw _

-- The snapshots with this hash, by the keys of their records.
theorem Intact.glob_hash {d : Depot} (h : Intact c env d) {id : Uuid} {e : String × Snapshot}
    (he : e ∈ d.snapshots) (hashAlgorithm : HashAlgorithm) :
    glob (anyUserKeyRegex (hashKeyRegex (c.hash id) hashAlgorithm)) e.1 = true ↔
      e.2.hash = c.hash id := by
  obtain ⟨hkey, hhash, -⟩ := h.snapshots e he
  cases hashAlgorithm
  rw [hkey]
  exact glob_hashKeyRegex_iff (c.plain id) (hhash ▸ c.plain e.2.metaId)

theorem kept_createRecord {record : Snapshot} (h : record.hash = c.hash record.metaId) :
    Triple (Kept c env record.metaId) env (createRecord record)
      (fun _ => Kept c env record.metaId) fun _ => Intact c env := by
  refine Triple.bind (Q := fun _ => Kept c env record.metaId) ?_ fun _ => .modify fun d hd =>
    ⟨hd.writeRecord h, hd.2⟩
  exact (upholds_call timeless_kept).conseq (fun _ hs => hs) (fun _ _ ht => ht.1) fun _ _ ht => ht.1

theorem kept_snapshotOf {info : MoveRegistration} {metaId id : Uuid} (nodeId fileId : Uuid)
    (timestamp : Int64) : Upholds (Kept c env id) env
      (FileMoveService.snapshotOf info metaId nodeId fileId timestamp)
      fun record => record.metaId = metaId ∧ record.hash = info.hash :=
  (upholds_newV4 timeless_kept).bind fun _ _ =>
    (upholds_orFail (V := fun _ => True) _ fun _ _ => trivial).bind fun _ _ => .pure ⟨rfl, rfl⟩

theorem intact_changeNormalToSnapshot (id : Uuid) :
    Triple (Intact c env) env (CacheService.changeNormalToSnapshot id) (fun _ => Kept c env id)
      fun _ => Intact c env := by
  refine Triple.bind (intact_readNormal id) fun content => .modify fun d hd => ?_
  exact (hd.1.dropNormal id).writeFile hd.2

theorem intact_createSnapshot {record : Snapshot} (h : record.hash = c.hash record.metaId) :
    Triple (Intact c env) env (SnapshotService.create record) (fun _ => Intact c env)
      fun _ => Intact c env :=
  (intact_changeNormalToSnapshot record.metaId).bind fun _ =>
    (kept_createRecord h).conseq (fun _ hs => hs) (fun _ _ ht => ht.1) fun _ _ ht => ht

theorem intact_doMove {info : MoveRegistration} (h : Announced c info) :
    Upholds (Intact c env) env (FileMoveService.doMove info) fun _ => True := by
  unfold FileMoveService.doMove
  split
  · next nodeId timestamp fileId _ =>
    refine Upholds.bind (V := fun record => record.metaId = info.metaId ∧ record.hash = info.hash)
      ?_ fun record hrecord => ?_
    · exact (upholds_newV4 timeless_intact).bind fun _ _ =>
        (upholds_orFail (V := fun _ => True) _ fun _ _ => trivial).bind fun _ _ => .pure ⟨rfl, rfl⟩
    · have hhash : record.hash = c.hash record.metaId := by
        rw [hrecord.1, hrecord.2]
        exact h
      exact (Upholds.of_triple (intact_createSnapshot hhash)).bind fun _ _ =>
        (intact_remove info.metaId).bind fun _ _ => intact_removeMoves _
  · exact (intact_getUser _).bind fun _ _ =>
      (upholds_orFail (V := fun _ => True) _ fun _ _ => trivial).bind fun _ _ =>
        intact_called fun _ => .modify fun _ hs => { hs with }

theorem intact_doRegisteredMoves (metaId : Uuid) :
    Upholds (Intact c env) env (FileMoveService.doRegisteredMoves metaId) fun _ => True :=
  (intact_getMoves _).bind fun _ hinfos => .each fun info hinfo => intact_doMove (hinfos info hinfo)

theorem intact_setAllMovesFailed (metaId : Uuid) (failedReason : String) :
    Upholds (Intact c env) env
      (FileMoveService.setAllMovesWithSameMetaIdAsFailed metaId failedReason) fun _ => True :=
  (intact_getMoves _).bind fun _ hinfos => .each fun info hinfo =>
    intact_updateMove (hinfos info hinfo)

theorem intact_partialUpload (part : Part) :
    Upholds (Intact c env) env (partialUpload part) fun _ => True := by
  refine (intact_completePart part).attempt.bind fun x _ => ?_
  split
  · exact intact_doRegisteredMoves part.metaId
  · exact .pure trivial
  · exact (intact_setAllMovesFailed part.metaId _).attempt.bind fun _ _ => .pure trivial
  · exact .pure trivial

theorem intact_setMoveAsFailed (moveId : Uuid) (failedReason : String) :
    Upholds (Intact c env) env (FileMoveService.setMoveAsFailed moveId failedReason)
      fun _ => True :=
  (intact_getMove _).bind fun _ hfound => (upholds_orFail _ hfound).bind fun _ hinfo =>
    intact_updateMove hinfo

theorem intact_upload {id : Uuid} {content : Bytes} (h : digest env content = c.hash id) :
    Triple (Intact c env) env (StorageServer.upload id content)
      (fun server => Stocked c env server id) fun _ => Intact c env := by
  refine Upholds.andThen (V := fun _ => True) (Upholds.read trivial) fun r _ => ?_
  refine intact_call.andThen fun k _ => ?_
  refine (upholds_orFail (V := fun _ => True) _ fun _ _ => trivial).andThen fun server _ => ?_
  refine intact_call.andThen fun _ _ => ?_
  refine Triple.bind (Q := fun _ => Stocked c env server id) ?_ fun _ => .pure fun _ hd => hd
  exact .modify fun d hd => hd.writeObject h

theorem intact_store {moveId : Uuid} {info : MoveRegistration} {content : Bytes}
    (h : digest env content = c.hash info.metaId) :
    Triple (Intact c env) env (FileUploadRunner.store moveId info content)
      (fun server => Stocked c env server info.metaId) fun _ => Intact c env := by
  refine Triple.bind ((intact_upload h).attempt fun _ hd => hd) fun x => ?_
  cases x with
  | ok server => exact .pure fun _ hd => hd
  | error e => exact (intact_setMoveAsFailed moveId _).andThen fun _ _ => .throw fun _ hd => hd

theorem stocked_recordMetaAndStorage {row : FileMeta} {server : Uuid}
    (h : row.hash = c.hash row.id) (user : Uuid) : Triple (Stocked c env server row.id) env
      (MetaStorageService.recordMetaAndStorage row server user) (fun _ => Intact c env)
      fun _ => Intact c env := by
  refine Triple.bind (Q := fun _ => Stocked c env server row.id) ?_ fun _ => ?_
  · exact (upholds_call timeless_stocked).conseq (fun _ hd => hd) (fun _ _ ht => ht.1)
      fun _ _ ht => ht.1
  · refine Triple.bind (Q := fun d t => t = d ∧ Stocked c env server row.id d)
      (.get fun d hd => ⟨rfl, hd⟩) fun d => ?_
    split
    · exact .throw fun t ht => ht.1 ▸ ht.2.1
    · next hnew =>
      refine .modify ?_
      rintro t ⟨rfl, hd⟩
      exact hd.writeRows h (by simpa using hnew) user

theorem upholds_record {I : Depot → Prop} (hI : Timeless I)
    (hnetDisk : ∀ d netDisk, I d → I { d with netDisk := netDisk }) (metaId : Uuid)
    (fileName : String) (recordNetDisk : Option RecordNetDisk) :
    Upholds I env (NetDiskService.record metaId fileName recordNetDisk) fun _ => True := by
  cases recordNetDisk with
  | none => exact .pure trivial
  | some el => exact (upholds_call hI).bind fun _ _ => .modify fun d hd => hnetDisk d _ hd

theorem intact_uploadFile (cmd : FileUploadCommand) :
    Upholds (Intact c env) env (FileUploadRunner.uploadFile cmd) fun _ => True := by
  refine (intact_getMove _).bind fun found hfound => ?_
  refine (upholds_orFail _ hfound).bind fun info hinfo => ?_
  refine (intact_getUser _).bind fun user _ => ?_
  refine (upholds_orFail (V := fun _ => True) _ fun _ _ => trivial).bind fun userId _ => ?_
  have hdestination : Upholds (Intact c env) env (FileUploadRunner.destinationRecord info.destination)
      fun _ => True := by
    cases info.destination with
    | snapshot nodeId timestamp fileId => exact .throw _
    | storageServer recordNetDisk => exact .pure trivial
  refine hdestination.bind fun recordNetDisk _ => ?_
  refine (intact_readNormal info.metaId).bind fun content hcontent => ?_
  have hfinish : Upholds (Intact c env) env (do
      NetDiskService.record info.metaId info.fileName recordNetDisk
      CacheService.removeNormal info.metaId
      MultipartService.remove info.metaId
      FileMoveService.removeAllWithMetaId info.metaId) fun _ => True := by
    refine (upholds_record timeless_intact (fun _ _ hd => { hd with }) _ _ _).bind fun _ _ => ?_
    refine Upholds.bind (V := fun _ => True) ?_ fun _ _ => (intact_remove _).bind fun _ _ =>
      intact_removeMoves _
    exact (intact_readNormal _).bind fun _ _ => .modify fun _ hd => hd.dropNormal _
  refine Triple.bind (intact_store hcontent) fun server => ?_
  let row : FileMeta := ⟨info.metaId, info.fileName, info.hash, info.hashAlgorithm, info.size⟩
  have hrow : row.hash = c.hash row.id := hinfo
  exact Triple.bind (stocked_recordMetaAndStorage hrow userId) fun _ => hfinish

end Services

section Snapshots

variable {c : Catalogue} {env : Env} {d : Depot} {id : Uuid}

theorem triple_getSnapshot (regex : String) :
    Triple (Intact c env) env (SnapshotRepo.getOneByKeyRegex regex)
      (fun found d => Intact c env d ∧
        (∀ record, found = some record → ∃ key, (key, record) ∈ d.snapshots ∧
          glob (anyUserKeyRegex regex) key = true) ∧
        (found = none → ∀ e ∈ d.snapshots, glob (anyUserKeyRegex regex) e.1 = false))
      fun _ => Intact c env := by
  refine Triple.bind (Q := fun d t => Intact c env t ∧ t.snapshots = d.snapshots)
    (.get fun d hd => ⟨hd, rfl⟩) fun d => ?_
  have htimeless : Timeless fun t => Intact c env t ∧ t.snapshots = d.snapshots :=
    fun t calls ids ht => ⟨timeless_intact t calls ids ht.1, ht.2⟩
  refine Triple.bind ((upholds_queryKeys htimeless _ _).conseq (fun _ ht => ht)
    (fun _ _ ht => ht) fun _ _ ht => ht.1) fun keys => .pure ?_
  rintro t ⟨⟨ht, hsame⟩, hkeys⟩
  rw [hsame]
  refine ⟨ht, fun record hrecord => ?_, fun hnone e he => ?_⟩
  · obtain ⟨key, hkey, hget⟩ := Option.bind_eq_some_iff.mp hrecord
    exact ⟨key, Assoc.mem_of_get hget, ((hkeys key).mp (List.mem_of_mem_head? hkey)).2⟩
  · by_contra hglob
    have hin := (hkeys e.1).mpr ⟨Assoc.mem_keys_of_mem he, Bool.eq_true_of_not_eq_false hglob⟩
    obtain ⟨first, rest, hfirst⟩ := List.exists_cons_of_ne_nil (List.ne_nil_of_mem hin)
    rw [hfirst, List.head?_cons, Option.bind_some, Assoc.get_eq_none_iff] at hnone
    exact hnone ((hkeys first).mp (hfirst ▸ List.mem_cons_self)).1

theorem intact_removeSnapshot (id : Uuid) :
    Upholds (Intact c env) env (SnapshotService.remove id) fun _ => True := by
  have hdelete : Upholds (Intact c env) env (SnapshotRepo.deleteByKeyRegex (idKeyRegex id))
      fun record => record.hash = c.hash record.metaId := by
    refine Upholds.get.bind fun d hd => (upholds_queryKeys timeless_intact _ _).bind fun keys _ => ?_
    refine (upholds_orFail (V := fun _ => True) _ fun _ _ => trivial).bind fun key _ => ?_
    refine intact_called fun _ => ?_
    refine (upholds_orFail (V := fun record => record.hash = c.hash record.metaId) _ fun record hget =>
      (hd.snapshots _ (Assoc.mem_of_get hget)).2.1).bind fun record hrecord => ?_
    refine intact_called fun _ => ?_
    exact Upholds.bind (.modify fun _ ht => ht.dropRecords _) fun _ _ => .pure hrecord
  refine hdelete.bind fun record hrecord => Triple.bind (triple_getSnapshot _) fun found => ?_
  cases found with
  | some _ => exact .pure fun _ ht => ⟨ht.1, trivial⟩
  | none =>
    have htimeless : Timeless fun t => Intact c env t ∧ ∀ e ∈ t.snapshots, e.2.metaId ≠ record.metaId :=
      fun t calls ids ht => ⟨timeless_intact t calls ids ht.1, ht.2⟩
    intro t ht
    have hunused : ∀ e ∈ t.snapshots, e.2.metaId ≠ record.metaId := by
      intro e he heq
      have hglob := ht.2.2 rfl e he
      rw [hrecord] at hglob
      have hmatch : glob (anyUserKeyRegex (hashKeyRegex (c.hash record.metaId) record.hashAlgorithm))
          e.1 = true := (ht.1.glob_hash he record.hashAlgorithm).mpr (heq ▸ (ht.1.snapshots e he).2.1)
      rw [hglob] at hmatch
      cases hmatch
    have hremove : Triple (fun t => Intact c env t ∧ ∀ e ∈ t.snapshots, e.2.metaId ≠ record.metaId)
        env (CacheService.removeSnapshot record.metaId) (fun _ t => Intact c env t ∧ True)
        fun _ => Intact c env := by
      refine Triple.bind (Q := fun _ t => Intact c env t ∧
        ∀ e ∈ t.snapshots, e.2.metaId ≠ record.metaId) ?_ fun _ => .modify fun t ht =>
          ⟨ht.1.dropFile ht.2, trivial⟩
      refine Triple.conseq (P := fun t => Intact c env t ∧
        ∀ e ∈ t.snapshots, e.2.metaId ≠ record.metaId) (Upholds.bind (upholds_call htimeless)
          fun _ _ => Upholds.get.bind fun _ _ => upholds_orFail (V := fun _ => True) _
            fun _ _ => trivial) (fun _ ht => ht) (fun _ _ ht => ht.1) fun _ _ ht => ht.1
    exact hremove t ⟨ht.1, hunused⟩

end Snapshots

end Kuintessence.Storage.Deposits

import Kuintessence.Storage.Retrying

namespace Kuintessence.Storage

open Effect

namespace MoveDestination

def isSnapshot : MoveDestination → Bool
  | .snapshot _ _ _ => true
  | .storageServer _ => false

end MoveDestination

structure Entry where
  key : String
  user : Uuid
  info : MoveRegistration

namespace Entry

def command (e : Entry) : Option FileUploadCommand :=
  if e.info.destination.isSnapshot then none else some ⟨e.info.id, e.user⟩

end Entry

def recordKey (s : Snapshot) : String := uuidText s.userId ++ "_" ++ SnapshotService.completeKey s

def recorded (snapshots : List (String × Snapshot)) (made : List Snapshot) :
    List (String × Snapshot) :=
  made.foldl (fun m s => Assoc.insert m (recordKey s) s) snapshots

structure Records (info : MoveRegistration) (s : Snapshot) : Prop where
  destination : info.destination = .snapshot s.nodeId s.timestamp s.fileId
  metaId : s.metaId = info.metaId
  fileName : s.fileName = info.fileName
  size : s.size = info.size
  hash : s.hash = info.hash
  hashAlgorithm : s.hashAlgorithm = info.hashAlgorithm
  userId : info.userId = some s.userId

structure CarriedOut (metaId : Uuid) (entries : List Entry) (d t : Depot) : Prop where
  uploads : t.uploads = d.uploads ++ entries.filterMap Entry.command
  records : ∃ made, t.snapshots = recorded d.snapshots made ∧
    List.Forall₂ (fun e s => Records e.info s)
      (entries.filter fun e => e.info.destination.isSnapshot) made
  readable : ∀ e ∈ entries, e.info.destination.isSnapshot = true →
    ∃ content, Assoc.get d.normal metaId = some content ∧
      Assoc.get t.snapshotFiles metaId = some content

-- What a merged file's registrations need of the depot.
structure Listed (metaId : Uuid) (entries : List Entry) (d : Depot) : Prop where
  registered : ∀ e ∈ entries, Registered e.info.id e.key e.info e.user d
  owned : ∀ e ∈ entries, e.info.metaId = metaId
  cached : ∀ e ∈ entries, e.info.destination.isSnapshot = true →
    ∃ content, Assoc.get d.normal metaId = some content
  multipart : ∀ e ∈ entries, e.info.destination.isSnapshot = true →
    (Assoc.keys d.multiparts).filter (glob (MultipartService.idKeyRegex metaId)) ≠ []

def SnapshotLast : List Entry → Prop
  | [] => True
  | e :: entries => (e.info.destination.isSnapshot = true → entries = [] ∧ e.info.userId ≠ none) ∧
    SnapshotLast entries

section Moves

variable {env : Env} {d : Depot} {metaId user : Uuid} {key : String} {info : MoveRegistration}

theorem Registered.wp_doStorage (h : Registered info.id key info user d)
    (hdestination : info.destination.isSnapshot = false) :
    wp (FileMoveService.doMove info) env
      (fun _ t => t = { d with calls := d.calls + 2, uploads := d.uploads ++ [⟨info.id, user⟩] })
      (fun _ => ∃ k, env.fails k = true) d := by
  rw [FileMoveService.doMove]
  cases hcase : info.destination with
  | snapshot nodeId timestamp fileId =>
    rw [hcase] at hdestination
    cases hdestination
  | storageServer record =>
    dsimp only
    rw [wp_bind]
    refine h.wp_getUserId (fun _ => ?_) fun hbad => ⟨_, hbad⟩
    rw [wp_bind]
    refine wp_orFail (fun found hfound => ?_) fun hnone => absurd hnone (Option.some_ne_none _)
    cases hfound
    exact wp_called (fun _ => rfl) fun hbad => ⟨_, hbad⟩

theorem wp_snapshotOf {nodeId fileId : Uuid} {timestamp : Int64}
    (hcase : info.destination = .snapshot nodeId timestamp fileId) :
    wp (FileMoveService.snapshotOf info info.metaId nodeId fileId timestamp) env
      (fun s t => Records info s ∧ t = { d with ids := fun n => d.ids (n + 1) })
      (fun _ => info.userId = none) d := by
  rw [FileMoveService.snapshotOf, wp_bind, newV4, wp_bind, wp_get, wp_bind, wp_modify, wp_pure,
    wp_bind]
  refine wp_orFail (fun userId huser => ?_) fun hnone => hnone
  exact ⟨⟨hcase, rfl, rfl, rfl, rfl, rfl, huser⟩, rfl⟩

theorem wp_changeNormalToSnapshot {id : Uuid} :
    wp (CacheService.changeNormalToSnapshot id) env
      (fun _ t => ∃ content, Assoc.get d.normal id = some content ∧
        t = { d with
          calls := d.calls + 1
          normal := d.normal.filter (fun e => e.1 != id)
          snapshotFiles := Assoc.insert d.snapshotFiles id content })
      (fun _ => env.fails d.calls = true ∨ Assoc.get d.normal id = none) d := by
  rw [CacheService.changeNormalToSnapshot, wp_bind]
  refine wp_readNormal (fun _ content hcontent => ?_) fun hbad => hbad
  exact ⟨content, hcontent, rfl⟩

-- After a snapshot's move nothing is left for the entries behind it.
structure Taken (metaId : Uuid) (d t : Depot) : Prop where
  uploads : t.uploads = d.uploads
  normal : Assoc.get t.normal metaId = none
  snapshotFile : ∃ content, Assoc.get d.normal metaId = some content ∧
    Assoc.get t.snapshotFiles metaId = some content
  moves : ∃ gone, t.moves = deleteKeys d.moves gone
  cleared : (Assoc.keys t.moves).filter
    (glob (anyUserKeyRegex (FileMoveService.metaIdKeyRegex metaId))) = []

theorem Registered.wp_doSnapshot (h : Registered info.id key info user d)
    (hdestination : info.destination.isSnapshot = true) :
    wp (FileMoveService.doMove info) env
      (fun _ t => Taken info.metaId d t ∧ ∃ s, Records info s ∧
        t.snapshots = Assoc.insert d.snapshots (recordKey s) s)
      (fun _ => (∃ k, env.fails k = true) ∨ info.userId = none ∨
        Assoc.get d.normal info.metaId = none ∨
        (Assoc.keys d.multiparts).filter (glob (MultipartService.idKeyRegex info.metaId)) = [])
      d := by
  rw [FileMoveService.doMove]
  cases hcase : info.destination with
  | storageServer record =>
    rw [hcase] at hdestination
    cases hdestination
  | snapshot nodeId timestamp fileId =>
    dsimp only
    rw [wp_bind]
    refine wp_mono (wp_snapshotOf hcase) ?_ fun _ hnone => .inr (.inl hnone)
    rintro s _ ⟨hs, rfl⟩
    rw [wp_bind, SnapshotService.create, wp_bind, hs.metaId]
    refine wp_mono wp_changeNormalToSnapshot ?_ ?_
    · rintro _ _ ⟨content, hcontent, rfl⟩
      rw [SnapshotService.createRecord, SnapshotRepo.insertWithLease]
      refine wp_called (fun _ => ?_) fun hbad => .inl ⟨_, hbad⟩
      rw [wp_modify, wp_bind]
      refine wp_mono (wp_remove info.metaId) ?_ ?_
      · rintro _ _ ⟨multipart, _, parts, rfl, -, rfl, -⟩
        have hkept := h.of_moves (t := { d with
          ids := fun n => d.ids (n + 1)
          calls := d.calls + 4
          normal := d.normal.filter (fun e => e.1 != info.metaId)
          snapshotFiles := Assoc.insert d.snapshotFiles info.metaId content
          snapshots := Assoc.insert d.snapshots (recordKey s) s
          multiparts := deleteKeys d.multiparts [multipart]
          parts := parts }) rfl
        refine wp_mono hkept.wp_removeAll ?_ fun _ hbad => .inl hbad.1
        rintro _ _ ⟨gone, rfl, hcleared⟩
        have hnormal := Assoc.get_filter d.normal (fun id => id != info.metaId) info.metaId
        rw [bne_self_eq_false, if_neg Bool.false_ne_true] at hnormal
        refine ⟨⟨rfl, hnormal, ⟨content, hcontent, ?_⟩, ⟨gone, rfl⟩, hcleared⟩, s, hs, rfl⟩
        rw [Assoc.get_insert, if_pos rfl]
      · rintro _ ⟨-, -, hbad | hnone⟩
        · exact .inl ⟨_, hbad⟩
        · exact .inr (.inr (.inr hnone))
    · rintro _ (hbad | hnone)
      · exact .inl ⟨_, hbad⟩
      · exact .inr (.inr (.inl hnone))

theorem Taken.wp_doMove {t : Depot} (ht : Taken info.metaId d t)
    (h : Registered info.id key info user d) :
    wp (FileMoveService.doMove info) env (fun _ _ => False) (fun _ => True) t := by
  rw [FileMoveService.doMove]
  cases hcase : info.destination with
  | snapshot nodeId timestamp fileId =>
    dsimp only
    rw [wp_bind]
    refine wp_mono (wp_snapshotOf hcase) ?_ fun _ _ => trivial
    rintro s _ ⟨hs, rfl⟩
    rw [wp_bind, SnapshotService.create, wp_bind, hs.metaId]
    refine wp_mono wp_changeNormalToSnapshot ?_ fun _ _ => trivial
    rintro _ _ ⟨content, hcontent, -⟩
    have hnone := ht.normal
    rw [hcontent] at hnone
    cases hnone
  | storageServer record =>
    dsimp only
    have hnone : (Assoc.keys t.moves).filter
        (glob (anyUserKeyRegex (FileMoveService.moveIdKeyRegex info.id))) = [] := by
      obtain ⟨gone, hgone⟩ := ht.moves
      have hcleared := ht.cleared
      refine List.eq_nil_iff_forall_not_mem.mpr fun other hother => ?_
      have hin := List.mem_of_mem_filter hother
      rw [hgone, filter_deleteKeys, h.keys] at hother
      have heq := List.mem_singleton.mp (List.mem_of_mem_filter hother)
      have hnamed := List.mem_filter.mpr ⟨hin, heq ▸ h.named⟩
      rw [hcleared] at hnamed
      cases hnamed
    rw [wp_bind, MoveRegistrationRepo.getUserByKeyRegex, wp_bind, wp_get, wp_bind]
    refine wp_queryKeys (fun _ keys hkeys => ?_) fun _ => trivial
    rw [hnone] at hkeys
    rw [hkeys.eq_nil]
    trivial

end Moves

section Lists

variable {env : Env} {d t : Depot} {metaId : Uuid} {e : Entry} {entries : List Entry}

theorem Listed.tail (h : Listed metaId (e :: entries) d) {calls : Nat}
    {uploads : List FileUploadCommand} :
    Listed metaId entries { d with calls := calls, uploads := uploads } where
  registered x hx := (h.registered x (List.mem_cons_of_mem e hx)).of_moves rfl
  owned x hx := h.owned x (List.mem_cons_of_mem e hx)
  cached x hx := h.cached x (List.mem_cons_of_mem e hx)
  multipart x hx := h.multipart x (List.mem_cons_of_mem e hx)

theorem CarriedOut.send {calls : Nat} (hdestination : e.info.destination.isSnapshot = false)
    (h : CarriedOut metaId entries
      { d with calls := calls, uploads := d.uploads ++ [⟨e.info.id, e.user⟩] } t) :
    CarriedOut metaId (e :: entries) d t := by
  refine ⟨?_, ?_, fun x hx hsnapshot => ?_⟩
  · have hcommand : e.command = some ⟨e.info.id, e.user⟩ := by
      rw [Entry.command, hdestination]
      rfl
    rw [h.uploads, List.filterMap_cons_some hcommand, List.append_assoc]
    rfl
  · rw [List.filter_cons_of_neg (by rw [hdestination]; exact Bool.false_ne_true)]
    exact h.records
  · obtain rfl | hx := List.mem_cons.mp hx
    · rw [hdestination] at hsnapshot
      cases hsnapshot
    · exact h.readable x hx hsnapshot

theorem CarriedOut.take (hdestination : e.info.destination.isSnapshot = true)
    (htaken : Taken metaId d t) {s : Snapshot} (hs : Records e.info s)
    (hsnapshots : t.snapshots = Assoc.insert d.snapshots (recordKey s) s) :
    CarriedOut metaId [e] d t := by
  refine ⟨?_, ⟨[s], hsnapshots, ?_⟩, fun _ _ _ => htaken.snapshotFile⟩
  · have hcommand : e.command = none := by
      rw [Entry.command, hdestination]
      rfl
    rw [htaken.uploads, List.filterMap_cons_none hcommand, List.filterMap_nil, List.append_nil]
  · have hone : ([e].filter fun x => x.info.destination.isSnapshot) = [e] :=
      List.filter_cons_of_pos hdestination
    rw [hone]
    exact .cons hs .nil

theorem Listed.wp_each (h : Listed metaId entries d) (hlast : SnapshotLast entries)
    (hfine : ∀ k, env.fails k = false) :
    wp (each FileMoveService.doMove (entries.map Entry.info)) env
      (fun _ t => CarriedOut metaId entries d t) (fun _ => False) d := by
  have hnever : ¬∃ k, env.fails k = true := by
    rintro ⟨k, hbad⟩
    rw [hfine] at hbad
    cases hbad
  induction entries generalizing d with
  | nil =>
    exact ⟨(List.append_nil _).symm, ⟨[], rfl, .nil⟩, fun _ hx => absurd hx List.not_mem_nil⟩
  | cons e entries ih =>
    have he := h.registered e List.mem_cons_self
    have howned := h.owned e List.mem_cons_self
    rw [List.map_cons, each, wp_bind]
    cases hdestination : e.info.destination.isSnapshot with
    | false =>
      refine wp_mono (he.wp_doStorage hdestination) ?_ fun _ hbad => hnever hbad
      rintro _ _ rfl
      exact wp_mono (ih h.tail hlast.2) (fun _ _ hdone => hdone.send hdestination)
        fun _ hfalse => hfalse
    | true =>
      obtain ⟨rfl, huser⟩ := hlast.1 hdestination
      obtain ⟨content, hcontent⟩ := h.cached e List.mem_cons_self hdestination
      refine wp_mono (he.wp_doSnapshot hdestination) ?_ ?_
      · rintro _ t ⟨htaken, s, hs, hsnapshots⟩
        rw [howned] at htaken
        exact CarriedOut.take hdestination htaken hs hsnapshots
      · rintro _ (hbad | hnone | hnone | hnone)
        · exact hnever hbad
        · exact huser hnone
        · rw [howned, hcontent] at hnone
          cases hnone
        · rw [howned] at hnone
          exact h.multipart e List.mem_cons_self hdestination hnone

theorem wp_each_last (hregistered : ∀ e ∈ entries, Registered e.info.id e.key e.info e.user d)
    (howned : ∀ e ∈ entries, e.info.metaId = metaId) :
    wp (each FileMoveService.doMove (entries.map Entry.info)) env
      (fun _ _ => SnapshotLast entries) (fun _ => True) d := by
  induction entries generalizing d with
  | nil => trivial
  | cons e entries ih =>
    have he := hregistered e List.mem_cons_self
    rw [List.map_cons, each, wp_bind]
    cases hdestination : e.info.destination.isSnapshot with
    | false =>
      refine wp_mono (he.wp_doStorage hdestination) ?_ fun _ _ => trivial
      rintro _ _ rfl
      have hrest := ih (d := { d with
        calls := d.calls + 2, uploads := d.uploads ++ [⟨e.info.id, e.user⟩] })
        (fun x hx => (hregistered x (List.mem_cons_of_mem e hx)).of_moves rfl)
        fun x hx => howned x (List.mem_cons_of_mem e hx)
      refine wp_mono hrest (fun _ _ hlast => ⟨fun htrue => ?_, hlast⟩) fun _ _ => trivial
      rw [hdestination] at htrue
      cases htrue
    | true =>
      refine wp_mono (he.wp_doSnapshot hdestination) ?_ fun _ _ => trivial
      rintro _ t ⟨htaken, s, hs, -⟩
      cases entries with
      | nil =>
        refine ⟨fun _ => ⟨rfl, ?_⟩, trivial⟩
        rw [hs.userId]
        exact Option.some_ne_none _
      | cons next entries =>
        have hnext : next ∈ e :: next :: entries := List.mem_cons_of_mem e List.mem_cons_self
        have hsame : next.info.metaId = e.info.metaId :=
          (howned next hnext).trans (howned e List.mem_cons_self).symm
        rw [List.map_cons, each, wp_bind]
        rw [← hsame] at htaken
        exact wp_mono (htaken.wp_doMove (hregistered next hnext)) (fun _ _ hfalse => hfalse.elim)
          fun _ _ => trivial

end Lists

theorem valuesOf_listed {moves : List (String × MoveRegistration)} {entries : List Entry}
    (h : ∀ e ∈ entries, Assoc.get moves e.key = some e.info) :
    valuesOf moves (entries.map Entry.key) = entries.map Entry.info := by
  induction entries with
  | nil => rfl
  | cons e entries ih =>
    have htail := ih fun x hx => h x (List.mem_cons_of_mem e hx)
    rw [valuesOf] at htail
    rw [List.map_cons, valuesOf, List.filterMap_cons_some (h e List.mem_cons_self), htail,
      List.map_cons]

theorem run_getMoves {env : Env} (hfine : ∀ k, env.fails k = false) (regex : String) (d : Depot) :
    MoveRegistrationRepo.getAllByKeyRegex regex env d =
      (.ok (valuesOf d.moves ((env.keys d.calls).on ((Assoc.keys d.moves).filter
        (glob (anyUserKeyRegex regex))))), { d with calls := d.calls + 1 }) := by
  have hkeys : queryKeys d.moves (anyUserKeyRegex regex) env d =
      (.ok ((env.keys d.calls).on ((Assoc.keys d.moves).filter (glob (anyUserKeyRegex regex)))),
        { d with calls := d.calls + 1 }) :=
    bind_of_ok (run_call hfine d) _
  exact bind_of_ok hkeys _

section Samples

def stored (moveId : Uuid) (destination : MoveDestination) : Entry where
  key := uuidText 5 ++ "_" ++ FileMoveService.key moveId 40
  user := 5
  info := ⟨moveId, 40, "out", "AB", .blake3, 2, destination, false, none, some 5⟩

def toServer : Entry := stored 500 (.storageServer none)

def toSnapshot : Entry := stored 501 (.snapshot 41 7 42)

def registeredFor (entries : List Entry) : Depot :=
  { emptyDepot with
    normal := [(40, [65, 66])]
    moves := entries.map fun e => (e.key, e.info)
    multiparts := [(MultipartService.idHashKey 40 "AB", ⟨40, "AB", .blake3, [true]⟩)] }

end Samples

end Kuintessence.Storage

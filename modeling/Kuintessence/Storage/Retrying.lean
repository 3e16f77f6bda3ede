import Kuintessence.Storage.Assembly

namespace Kuintessence.Storage

open Effect

namespace FileMoveService

def stem (moveId : Uuid) : String := "_movereg_" ++ uuidText moveId ++ "_"

theorem stem_plain {moveId : Uuid} {c : Char} (h : c ∈ (stem moveId).toList) :
    Glob.isPlain c = true := by
  rw [stem, String.toList_append, String.toList_append, List.mem_append, List.mem_append] at h
  obtain (h | h) | h := h
  · exact List.all_eq_true.mp (by decide +kernel) c h
  · exact MultipartService.uuidText_plain h
  · exact List.all_eq_true.mp (by decide +kernel) c h

theorem glob_moveIdKeyRegex {moveId : Uuid} {text : String} :
    glob (anyUserKeyRegex (moveIdKeyRegex moveId)) text = true ↔
      ∃ user rest, text.toList = user ++ ((stem moveId).toList ++ rest) := by
  have hpattern : (anyUserKeyRegex (moveIdKeyRegex moveId)).toList =
      Glob.starred [[], (stem moveId).toList, []] := by
    change ("*_" ++ ("movereg_" ++ uuidText moveId ++ "_*")).toList = _
    simp only [stem, String.toList_append, Glob.starred, List.nil_append, List.append_assoc]
    rfl
  rw [glob_starred hpattern]
  · constructor
    · rintro ⟨user, mid, htext, rest, tail, rfl, rfl⟩
      exact ⟨user, rest, by rw [htext, List.append_nil, List.nil_append]⟩
    · rintro ⟨user, rest, htext⟩
      exact ⟨user, _, htext, rest, [], by rw [List.append_nil], rfl⟩
  · intro cs hcs c hc
    simp only [List.mem_cons, List.not_mem_nil, or_false] at hcs
    obtain rfl | rfl | rfl := hcs
    · cases hc
    · exact stem_plain hc
    · cases hc

theorem glob_key {moveId metaId : Uuid} {text : String} :
    glob (anyUserKeyRegex (key moveId metaId)) text = true ↔
      ∃ user, text.toList = user ++ ((stem moveId).toList ++ (uuidText metaId).toList) := by
  have hpattern : (anyUserKeyRegex (key moveId metaId)).toList =
      Glob.starred [[], (stem moveId).toList ++ (uuidText metaId).toList] := by
    change ("*_" ++ ("movereg_" ++ uuidText moveId ++ "_" ++ uuidText metaId)).toList = _
    simp only [stem, String.toList_append, Glob.starred, List.nil_append, List.append_assoc]
    rfl
  rw [glob_starred hpattern]
  · constructor
    · rintro ⟨user, mid, htext, rfl⟩
      exact ⟨user, htext⟩
    · rintro ⟨user, htext⟩
      exact ⟨user, _, htext, rfl⟩
  · intro cs hcs c hc
    simp only [List.mem_cons, List.not_mem_nil, or_false] at hcs
    obtain rfl | rfl := hcs
    · cases hc
    · obtain hc | hc := List.mem_append.mp hc
      · exact stem_plain hc
      · exact MultipartService.uuidText_plain hc

end FileMoveService

structure Registered (moveId : Uuid) (key : String) (info : MoveRegistration) (user : Uuid)
    (d : Depot) : Prop where
  keys : (Assoc.keys d.moves).filter
    (glob (anyUserKeyRegex (FileMoveService.moveIdKeyRegex moveId))) = [key]
  get : Assoc.get d.moves key = some info
  user : Protocol.UuidText.hyphenated.parse (String.ofList (key.toList.takeWhile (· ≠ '_'))) =
    some user
  named : glob (anyUserKeyRegex (FileMoveService.metaIdKeyRegex info.metaId)) key = true

-- A merged file that waits for its upload command.
structure Deliverable (moveId : Uuid) (key : String) (info : MoveRegistration) (user : Uuid)
    (record : Option RecordNetDisk) (d : Depot) : Prop extends
    Registered moveId key info user d where
  destination : info.destination = .storageServer record
  cached : ∃ content, Assoc.get d.normal info.metaId = some content
  multipart : ∃ key, (Assoc.keys d.multiparts).filter
    (glob (MultipartService.idKeyRegex info.metaId)) = [key]
  metas : ∀ row ∈ d.metas, row.id ≠ info.metaId
  storages : ∀ row ∈ d.storages, row.metaId ≠ info.metaId
  netDisk : ∀ command ∈ d.netDisk, command.metaId ≠ info.metaId

def entries : Option RecordNetDisk → Nat
  | none => 0
  | some _ => 1

structure Moved (id : Uuid) (record : Option RecordNetDisk) (d : Depot) : Prop where
  metas : (d.metas.filter fun row => row.id = id).length = 1
  storages : (d.storages.filter fun row => row.metaId = id).length = 1
  netDisk : (d.netDisk.filter fun command => command.metaId = id).length = entries record
  normal : Assoc.get d.normal id = none
  parts : ∀ e ∈ d.parts, e.1.1 ≠ id
  multiparts : (Assoc.keys d.multiparts).filter (glob (MultipartService.idKeyRegex id)) = []
  moves : (Assoc.keys d.moves).filter
    (glob (anyUserKeyRegex (FileMoveService.metaIdKeyRegex id))) = []

-- One of the calls up to the one that records the metadata fails, of those that a run makes after
-- `k` others.
def FailsEarly (env : Env) (k : Nat) : Prop :=
  (∃ i < 6, env.fails (k + i) = true) ∨ env.server (k + 3) = none

instance (env : Env) (k : Nat) : Decidable (FailsEarly env k) :=
  inferInstanceAs (Decidable ((∃ i < 6, env.fails (k + i) = true) ∨ env.server (k + 3) = none))

theorem not_failsEarly {env : Env} {k : Nat} (h₀ : env.fails k = false)
    (h₁ : env.fails (k + 1) = false) (h₂ : env.fails (k + 2) = false)
    (h₃ : env.fails (k + 3) = false) (h₄ : env.fails (k + 4) = false)
    (h₅ : env.fails (k + 5) = false) (hserver : env.server (k + 3) ≠ none) :
    ¬FailsEarly env k := by
  rintro (⟨i, hi, hbad⟩ | hnone)
  · have hfine : env.fails (k + i) = false := by
      obtain rfl | rfl | rfl | rfl | rfl | rfl :
        i = 0 ∨ i = 1 ∨ i = 2 ∨ i = 3 ∨ i = 4 ∨ i = 5 := by omega
      all_goals assumption
    rw [hbad] at hfine
    cases hfine
  · exact hserver hnone

section Calls

variable {env : Env} {d : Depot} {α β : Type} {Q : α → Depot → Prop} {E : Depot → Prop}

theorem wp_orFail {message : String} {o : Option α} (hsome : ∀ a, o = some a → Q a d)
    (hnone : o = none → E d) : wp (orFail message o) env Q E d := by
  cases o with
  | none => exact hnone rfl
  | some a => exact hsome a rfl

theorem wp_called {m : Nat → Act α}
    (hok : env.fails d.calls = false → wp (m d.calls) env Q E { d with calls := d.calls + 1 })
    (hfail : env.fails d.calls = true → E { d with calls := d.calls + 1 }) :
    wp (call >>= m) env Q E d := by
  rw [wp_bind]
  refine wp_mono (wp_call d) ?_ ?_
  · rintro k t ⟨rfl, hfine, rfl⟩
    exact hok hfine
  · rintro t ⟨hbad, rfl⟩
    exact hfail hbad

theorem wp_queryKeys {entries : List (String × β)} {regex : String} {Q : List String → Depot → Prop}
    (hok : env.fails d.calls = false → ∀ keys : List String,
      keys.Perm ((Assoc.keys entries).filter (glob regex)) → Q keys { d with calls := d.calls + 1 })
    (hfail : env.fails d.calls = true → E { d with calls := d.calls + 1 }) :
    wp (queryKeys entries regex) env Q E d := by
  rw [queryKeys, wp_bind, wp_read]
  refine wp_called (fun hfine => ?_) hfail
  exact hok hfine _ ((env.keys d.calls).perm _)

end Calls

section Lookups

variable {env : Env} {d : Depot} {moveId user : Uuid} {key : String} {info : MoveRegistration}
  {E : Depot → Prop}

theorem Registered.wp_getMoveInfo {Q : Option MoveRegistration → Depot → Prop}
    (h : Registered moveId key info user d)
    (hok : env.fails d.calls = false → Q (some info) { d with calls := d.calls + 1 })
    (hfail : env.fails d.calls = true → E { d with calls := d.calls + 1 }) :
    wp (FileMoveService.getMoveInfo moveId) env Q E d := by
  rw [FileMoveService.getMoveInfo, MoveRegistrationRepo.getOneByKeyRegex, wp_bind, wp_get, wp_bind]
  refine wp_queryKeys (fun hfine keys hkeys => ?_) hfail
  rw [h.keys] at hkeys
  rw [List.perm_singleton.mp hkeys]
  have hfound : ([key].head?.bind (Assoc.get d.moves)) = some info := h.get
  rw [wp_pure, hfound]
  exact hok hfine

theorem Registered.wp_getUserId {Q : Option Uuid → Depot → Prop}
    (h : Registered moveId key info user d)
    (hok : env.fails d.calls = false → Q (some user) { d with calls := d.calls + 1 })
    (hfail : env.fails d.calls = true → E { d with calls := d.calls + 1 }) :
    wp (FileMoveService.getUserId moveId) env Q E d := by
  rw [FileMoveService.getUserId, MoveRegistrationRepo.getUserByKeyRegex, wp_bind, wp_get, wp_bind]
  refine wp_queryKeys (fun hfine keys hkeys => ?_) hfail
  rw [h.keys] at hkeys
  rw [List.perm_singleton.mp hkeys]
  dsimp only [List.head?_cons]
  rw [wp_bind]
  refine wp_orFail (fun a ha => ?_) fun hnone => ?_
  · rw [h.user] at ha
    cases ha
    exact hok hfine
  · rw [h.user] at hnone
    cases hnone

theorem wp_readNormal {id : Uuid} {Q : Bytes → Depot → Prop}
    (hok : env.fails d.calls = false → ∀ content, Assoc.get d.normal id = some content →
      Q content { d with calls := d.calls + 1 })
    (hfail : env.fails d.calls = true ∨ Assoc.get d.normal id = none →
      E { d with calls := d.calls + 1 }) :
    wp (CacheService.readNormal id) env Q E d := by
  rw [CacheService.readNormal]
  refine wp_called (fun hfine => ?_) fun hbad => hfail (.inl hbad)
  rw [wp_bind, wp_get]
  exact wp_orFail (fun content hget => hok hfine content hget) fun hnone => hfail (.inr hnone)

end Lookups

section Effects

variable {env : Env} {d : Depot}

theorem filter_deleteKeys {α : Type} (entries : List (String × α)) (gone : List String)
    (p : String → Bool) : (Assoc.keys (deleteKeys entries gone)).filter p =
      ((Assoc.keys entries).filter p).filter fun key => !gone.contains key := by
  rw [Assoc.keys, deleteKeys, List.filter_map, List.filter_filter, Assoc.keys, List.filter_map,
    List.filter_map, List.filter_filter]
  congr 1
  refine List.filter_congr fun e _ => ?_
  exact Bool.and_comm _ _

theorem wp_upload (id : Uuid) (content : Bytes) : wp (StorageServer.upload id content) env
    (fun _ t => env.fails d.calls = false ∧ env.server d.calls ≠ none ∧
      env.fails (d.calls + 1) = false ∧
        ∃ objects, t = { d with calls := d.calls + 2, objects := objects })
    (fun t => (env.fails d.calls = true ∨ env.server d.calls = none ∨
      env.fails (d.calls + 1) = true) ∧ ∃ k, t = { d with calls := k }) d := by
  rw [StorageServer.upload, wp_bind, wp_read, wp_bind]
  refine wp_mono (wp_call d) ?_ ?_
  · rintro k t ⟨rfl, hfine, rfl⟩
    rw [wp_bind]
    refine wp_orFail (fun server hserver => ?_) fun hnone =>
      ⟨.inr (.inl hnone), _, rfl⟩
    refine wp_called (fun hnext => ?_) fun hbad => ⟨.inr (.inr hbad), _, rfl⟩
    rw [wp_bind, wp_modify, wp_pure]
    exact ⟨hfine, by rw [hserver]; exact Option.some_ne_none _, hnext, _, rfl⟩
  · rintro t ⟨hbad, rfl⟩
    exact ⟨.inl hbad, _, rfl⟩

theorem panicless_call : Panicless call := by
  refine panicless_read.bind fun env => panicless_get.bind fun d => (panicless_modify _).bind fun _ => ?_
  split
  · exact panicless_throw _
  · exact panicless_pure _

theorem panicless_orFail {α : Type} (message : String) (o : Option α) : Panicless (orFail message o) := by
  cases o with
  | none => exact panicless_throw _
  | some a => exact panicless_pure a

theorem panicless_upload (id : Uuid) (content : Bytes) : Panicless (StorageServer.upload id content) :=
  panicless_read.bind fun _ => panicless_call.bind fun _ => (panicless_orFail _ _).bind fun _ =>
    panicless_call.bind fun _ => (panicless_modify _).bind fun _ => panicless_pure _

theorem panicless_removeMultipartDir (id : Uuid) : Panicless (CacheService.removeMultipartDir id) := by
  refine panicless_call.bind fun _ => panicless_get.bind fun d => ?_
  split
  · exact panicless_modify _
  · exact panicless_throw _

theorem wp_dropMultipartDir (id : Uuid) {E : Depot → Prop} :
    wp (Effect.attempt (CacheService.removeMultipartDir id)) env
      (fun _ t => ∃ parts, t = { d with calls := d.calls + 1, parts := parts } ∧
        (env.fails d.calls = false → ∀ e ∈ parts, e.1.1 ≠ id)) E d := by
  have hdir : wp (CacheService.removeMultipartDir id) env
      (fun _ t => ∃ parts, t = { d with calls := d.calls + 1, parts := parts } ∧
        (env.fails d.calls = false → ∀ e ∈ parts, e.1.1 ≠ id))
      (fun t => ∃ parts, t = { d with calls := d.calls + 1, parts := parts } ∧
        (env.fails d.calls = false → ∀ e ∈ parts, e.1.1 ≠ id)) d := by
    refine wp_called (fun _ => ?_) fun hbad => ⟨d.parts, rfl, fun hfine => ?_⟩
    · rw [wp_bind, wp_get]
      split
      · exact ⟨_, rfl, fun _ e he => by simpa using List.of_mem_filter he⟩
      · next hnone =>
        refine ⟨_, rfl, fun _ e he heq => hnone (List.any_eq_true.mpr ⟨e, he, ?_⟩)⟩
        rw [heq]
        exact beq_self_eq_true id
    · rw [hfine] at hbad
      cases hbad
  exact (panicless_removeMultipartDir id).wp_attempt hdir (fun _ _ h => h) fun _ _ h => h

end Effects

section Upload

variable {env : Env} {c : Nat} {d t : Depot} {moveId user : Uuid} {key : String}
  {info : MoveRegistration} {record : Option RecordNetDisk}

theorem Registered.of_moves (h : Registered moveId key info user d) (ht : t.moves = d.moves) :
    Registered moveId key info user t :=
  ⟨ht ▸ h.keys, ht ▸ h.get, h.user, h.named⟩

theorem Deliverable.other (h : Deliverable moveId key info user record d) (k : Nat)
    (objects : List ((Uuid × Uuid) × Bytes)) :
    Deliverable moveId key info user record { d with calls := k, objects := objects } := by
  exact ⟨h.toRegistered.of_moves rfl, h.destination, h.cached, h.multipart, h.metas, h.storages,
    h.netDisk⟩

inductive Stopped (env : Env) (c : Nat) (moveId : Uuid) (key : String) (info : MoveRegistration)
    (user : Uuid) (record : Option RecordNetDisk) (d : Depot) : Prop where
  | early (info' : MoveRegistration) (hearly : FailsEarly env c) (hid : info'.metaId = info.metaId)
      (h : Deliverable moveId key info' user record d)
  | recorded (hlate : ¬FailsEarly env c) (hbad : ∃ k, env.fails k = true)
      (h : Registered moveId key info user d) (hrow : ∃ row ∈ d.metas, row.id = info.metaId)

theorem Deliverable.stop (h : Deliverable moveId key info user record d)
    (hearly : FailsEarly env c) {k : Nat} :
    Stopped env c moveId key info user record { d with calls := k } :=
  .early info hearly rfl (h.other k d.objects)

theorem Deliverable.wp_setMoveAsFailed (h : Deliverable moveId key info user record d)
    (reason : String) (hearly : FailsEarly env c) {Q : Unit → Depot → Prop}
    (hQ : ∀ t, Stopped env c moveId key info user record t → Q () t) :
    wp (FileMoveService.setMoveAsFailed moveId reason) env Q
      (Stopped env c moveId key info user record) d := by
  rw [FileMoveService.setMoveAsFailed, wp_bind]
  refine h.wp_getMoveInfo (fun _ => ?_) fun _ => h.stop hearly
  rw [wp_bind]
  refine wp_orFail (fun found hfound => ?_) fun hnone => absurd hnone (Option.some_ne_none _)
  cases hfound
  rw [MoveRegistrationRepo.updateWithLease, wp_bind, wp_get, wp_bind]
  refine wp_queryKeys (fun _ keys hkeys => ?_) fun _ => h.stop hearly
  rw [wp_bind]
  refine wp_orFail (fun first hfirst => ?_) fun _ => h.stop hearly
  have hmem : first ∈ keys := List.mem_of_mem_head? hfirst
  have hfirst : first = key := by
    have hglob := List.of_mem_filter (hkeys.mem_iff.mp hmem)
    obtain ⟨text, htext⟩ := FileMoveService.glob_key.mp hglob
    have hone := List.mem_filter.mpr ⟨List.mem_of_mem_filter (hkeys.mem_iff.mp hmem),
      FileMoveService.glob_moveIdKeyRegex.mpr ⟨text, _, htext⟩⟩
    rw [h.keys] at hone
    exact List.mem_singleton.mp hone
  subst hfirst
  refine wp_called (fun _ => ?_) fun _ => h.stop hearly
  refine hQ _ (.early (FileMoveService.markFailed reason info) hearly rfl ?_)
  have hin : first ∈ Assoc.keys d.moves :=
    List.mem_of_mem_filter (h.keys ▸ List.mem_singleton_self first)
  refine ⟨⟨?_, ?_, h.user, h.named⟩, h.destination, h.cached, h.multipart, h.metas, h.storages,
    h.netDisk⟩
  · rw [Assoc.keys_insert, if_pos hin, h.keys]
  · rw [Assoc.get_insert, if_pos rfl]

theorem Deliverable.wp_store (h : Deliverable moveId key info user record d) (content : Bytes)
    (hc : d.calls = c + 3) {Q : Uuid → Depot → Prop}
    (hok : ∀ server t, env.fails (c + 3) = false → env.server (c + 3) ≠ none →
      env.fails (c + 4) = false → ∀ objects, t = { d with calls := c + 5, objects := objects } →
        Q server t) :
    wp (FileUploadRunner.store moveId info content) env Q
      (Stopped env c moveId key info user record) d := by
  rw [FileUploadRunner.store, wp_bind]
  refine (panicless_upload _ _).wp_attempt (wp_upload info.metaId content) ?_ ?_
  · rintro server t ⟨hserver, hsome, hput, objects, ht⟩
    rw [hc] at hserver hsome hput ht
    exact hok server t hserver hsome hput objects ht
  · rintro e _ ⟨hbad, k, rfl⟩
    rw [hc] at hbad
    have hearly : FailsEarly env c := by
      obtain hbad | hbad | hbad := hbad
      · exact .inl ⟨3, by omega, hbad⟩
      · exact .inr hbad
      · exact .inl ⟨4, by omega, hbad⟩
    rw [wp_bind]
    exact (h.other k d.objects).wp_setMoveAsFailed _ hearly fun _ hstop => hstop

-- Only the effects on other stores tell `t` from `d`.
def Halted (env : Env) (d t : Depot) : Prop :=
  (∃ k, env.fails k = true) ∧ t.moves = d.moves ∧ t.metas = d.metas

theorem Halted.of_fails {k : Nat} (h : env.fails d.calls = true) :
    Halted env d { d with calls := k } :=
  ⟨⟨d.calls, h⟩, rfl, rfl⟩

theorem wp_record {id : Uuid} (fileName : String) (record : Option RecordNetDisk)
    (h : ∀ command ∈ d.netDisk, command.metaId ≠ id) :
    wp (NetDiskService.record id fileName record) env
      (fun _ t => ∃ k netDisk, t = { d with calls := k, netDisk := netDisk } ∧
        (netDisk.filter fun command => command.metaId = id).length = entries record)
      (Halted env d) d := by
  have hnone : (d.netDisk.filter fun command => command.metaId = id) = [] := by
    refine List.filter_eq_nil_iff.mpr fun command hcommand => ?_
    rw [decide_eq_true_eq]
    exact h command hcommand
  cases record with
  | none => exact ⟨d.calls, d.netDisk, rfl, by rw [hnone]; rfl⟩
  | some record =>
    rw [NetDiskService.record, NetDiskService.createFile]
    refine wp_called (fun _ => ⟨_, _, rfl, ?_⟩) fun hbad => Halted.of_fails hbad
    rw [List.filter_append, hnone, List.filter_singleton]
    simp [entries]

theorem wp_removeNormal {id : Uuid} (h : ∃ content, Assoc.get d.normal id = some content) :
    wp (CacheService.removeNormal id) env
      (fun _ t => ∃ normal, t = { d with calls := d.calls + 1, normal := normal } ∧
        Assoc.get normal id = none)
      (Halted env d) d := by
  rw [CacheService.removeNormal, wp_bind]
  refine wp_readNormal (fun _ content _ => ⟨_, rfl, ?_⟩) fun hbad => ?_
  · have hget := Assoc.get_filter d.normal (fun metaId => metaId != id) id
    rw [bne_self_eq_false, if_neg Bool.false_ne_true] at hget
    exact hget
  · obtain hbad | hnone := hbad
    · exact Halted.of_fails hbad
    · obtain ⟨content, hcontent⟩ := h
      rw [hcontent] at hnone
      cases hnone

theorem wp_remove (id : Uuid) :
    wp (MultipartService.remove id) env
      (fun _ t => ∃ gone multiparts parts,
        t = { d with calls := d.calls + 2, multiparts := multiparts, parts := parts } ∧
          gone ∈ (Assoc.keys d.multiparts).filter (glob (MultipartService.idKeyRegex id)) ∧
          multiparts = deleteKeys d.multiparts [gone] ∧
          (env.fails (d.calls + 1) = false → ∀ e ∈ parts, e.1.1 ≠ id))
      (fun t => t.moves = d.moves ∧ t.metas = d.metas ∧ (env.fails d.calls = true ∨
        (Assoc.keys d.multiparts).filter (glob (MultipartService.idKeyRegex id)) = [])) d := by
  rw [MultipartService.remove, wp_bind, MultipartRepo.deleteByKeyRegex, wp_bind, wp_get, wp_bind]
  refine wp_queryKeys (fun _ keys hkeys => ?_) fun hbad => ⟨rfl, rfl, .inl hbad⟩
  rw [wp_bind]
  refine wp_orFail (fun first hfirst => ?_) fun hnone => ?_
  · rw [wp_modify, wp_bind]
    refine wp_mono (wp_dropMultipartDir id) ?_ fun _ ht => ht
    rintro e _ ⟨parts, rfl, hparts⟩
    rw [wp_pure]
    exact ⟨first, _, parts, rfl, hkeys.mem_iff.mp (List.mem_of_mem_head? hfirst), rfl, hparts⟩
  · rw [List.head?_eq_none_iff.mp hnone] at hkeys
    exact ⟨rfl, rfl, .inr hkeys.nil_eq.symm⟩

theorem Registered.wp_removeAll (h : Registered moveId key info user d) :
    wp (FileMoveService.removeAllWithMetaId info.metaId) env
      (fun _ t => ∃ gone,
        t = { d with calls := d.calls + 1, moves := deleteKeys d.moves gone } ∧
        (Assoc.keys (deleteKeys d.moves gone)).filter
          (glob (anyUserKeyRegex (FileMoveService.metaIdKeyRegex info.metaId))) = [])
      (Halted env d) d := by
  rw [FileMoveService.removeAllWithMetaId, MoveRegistrationRepo.removeAllByKeyRegex, wp_bind,
    wp_get, wp_bind]
  refine wp_queryKeys (fun _ keys hkeys => ?_) fun hbad => Halted.of_fails hbad
  have hin : key ∈ Assoc.keys d.moves :=
    List.mem_of_mem_filter (h.keys ▸ List.mem_singleton_self key)
  have hmem : key ∈ keys := hkeys.mem_iff.mpr (List.mem_filter.mpr ⟨hin, h.named⟩)
  rw [if_neg (by rw [List.isEmpty_iff]; exact List.ne_nil_of_mem hmem), wp_modify]
  refine ⟨_, rfl, ?_⟩
  rw [filter_deleteKeys]
  refine List.filter_eq_nil_iff.mpr fun other hother => ?_
  have hgone : keys.contains other = true := List.contains_iff_mem.mpr (hkeys.mem_iff.mpr hother)
  rw [hgone]
  exact Bool.false_ne_true

structure Settled (moveId : Uuid) (key : String) (info : MoveRegistration) (user : Uuid)
    (d : Depot) : Prop extends Registered moveId key info user d where
  cached : ∃ content, Assoc.get d.normal info.metaId = some content
  multipart : ∃ key, (Assoc.keys d.multiparts).filter
    (glob (MultipartService.idKeyRegex info.metaId)) = [key]
  metas : (d.metas.filter fun row => row.id = info.metaId).length = 1
  storages : (d.storages.filter fun row => row.metaId = info.metaId).length = 1
  netDisk : ∀ command ∈ d.netDisk, command.metaId ≠ info.metaId

theorem Settled.row (h : Settled moveId key info user d) : ∃ row ∈ d.metas, row.id = info.metaId := by
  have hpos : 0 < (d.metas.filter fun row => row.id = info.metaId).length := by
    rw [h.metas]
    exact Nat.one_pos
  obtain ⟨row, hrow⟩ := List.exists_mem_of_length_pos hpos
  exact ⟨row, List.mem_of_mem_filter hrow, by simpa using List.of_mem_filter hrow⟩

theorem Deliverable.settled (h : Deliverable moveId key info user record d) {fileMeta : FileMeta}
    {storage : FileStorage} (hmeta : fileMeta.id = info.metaId)
    (hstorage : storage.metaId = info.metaId) (hmoves : t.moves = d.moves)
    (hnormal : t.normal = d.normal) (hmultiparts : t.multiparts = d.multiparts)
    (hnetDisk : t.netDisk = d.netDisk) (hmetas : t.metas = d.metas ++ [fileMeta])
    (hstorages : t.storages = d.storages ++ [storage]) : Settled moveId key info user t := by
  refine ⟨h.toRegistered.of_moves hmoves, hnormal ▸ h.cached, hmultiparts ▸ h.multipart, ?_, ?_,
    hnetDisk ▸ h.netDisk⟩
  · have hnone : (d.metas.filter fun row => row.id = info.metaId) = [] :=
      List.filter_eq_nil_iff.mpr fun row hrow => by simpa using h.metas row hrow
    rw [hmetas, List.filter_append, hnone, List.filter_singleton]
    simp [hmeta]
  · have hnone : (d.storages.filter fun row => row.metaId = info.metaId) = [] :=
      List.filter_eq_nil_iff.mpr fun row hrow => by simpa using h.storages row hrow
    rw [hstorages, List.filter_append, hnone, List.filter_singleton]
    simp [hstorage]

theorem Settled.wp_clear (h : Settled moveId key info user d) (fileName : String)
    (record : Option RecordNetDisk) :
    wp (NetDiskService.record info.metaId fileName record >>= fun _ =>
      CacheService.removeNormal info.metaId >>= fun _ =>
        MultipartService.remove info.metaId >>= fun _ =>
          FileMoveService.removeAllWithMetaId info.metaId) env
      (fun _ t => (∀ k, env.fails k = false) → Moved info.metaId record t) (Halted env d) d := by
  rw [wp_bind]
  refine wp_mono (wp_record fileName record h.netDisk) ?_ fun _ ht => ht
  rintro _ _ ⟨k, netDisk, rfl, hentries⟩
  rw [wp_bind]
  refine wp_mono (wp_removeNormal h.cached) ?_ fun _ hu => hu
  rintro _ _ ⟨normal, rfl, hnormal⟩
  rw [wp_bind]
  obtain ⟨multipart, hmultipart⟩ := h.multipart
  refine wp_mono (wp_remove info.metaId) ?_ ?_
  · rintro _ _ ⟨gone, multiparts, parts, rfl, hgone, rfl, hparts⟩
    rw [hmultipart, List.mem_singleton] at hgone
    have hmultiparts : (Assoc.keys (deleteKeys d.multiparts [gone])).filter
        (glob (MultipartService.idKeyRegex info.metaId)) = [] := by
      rw [filter_deleteKeys, hmultipart, hgone]
      simp
    have hkept := h.toRegistered.of_moves (t := { d with
      calls := k + 3, netDisk := netDisk, normal := normal
      multiparts := deleteKeys d.multiparts [gone], parts := parts }) rfl
    refine wp_mono hkept.wp_removeAll ?_ fun _ hu => hu
    rintro _ _ ⟨moves, rfl, hmoves⟩ hfine
    exact ⟨h.metas, h.storages, hentries, hnormal, hparts (hfine _), hmultiparts, hmoves⟩
  · rintro u ⟨hmoves, hmetas, hbad | hnone⟩
    · exact ⟨⟨_, hbad⟩, hmoves, hmetas⟩
    · rw [hmultipart] at hnone
      cases hnone

theorem Deliverable.wp_uploadFile (env : Env) {cmd : FileUploadCommand}
    (h : Deliverable cmd.moveId key info user record d) :
    wp (FileUploadRunner.uploadFile cmd) env
      (fun _ t => (∀ k, env.fails k = false) → Moved info.metaId record t)
      (Stopped env d.calls cmd.moveId key info user record) d := by
  rw [FileUploadRunner.uploadFile, wp_bind]
  refine h.wp_getMoveInfo (fun h0 => ?_) fun hbad => h.stop (.inl ⟨0, by omega, hbad⟩)
  rw [wp_bind]
  refine wp_orFail (fun found hfound => ?_) fun hnone => absurd hnone (Option.some_ne_none _)
  cases hfound
  have h₁ : Deliverable cmd.moveId key info user record { d with calls := d.calls + 1 } :=
    h.other _ _
  rw [wp_bind]
  refine h₁.wp_getUserId (fun hfine₁ => ?_) fun hbad => h₁.stop (.inl ⟨1, by omega, hbad⟩)
  rw [wp_bind]
  refine wp_orFail (fun found hfound => ?_) fun hnone => absurd hnone (Option.some_ne_none _)
  cases hfound
  rw [h.destination, wp_bind, FileUploadRunner.destinationRecord, wp_pure, wp_bind]
  have h₂ : Deliverable cmd.moveId key info user record { d with calls := d.calls + 2 } :=
    h.other _ _
  refine wp_readNormal (fun hfine₂ content _ => ?_) fun hbad => ?_
  · have h₃ : Deliverable cmd.moveId key info user record { d with calls := d.calls + 3 } :=
      h.other _ _
    rw [wp_bind]
    refine h₃.wp_store content rfl fun server t hserver hsome hput objects ht => ?_
    subst ht
    have h₄ := h.other (d.calls + 5) objects
    rw [wp_bind, MetaStorageService.recordMetaAndStorage]
    refine wp_called (fun hrecorded => ?_) fun hbad => ?_
    · rw [wp_bind, wp_get]
      have hnew : ¬(d.metas.any fun row => row.id == info.metaId) = true := by
        rw [List.any_eq_true]
        rintro ⟨row, hrow, hid⟩
        exact h.metas row hrow (eq_of_beq hid)
      rw [if_neg hnew, wp_modify]
      have hlate := not_failsEarly h0 hfine₁ hfine₂ hserver hput hrecorded hsome
      have hsettled := h.settled (t := { d with
        calls := d.calls + 6, objects := objects
        metas := d.metas ++ [⟨info.metaId, info.fileName, info.hash, info.hashAlgorithm, info.size⟩]
        storages := d.storages ++ [⟨server, info.metaId, user⟩] }) rfl rfl rfl rfl rfl rfl rfl rfl
      refine wp_mono (hsettled.wp_clear info.fileName record) (fun _ _ hmoved => hmoved) ?_
      rintro u ⟨hbad, hmoves, hmetas⟩
      exact .recorded hlate hbad (hsettled.toRegistered.of_moves hmoves) (hmetas ▸ hsettled.row)
    · exact h₄.stop (.inl ⟨5, by omega, hbad⟩)
  · obtain hbad | hnone := hbad
    · exact h₂.stop (.inl ⟨2, by omega, hbad⟩)
    · obtain ⟨content, hcontent⟩ := h.cached
      rw [hcontent] at hnone
      cases hnone

theorem wp_store_metas (content : Bytes) :
    wp (FileUploadRunner.store moveId info content) env (fun _ t => t.metas = d.metas)
      (fun _ => True) d := by
  rw [FileUploadRunner.store, wp_bind]
  refine (panicless_upload _ _).wp_attempt (wp_upload info.metaId content) ?_ ?_
  · rintro server _ ⟨-, -, -, objects, rfl⟩
    exact rfl
  · rintro e _ -
    rw [wp_bind]
    exact wp_mono (wp_true _) (fun _ _ _ => trivial) fun _ _ => trivial

theorem Registered.wp_uploadFile (env : Env) {cmd : FileUploadCommand}
    (h : Registered cmd.moveId key info user d) (hrow : ∃ row ∈ d.metas, row.id = info.metaId) :
    wp (FileUploadRunner.uploadFile cmd) env (fun _ _ => False) (fun _ => True) d := by
  rw [FileUploadRunner.uploadFile, wp_bind]
  refine h.wp_getMoveInfo (fun _ => ?_) fun _ => trivial
  rw [wp_bind]
  refine wp_orFail (fun found hfound => ?_) fun _ => trivial
  cases hfound
  have h₁ : Registered cmd.moveId key info user { d with calls := d.calls + 1 } := h.of_moves rfl
  rw [wp_bind]
  refine h₁.wp_getUserId (fun _ => ?_) fun _ => trivial
  rw [wp_bind]
  refine wp_orFail (fun found hfound => ?_) fun _ => trivial
  cases hfound
  rw [wp_bind]
  have hdestination : wp (FileUploadRunner.destinationRecord info.destination) env
      (fun _ t => t.metas = d.metas) (fun _ => True) { d with calls := d.calls + 2 } := by
    cases info.destination with
    | snapshot nodeId timestamp fileId => trivial
    | storageServer record => rfl
  refine wp_mono hdestination (fun record t₂ ht₂ => ?_) fun _ _ => trivial
  rw [wp_bind]
  refine wp_readNormal (fun _ content _ => ?_) fun _ => trivial
  rw [wp_bind]
  refine wp_mono (wp_store_metas content) (fun server t₃ ht₃ => ?_) fun _ _ => trivial
  rw [wp_bind, MetaStorageService.recordMetaAndStorage]
  refine wp_called (fun _ => ?_) fun _ => trivial
  rw [wp_bind, wp_get]
  have htaken : (t₃.metas.any fun row => row.id == info.metaId) = true := by
    obtain ⟨row, hmem, hid⟩ := hrow
    refine List.any_eq_true.mpr ⟨row, ?_, ?_⟩
    · rw [ht₃, ht₂]
      exact hmem
    · rw [hid]
      exact beq_self_eq_true _
  rw [if_pos htaken]
  trivial

end Upload

def retried (env env' : Env) (cmd : FileUploadCommand) (d : Depot) : Outcome Exception Unit × Depot :=
  FileUploadRunner.uploadFile cmd env' (FileUploadRunner.uploadFile cmd env d).2

theorem retry_completes_iff {env env' : Env} {d : Depot} {cmd : FileUploadCommand} {key : String}
    {info : MoveRegistration} {user : Uuid} {record : Option RecordNetDisk}
    (h : Deliverable cmd.moveId key info user record d)
    (hfailed : ∀ a, (FileUploadRunner.uploadFile cmd env d).1 ≠ .ok a)
    (hfine : ∀ k, env'.fails k = false) (hserver : ∀ k, env'.server k ≠ none) :
    ((∃ a, (retried env env' cmd d).1 = .ok a) ∧
        Moved info.metaId record (retried env env' cmd d).2) ↔ FailsEarly env d.calls := by
  obtain ⟨a, ha, -⟩ | ⟨-, hstopped⟩ := wp_run (h.wp_uploadFile env)
  · exact absurd ha (hfailed a)
  cases hstopped with
  | early info' hearly hid h' =>
    refine ⟨fun _ => hearly, fun _ => ?_⟩
    obtain ⟨a, ha, hmoved⟩ | ⟨-, hstopped⟩ := wp_run (h'.wp_uploadFile env')
    · exact ⟨⟨a, ha⟩, hid ▸ hmoved hfine⟩
    · exfalso
      cases hstopped with
      | early _ hbad =>
        obtain ⟨i, -, hbad⟩ | hnone := hbad
        · rw [hfine] at hbad
          cases hbad
        · exact hserver _ hnone
      | recorded _ hbad =>
        obtain ⟨k, hbad⟩ := hbad
        rw [hfine] at hbad
        cases hbad
  | recorded hlate _ hkept hrow =>
    refine ⟨?_, fun hearly => absurd hearly hlate⟩
    rintro ⟨⟨a, ha⟩, -⟩
    obtain ⟨_, _, hfalse⟩ | ⟨hnot, -⟩ := wp_run (hkept.wp_uploadFile env' hrow)
    · exact hfalse.elim
    · exact absurd ha (hnot a)

section Samples

def awaited : MoveRegistration :=
  ⟨500, 40, "out", "AB", .blake3, 2, .storageServer (some ⟨.unkonwn, .normal none⟩), false, none,
    none⟩

def awaitedKey : String := uuidText 5 ++ "_" ++ FileMoveService.key 500 40

def waiting : Depot :=
  { emptyDepot with
    normal := [(40, [65, 66])]
    moves := [(awaitedKey, awaited)]
    multiparts := [(MultipartService.idHashKey 40 "AB", ⟨40, "AB", .blake3, [true]⟩)] }

def failingAt (i : Nat) : Env := { upEnv with fails := fun k => k == i }

theorem waiting_deliverable :
    Deliverable 500 awaitedKey awaited 5 (some ⟨.unkonwn, .normal none⟩) waiting where
  keys := by decide +kernel
  get := by decide +kernel
  user := by decide +kernel
  named := by decide +kernel
  destination := rfl
  cached := ⟨[65, 66], rfl⟩
  multipart := ⟨MultipartService.idHashKey 40 "AB", by decide +kernel⟩
  metas := fun _ h => absurd h List.not_mem_nil
  storages := fun _ h => absurd h List.not_mem_nil
  netDisk := fun _ h => absurd h List.not_mem_nil

theorem failing_stops {i : Nat} (h : (FileUploadRunner.uploadFile ⟨500, 5⟩ (failingAt i) waiting).1.toOption =
    none) (a : Unit) : (FileUploadRunner.uploadFile ⟨500, 5⟩ (failingAt i) waiting).1 ≠ .ok a := by
  intro ha
  rw [Outcome.toOption_eq_some_iff.mpr ha] at h
  cases h

theorem retry_completes_sample :
    ((∃ a, (retried (failingAt 4) upEnv ⟨500, 5⟩ waiting).1 = .ok a) ∧
        Moved 40 (some ⟨.unkonwn, .normal none⟩)
          (retried (failingAt 4) upEnv ⟨500, 5⟩ waiting).2) ↔ FailsEarly (failingAt 4) 0 :=
  retry_completes_iff waiting_deliverable (failing_stops (by decide +kernel)) (fun _ => rfl)
    fun _ => Option.some_ne_none _

theorem retry_refused :
    (FileUploadRunner.uploadFile ⟨500, 5⟩ (failingAt 6) waiting).1 =
        .err (.anyhow "external call failed") ∧
      (retried (failingAt 6) upEnv ⟨500, 5⟩ waiting).1 = .err (.anyhow "statement failed") ∧
      (retried (failingAt 6) upEnv ⟨500, 5⟩ waiting).2.netDisk = [] := by
  decide +kernel

end Samples

end Kuintessence.Storage

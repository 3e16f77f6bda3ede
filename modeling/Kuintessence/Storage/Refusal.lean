import Kuintessence.Storage.Assembly

namespace Kuintessence.Storage

open Effect

-- Nothing that is stored differs; how many external calls were made is not stored.
structure Same (d t : Depot) : Prop where
  parts : ∀ key, Assoc.get t.parts key = Assoc.get d.parts key
  normal : ∀ id, Assoc.get t.normal id = Assoc.get d.normal id
  multiparts : ∀ key, Assoc.get t.multiparts key = Assoc.get d.multiparts key
  snapshotFiles : t.snapshotFiles = d.snapshotFiles
  moves : t.moves = d.moves
  snapshots : t.snapshots = d.snapshots
  metas : t.metas = d.metas
  storages : t.storages = d.storages
  netDisk : t.netDisk = d.netDisk
  uploads : t.uploads = d.uploads
  objects : t.objects = d.objects

-- Completed, or moved or cancelled and so without a record.
def Over (d : Depot) (id : Uuid) : Prop :=
  ∀ e ∈ d.multiparts, glob (MultipartService.idKeyRegex id) e.1 = true →
    e.2.parts.all (· == true) = true ∧ ∀ part ∈ d.parts, part.1.1 ≠ id

section Stages

variable (env : Env) (d : Depot) (part : Part)

def OnDisk : Prop := Assoc.get d.parts (part.metaId, part.nth) = some part.content

def Multipart.mark (m : Multipart) (nth : Nat) : Multipart := { m with parts := m.parts.set nth true }

def Marked (m : Multipart) : Prop :=
  Assoc.get d.multiparts (MultipartService.idHashKey part.metaId m.hash) = some (m.mark part.nth)

-- The record that the lookup finds.
def record : Option Multipart :=
  ((env.keys (d.calls + 1)).on ((Assoc.keys d.multiparts).filter
    (glob (MultipartService.idKeyRegex part.metaId)))).head?.bind (Assoc.get d.multiparts)

structure Recorded (m : Multipart) : Prop where
  written : env.fails d.calls = false
  queried : env.fails (d.calls + 1) = false
  found : record env d part = some m
  inRange : part.nth < m.parts.length
  saved : env.fails (d.calls + 2) = false

def Whole (m : Multipart) : Prop :=
  MultipartService.unfinishedParts (m.mark part.nth).parts = []

def onDisk (nth : Nat) : Option Bytes :=
  if nth = part.nth then some part.content else Assoc.get d.parts (part.metaId, nth)

def joined (m : Multipart) : Bytes :=
  (List.range m.parts.length).flatMap fun nth => (onDisk d part nth).getD []

structure Joins (m : Multipart) : Prop where
  reads : ∀ nth < m.parts.length, env.fails (d.calls + 3 + nth) = false
  present : ∀ nth < m.parts.length, (onDisk d part nth).isSome = true
  hash : MultipartService.toUppercase (env.blake3 (joined d part m)) = m.hash
  writes : env.fails (d.calls + 3 + m.parts.length) = false

def Removes (m : Multipart) : Prop := env.fails (d.calls + 4 + m.parts.length) = false

def Merged (m : Multipart) : Prop :=
  Assoc.get d.normal part.metaId = some (joined d part m)

-- What the call stores on the way to an error was stored before it.
structure Harmless : Prop where
  unrecorded : env.fails d.calls = false → (∀ m, ¬Recorded env d part m) → OnDisk d part
  unmerged : ∀ m, Recorded env d part m → Whole part m → ¬Joins env d part m →
    OnDisk d part ∧ Marked d part m
  unremoved : ∀ m, Recorded env d part m → Whole part m → Joins env d part m →
    ¬Removes env d m → OnDisk d part ∧ Marked d part m ∧ Merged d part m
  repeated : ∀ m, Recorded env d part m → Whole part m → Joins env d part m → Removes env d m →
    Over d part.metaId → Marked d part m ∧ Merged d part m

end Stages

section Endings

variable (env : Env) (d : Depot) (part : Part)

def written (k : Nat) : Depot :=
  { d with
    calls := k
    parts := Assoc.insert d.parts (part.metaId, part.nth) part.content }

def marked (m : Multipart) (k : Nat) : Depot :=
  { written d part k with
    multiparts := Assoc.insert d.multiparts (MultipartService.idHashKey part.metaId m.hash)
      (m.mark part.nth) }

def merged (m : Multipart) (k : Nat) : Depot :=
  { marked d part m k with normal := Assoc.insert d.normal part.metaId (joined d part m) }

def removed (m : Multipart) (k : Nat) : Depot :=
  { merged d part m k with
    parts := (written d part k).parts.filter fun e => e.1.1 != part.metaId }

-- Where the call can stop, with the value it was going to return or without.
inductive Ending : Bool → Depot → Prop where
  | unwritten (h : env.fails d.calls = true) (k : Nat) : Ending false { d with calls := k }
  | unrecorded (h : env.fails d.calls = false) (hnot : ∀ m, ¬Recorded env d part m) (k : Nat) :
      Ending false (written d part k)
  | waiting {m : Multipart} (h : Recorded env d part m) (hopen : ¬Whole part m) (k : Nat) :
      Ending true (marked d part m k)
  | unmerged {m : Multipart} (h : Recorded env d part m) (hwhole : Whole part m)
      (hnot : ¬Joins env d part m) (k : Nat) : Ending false (marked d part m k)
  | unremoved {m : Multipart} (h : Recorded env d part m) (hwhole : Whole part m)
      (hjoins : Joins env d part m) (hnot : ¬Removes env d m) (k : Nat) :
      Ending false (merged d part m k)
  | removed {m : Multipart} (h : Recorded env d part m) (hwhole : Whole part m)
      (hjoins : Joins env d part m) (hremoves : Removes env d m) (k : Nat) :
      Ending true (removed d part m k)

end Endings

section Reading

variable {env : Env} {id : Uuid}

theorem wp_readPart (nth : Nat) (d : Depot) : wp (CacheService.readPart id nth) env
    (fun content t => env.fails d.calls = false ∧
      Assoc.get d.parts (id, nth) = some content ∧ t = { d with calls := d.calls + 1 })
    (fun t => (env.fails d.calls = true ∨ Assoc.get d.parts (id, nth) = none) ∧
      t = { d with calls := d.calls + 1 }) d := by
  rw [CacheService.readPart, wp_bind]
  refine wp_mono (wp_call d) ?_ fun t ht => ⟨.inl ht.1, ht.2⟩
  rintro k _ ⟨-, hfails, rfl⟩
  change wp (orFail _ (Assoc.get d.parts (id, nth))) env _ _ { d with calls := d.calls + 1 }
  cases hget : Assoc.get d.parts (id, nth) with
  | none => exact ⟨.inr rfl, rfl⟩
  | some content => exact ⟨hfails, rfl, rfl⟩

theorem wp_readParts (nths : List Nat) (d : Depot) :
    wp (mapEach (CacheService.readPart id) nths) env
      (fun contents t => (∀ i < nths.length, env.fails (d.calls + i) = false) ∧
        (∀ nth ∈ nths, (Assoc.get d.parts (id, nth)).isSome = true) ∧
        contents = nths.map (fun nth => (Assoc.get d.parts (id, nth)).getD []) ∧
        t = { d with calls := d.calls + nths.length })
      (fun t => ¬((∀ i < nths.length, env.fails (d.calls + i) = false) ∧
        ∀ nth ∈ nths, (Assoc.get d.parts (id, nth)).isSome = true) ∧
        ∃ k, t = { d with calls := k }) d := by
  induction nths generalizing d with
  | nil => exact ⟨by simp, by simp, rfl, rfl⟩
  | cons nth nths ih =>
    rw [mapEach, wp_bind]
    refine wp_mono (wp_readPart nth d) ?_ ?_
    · rintro content _ ⟨hfails, hget, rfl⟩
      rw [wp_bind]
      refine wp_mono (ih { d with calls := d.calls + 1 }) ?_ ?_
      · rintro contents _ ⟨hall, hpresent, rfl, rfl⟩
        refine ⟨fun i hi => ?_, fun i hi => ?_, ?_, ?_⟩
        · cases i with
          | zero => exact hfails
          | succ i =>
            rw [Nat.add_comm i, ← Nat.add_assoc]
            exact hall i (Nat.lt_of_succ_lt_succ hi)
        · obtain rfl | hi := List.mem_cons.mp hi
          · rw [hget]
            rfl
          · exact hpresent i hi
        · rw [List.map_cons, hget]
          rfl
        · rw [List.length_cons, Nat.add_comm nths.length, ← Nat.add_assoc]
      · rintro _ ⟨hnot, k, rfl⟩
        refine ⟨fun hyes => hnot ⟨fun i hi => ?_, fun i hi => ?_⟩, k, rfl⟩
        · have hnext := hyes.1 (i + 1) (Nat.succ_lt_succ hi)
          rwa [Nat.add_comm i, ← Nat.add_assoc] at hnext
        · exact hyes.2 i (List.mem_cons_of_mem nth hi)
    · rintro _ ⟨hfails, rfl⟩
      refine ⟨fun hyes => ?_, _, rfl⟩
      obtain hfails | hnone := hfails
      · have hzero := hyes.1 0 (Nat.zero_lt_succ _)
        rw [Nat.add_zero, hfails] at hzero
        cases hzero
      · have hsome := hyes.2 nth List.mem_cons_self
        rw [hnone] at hsome
        cases hsome

end Reading

section Spec

variable {env : Env} {d : Depot} {part : Part}

theorem get_written (nth k : Nat) :
    Assoc.get (written d part k).parts (part.metaId, nth) = onDisk d part nth := by
  rw [written, Assoc.get_insert, onDisk]
  by_cases h : nth = part.nth
  · rw [if_pos h, if_pos (by rw [h])]
  · rw [if_neg h, if_neg fun heq => h (Prod.ext_iff.mp heq).2]

theorem any_written (k : Nat) :
    ((written d part k).parts.any fun e => e.1.1 == part.metaId) = true := by
  have hmem : (part.metaId, part.nth) ∈ Assoc.keys (written d part k).parts :=
    Assoc.mem_keys_insert.mpr (.inr rfl)
  obtain ⟨e, he, hkey⟩ := List.mem_map.mp hmem
  exact List.any_eq_true.mpr ⟨e, he, by rw [hkey]; exact beq_self_eq_true _⟩

theorem wp_removeMultipartDir {id : Uuid} {t : Depot}
    (h : (t.parts.any fun e => e.1.1 == id) = true) :
    wp (CacheService.removeMultipartDir id) env
      (fun _ u => env.fails t.calls = false ∧ u = { t with
        calls := t.calls + 1, parts := t.parts.filter fun e => e.1.1 != id })
      (fun u => env.fails t.calls = true ∧ u = { t with calls := t.calls + 1 }) t := by
  rw [CacheService.removeMultipartDir, wp_bind]
  refine wp_mono (wp_call t) ?_ fun _ hu => hu
  rintro k _ ⟨-, hok, rfl⟩
  rw [wp_bind, wp_get, if_pos h, wp_modify]
  exact ⟨hok, rfl⟩

theorem wp_merge {m : Multipart} (h : Recorded env d part m) (hwhole : Whole part m) :
    wp (MultipartService.merge part.metaId (m.mark part.nth)) env (fun _ => Ending env d part true)
      (Ending env d part false) (marked d part m (d.calls + 3)) := by
  have hlength : (m.mark part.nth).parts.length = m.parts.length := by simp [Multipart.mark]
  rw [MultipartService.merge, wp_bind, wp_read, hlength, wp_bind]
  refine wp_mono (wp_readParts _ _) ?_ ?_
  · rintro contents _ ⟨hreads, hpresent, rfl, rfl⟩
    have hjoined : ((List.range m.parts.length).map fun nth =>
        (Assoc.get (marked d part m (d.calls + 3)).parts (part.metaId, nth)).getD []).flatten =
          joined d part m := by
      rw [joined, List.flatMap_def]
      exact congrArg List.flatten (List.map_congr_left fun nth _ =>
        congrArg (Option.getD · []) (get_written nth (d.calls + 3)))
    have hread : ∀ nth < m.parts.length, env.fails (d.calls + 3 + nth) = false := by
      rw [List.length_range] at hreads
      exact hreads
    have hdisk : ∀ nth < m.parts.length, (onDisk d part nth).isSome = true := by
      intro nth hnth
      rw [← get_written nth (d.calls + 3)]
      exact hpresent nth (List.mem_range.mpr hnth)
    dsimp only
    rw [hjoined, List.length_range]
    split
    · next hdiffers =>
      exact .unmerged h hwhole (fun hjoins => hdiffers hjoins.hash) _
    · next hsame =>
      rw [wp_bind, CacheService.writeNormal, wp_bind]
      refine wp_mono (wp_call _) ?_ ?_
      · rintro k _ ⟨-, hwrites, rfl⟩
        have hjoins : Joins env d part m := ⟨hread, hdisk, not_not.mp hsame, hwrites⟩
        have hnext : d.calls + 4 + m.parts.length = d.calls + 3 + m.parts.length + 1 := by omega
        rw [wp_modify]
        refine wp_mono (wp_removeMultipartDir (any_written (d.calls + 3))) ?_ ?_
        · rintro - _ ⟨hremoves, rfl⟩
          have hremoves : Removes env d m := by
            rw [Removes, hnext]
            exact hremoves
          exact .removed h hwhole hjoins hremoves (d.calls + 3 + m.parts.length + 1 + 1)
        · rintro _ ⟨hfails, rfl⟩
          refine .unremoved h hwhole hjoins (fun hremoves => ?_) _
          rw [Removes, hnext] at hremoves
          exact Bool.false_ne_true (hremoves.symm.trans hfails)
      · rintro _ ⟨hfails, rfl⟩
        refine .unmerged h hwhole (fun hjoins => ?_) _
        exact Bool.false_ne_true (hjoins.writes.symm.trans hfails)
  · rintro _ ⟨hnot, k, rfl⟩
    refine .unmerged h hwhole (fun hjoins => hnot ⟨fun nth hnth => ?_, fun nth hnth => ?_⟩) _
    · exact hjoins.reads nth (by simpa using hnth)
    · have hsome := hjoins.present nth (List.mem_range.mp hnth)
      rw [← get_written nth (d.calls + 3)] at hsome
      exact hsome

theorem wp_completePart : wp (MultipartService.completePart part) env
    (fun _ => Ending env d part true) (Ending env d part false) d := by
  rw [MultipartService.completePart, wp_bind]
  have hwrite : wp (CacheService.writePart part) env (fun _ t => env.fails d.calls = false ∧
      t = written d part (d.calls + 1)) (Ending env d part false) d := by
    rw [CacheService.writePart, wp_bind]
    refine wp_mono (wp_call d) ?_ ?_
    · rintro k _ ⟨-, hfails, rfl⟩
      exact ⟨hfails, rfl⟩
    · rintro _ ⟨hfails, rfl⟩
      exact .unwritten hfails _
  refine wp_mono hwrite ?_ fun _ h => h
  rintro - _ ⟨hwritten, rfl⟩
  have hget : wp (MultipartRepo.getOneByKeyRegex (MultipartService.idKeyRegex part.metaId)) env
      (fun found t => env.fails (d.calls + 1) = false ∧ found = record env d part ∧
        t = written d part (d.calls + 2)) (Ending env d part false)
      (written d part (d.calls + 1)) := by
    rw [MultipartRepo.getOneByKeyRegex, wp_bind, wp_get, wp_bind, queryKeys, wp_bind, wp_read,
      wp_bind]
    refine wp_mono (wp_call _) ?_ ?_
    · rintro k _ ⟨rfl, hfails, rfl⟩
      exact ⟨hfails, rfl, rfl⟩
    · rintro _ ⟨hfails, rfl⟩
      refine .unrecorded hwritten (fun m hm => ?_) _
      exact Bool.false_ne_true (hm.queried.symm.trans hfails)
  rw [wp_bind]
  refine wp_mono hget ?_ fun _ h => h
  rintro found _ ⟨hqueried, hfound, rfl⟩
  cases found with
  | none =>
    refine .unrecorded hwritten (fun m hm => ?_) _
    have hsome := hm.found
    rw [← hfound] at hsome
    cases hsome
  | some m =>
    dsimp only
    have hunique (m' : Multipart) (hm : Recorded env d part m') : m' = m :=
      Option.some_inj.mp (hm.found.symm.trans hfound.symm)
    split
    · next hrange =>
      rw [wp_bind]
      have hsave : wp (MultipartRepo.write (MultipartService.idHashKey part.metaId m.hash)
          (m.mark part.nth)) env (fun _ t => env.fails (d.calls + 2) = false ∧
            t = marked d part m (d.calls + 3)) (Ending env d part false)
          (written d part (d.calls + 2)) := by
        rw [MultipartRepo.write, wp_bind]
        refine wp_mono (wp_call _) ?_ ?_
        · rintro k _ ⟨-, hfails, rfl⟩
          exact ⟨hfails, rfl⟩
        · rintro _ ⟨hfails, rfl⟩
          refine .unrecorded hwritten (fun m' hm => ?_) _
          exact Bool.false_ne_true (hm.saved.symm.trans hfails)
      refine wp_mono hsave ?_ fun _ h => h
      rintro - _ ⟨hsaved, rfl⟩
      have hrecorded : Recorded env d part m := ⟨hwritten, hqueried, hfound.symm, hrange, hsaved⟩
      split
      · next hempty =>
        rw [wp_bind]
        have hwhole : Whole part m := List.isEmpty_iff.mp hempty
        exact wp_mono (wp_merge hrecorded hwhole) (fun _ _ h => h) fun _ h => h
      · next hopen =>
        exact .waiting hrecorded (fun hwhole => hopen (List.isEmpty_iff.mpr hwhole)) _
    · next hrange =>
      refine .unrecorded hwritten (fun m' hm => ?_) _
      exact hrange (hunique m' hm ▸ hm.inRange)

end Spec

section Harmless

variable {env : Env} {d : Depot} {part : Part}

theorem Recorded.unique {m m' : Multipart} (h : Recorded env d part m)
    (h' : Recorded env d part m') : m' = m := Option.some_inj.mp (h'.found.symm.trans h.found)

theorem insert_same {κ ν : Type} [DecidableEq κ] {entries : List (κ × ν)} {key : κ} {v : ν} :
    (∀ k, Assoc.get (Assoc.insert entries key v) k = Assoc.get entries k) ↔
      Assoc.get entries key = some v := by
  constructor
  · intro h
    rw [← h key, Assoc.get_insert, if_pos rfl]
  · intro h k
    rw [Assoc.get_insert]
    split
    · next hk => rw [hk, h]
    · rfl

theorem same_calls (k : Nat) : Same d { d with calls := k } :=
  ⟨fun _ => rfl, fun _ => rfl, fun _ => rfl, rfl, rfl, rfl, rfl, rfl, rfl, rfl, rfl⟩

theorem same_written (k : Nat) : Same d (written d part k) ↔ OnDisk d part :=
  ⟨fun h => insert_same.mp h.parts, fun h =>
    ⟨insert_same.mpr h, fun _ => rfl, fun _ => rfl, rfl, rfl, rfl, rfl, rfl, rfl, rfl, rfl⟩⟩

theorem same_marked (m : Multipart) (k : Nat) :
    Same d (marked d part m k) ↔ OnDisk d part ∧ Marked d part m :=
  ⟨fun h => ⟨insert_same.mp h.parts, insert_same.mp h.multiparts⟩, fun h =>
    ⟨insert_same.mpr h.1, fun _ => rfl, insert_same.mpr h.2, rfl, rfl, rfl, rfl, rfl, rfl, rfl, rfl⟩⟩

theorem same_merged (m : Multipart) (k : Nat) :
    Same d (merged d part m k) ↔ OnDisk d part ∧ Marked d part m ∧ Merged d part m :=
  ⟨fun h => ⟨insert_same.mp h.parts, insert_same.mp h.multiparts, insert_same.mp h.normal⟩,
    fun h => ⟨insert_same.mpr h.1, insert_same.mpr h.2.2, insert_same.mpr h.2.1, rfl, rfl, rfl, rfl,
      rfl, rfl, rfl, rfl⟩⟩

theorem same_removed {m : Multipart} (hempty : ∀ e ∈ d.parts, e.1.1 ≠ part.metaId) (k : Nat) :
    Same d (removed d part m k) ↔ Marked d part m ∧ Merged d part m := by
  have hparts (key : Uuid × Nat) : Assoc.get (removed d part m k).parts key = Assoc.get d.parts key := by
    refine (Assoc.get_filter (written d part k).parts (fun x => x.1 != part.metaId) key).trans ?_
    by_cases hkey : key.1 = part.metaId
    · rw [if_neg (by simpa using hkey), eq_comm, Assoc.get_eq_none_iff]
      intro hmem
      obtain ⟨e, he, rfl⟩ := List.mem_map.mp hmem
      exact hempty e he hkey
    · rw [if_pos (by simpa using hkey), written, Assoc.get_insert,
        if_neg fun heq => hkey (Prod.ext_iff.mp heq).1]
  exact ⟨fun h => ⟨insert_same.mp h.multiparts, insert_same.mp h.normal⟩, fun h =>
    ⟨hparts, insert_same.mpr h.2, insert_same.mpr h.1, rfl, rfl, rfl, rfl, rfl, rfl, rfl, rfl⟩⟩

theorem Recorded.entry {m : Multipart} (h : Recorded env d part m) :
    ∃ e ∈ d.multiparts, glob (MultipartService.idKeyRegex part.metaId) e.1 = true ∧ e.2 = m := by
  obtain ⟨key, hhead, hget⟩ := Option.bind_eq_some_iff.mp h.found
  have hkey := (Order.mem_on _).mp (List.mem_of_mem_head? hhead)
  exact ⟨(key, m), Assoc.mem_of_get hget, (List.mem_filter.mp hkey).2, rfl⟩

theorem not_over {m : Multipart} (h : Recorded env d part m) (hopen : ¬Whole part m) :
    ¬Over d part.metaId := by
  intro hover
  obtain ⟨e, he, hglob, rfl⟩ := h.entry
  obtain ⟨hall, -⟩ := hover e he hglob
  refine hopen (List.filter_eq_nil_iff.mpr fun nth _ hfalse => ?_)
  obtain hin | heq := List.mem_or_eq_of_mem_set (List.mem_of_getElem? (beq_iff_eq.mp hfalse))
  · exact Bool.false_ne_true (beq_iff_eq.mp (List.all_eq_true.mp hall false hin))
  · exact Bool.false_ne_true heq

theorem Ending.harmless_iff {ok : Bool} {t : Depot} (h : Ending env d part ok t) :
    (ok = false ∨ Over d part.metaId → Same d t) ↔ Harmless env d part := by
  cases h with
  | unwritten hfails k =>
    refine iff_of_true (fun _ => same_calls k) ⟨fun hok => ?_, ?_, ?_, ?_⟩
    · exact absurd (hok.symm.trans hfails) Bool.false_ne_true
    all_goals exact fun m hm => absurd (hm.written.symm.trans hfails) Bool.false_ne_true
  | unrecorded hok hnot k =>
    rw [same_written]
    refine ⟨fun hsame => ⟨fun _ _ => hsame (.inl rfl), ?_, ?_, ?_⟩,
      fun hharmless _ => hharmless.unrecorded hok hnot⟩
    all_goals exact fun m hm => absurd hm (hnot m)
  | waiting hm hopen k =>
    refine iff_of_true ?_ ⟨fun _ hnot => absurd hm (hnot _), ?_, ?_, ?_⟩
    · rintro (hok | hover)
      · cases hok
      · exact absurd hover (not_over hm hopen)
    all_goals exact fun m' hm' hwhole => absurd (hm.unique hm' ▸ hwhole) hopen
  | unmerged hm hwhole hnot k =>
    rw [same_marked]
    refine ⟨fun hsame => ⟨fun _ hnone => absurd hm (hnone _), fun m' hm' _ _ => ?_, ?_, ?_⟩,
      fun hharmless _ => hharmless.unmerged _ hm hwhole hnot⟩
    · exact hm.unique hm' ▸ hsame (.inl rfl)
    all_goals exact fun m' hm' _ hjoins => absurd (hm.unique hm' ▸ hjoins) hnot
  | unremoved hm hwhole hjoins hnot k =>
    rw [same_merged]
    refine ⟨fun hsame => ⟨fun _ hnone => absurd hm (hnone _), ?_, fun m' hm' _ _ _ => ?_, ?_⟩,
      fun hharmless _ => hharmless.unremoved _ hm hwhole hjoins hnot⟩
    · exact fun m' hm' _ hnot' => absurd (hm.unique hm' ▸ hjoins) hnot'
    · exact hm.unique hm' ▸ hsame (.inl rfl)
    · exact fun m' hm' _ _ hremoves => absurd (hm.unique hm' ▸ hremoves) hnot
  | removed hm hwhole hjoins hremoves k =>
    have hempty (hover : Over d part.metaId) : ∀ e ∈ d.parts, e.1.1 ≠ part.metaId := by
      obtain ⟨e, he, hglob, -⟩ := hm.entry
      exact (hover e he hglob).2
    constructor
    · refine fun hsame => ⟨fun _ hnone => absurd hm (hnone _), ?_, ?_,
        fun m' hm' _ _ _ hover => ?_⟩
      · exact fun m' hm' _ hnot => absurd (hm.unique hm' ▸ hjoins) hnot
      · exact fun m' hm' _ _ hnot => absurd (hm.unique hm' ▸ hremoves) hnot
      · exact hm.unique hm' ▸ (same_removed (hempty hover) k).mp (hsame (.inr hover))
    · rintro hharmless (hok | hover)
      · cases hok
      · exact (same_removed (hempty hover) k).mpr
          (hharmless.repeated _ hm hwhole hjoins hremoves hover)

end Harmless

end Kuintessence.Storage

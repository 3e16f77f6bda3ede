import Kuintessence.Storage.Creation

namespace Kuintessence.Storage.Creation

open Effect

structure Keyed (d : Depot) : Prop where
  nodup : (Assoc.keys d.multiparts).Nodup
  keys : ∀ e ∈ d.multiparts, e.1 = MultipartService.idHashKey e.2.metaId e.2.hash

section Records

variable {d t : Depot} {id : Uuid} {e : String × Multipart}

theorem Keyed.of_eq (h : Keyed d) (ht : t.multiparts = d.multiparts) : Keyed t :=
  ⟨ht ▸ h.nodup, ht ▸ h.keys⟩

theorem Keyed.glob_id (h : Keyed d) (id : Uuid) (he : e ∈ d.multiparts) :
    glob (MultipartService.idKeyRegex id) e.1 = true ↔ e.2.metaId = id := by
  rw [h.keys e he, MultipartService.glob_id_iff]
  exact eq_comm

theorem Keyed.glob_hash (h : Keyed d) {hash : String} (hexact : Exact d hash)
    (he : e ∈ d.multiparts) :
    glob (MultipartService.hashKeyRegex hash) e.1 = true ↔ e.2.hash = hash := by
  rw [h.keys e he, MultipartService.glob_hash_iff (List.all_eq_true.mp hexact.1)]
  exact or_iff_left (hexact.2 e he)

theorem Keyed.of_filter_nil (h : Keyed d)
    (hnil : (Assoc.keys d.multiparts).filter (glob (MultipartService.idKeyRegex id)) = [])
    (he : e ∈ d.multiparts) : e.2.metaId ≠ id := by
  intro hid
  have hmem := List.mem_filter.mpr ⟨Assoc.mem_keys_of_mem he, (h.glob_id id he).mpr hid⟩
  rw [hnil] at hmem
  cases hmem

theorem Touches.of_eq (ht : t.multiparts = d.multiparts) : Touches id d t := by
  refine ⟨fun e _ => ?_, fun e he hid => ⟨e, ?_, rfl, hid, rfl⟩⟩
  · rw [ht]
  · rw [← ht]
    exact he

theorem Touches.trans_eq {u : Depot} (h : Touches id d t) (hu : u.multiparts = t.multiparts) :
    Touches id d u := by
  refine ⟨fun e he => ?_, fun e he => ?_⟩
  · rw [hu]
    exact h.others e he
  · rw [hu] at he
    exact h.own e he

theorem Touches.from_eq {u : Depot} (h : Touches id t u) (ht : t.multiparts = d.multiparts) :
    Touches id d u := by
  refine ⟨fun e he => ?_, fun e he => ?_⟩
  · rw [← ht]
    exact h.others e he
  · rw [← ht]
    exact h.own e he

-- Writing the record of the id again.
theorem Keyed.touches_save (h : Keyed d) {m : Multipart} (m' : Multipart) (k : Nat)
    (hm : (MultipartService.idHashKey id m.hash, m) ∈ d.multiparts) (hid : m.metaId = id)
    (hid' : m'.metaId = id) (hhash : m'.hash = m.hash) :
    Touches id d { d with
      calls := k
      multiparts := Assoc.insert d.multiparts (MultipartService.idHashKey id m.hash) m' } := by
  have hget : ∀ e : String × Multipart, e ∈ d.multiparts ↔ Assoc.get d.multiparts e.1 = some e.2 :=
    fun e => (Assoc.get_eq_some_iff h.nodup).symm
  have hnew := Assoc.nodup_keys_insert h.nodup (MultipartService.idHashKey id m.hash) m'
  refine ⟨fun e he => ?_, fun e he heid => ?_⟩
  · rw [← Assoc.get_eq_some_iff hnew, Assoc.get_insert, hget]
    split
    · next hkey =>
      have hold := (hget _).mp hm
      rw [hkey, hold]
      constructor
      · intro heq
        rw [← Option.some.inj heq] at he
        exact absurd hid' he
      · intro heq
        rw [← Option.some.inj heq] at he
        exact absurd hid he
    · exact Iff.rfl
  · obtain he | rfl := Assoc.mem_of_mem_insert he
    · exact ⟨e, he, rfl, heid, rfl⟩
    · exact ⟨_, hm, rfl, hid, hhash.symm⟩

theorem Keyed.touches_delete (h : Keyed d) {key : String}
    (hkey : glob (MultipartService.idKeyRegex id) key = true) {k : Nat} :
    Touches id d { d with calls := k, multiparts := deleteKeys d.multiparts [key] } := by
  refine ⟨fun e he => ⟨fun hin => List.mem_of_mem_filter hin, fun hin => ?_⟩, fun e he hid =>
    ⟨e, List.mem_of_mem_filter he, rfl, hid, rfl⟩⟩
  refine List.mem_filter.mpr ⟨hin, ?_⟩
  have hne : e.1 ≠ key := by
    rintro rfl
    exact he ((h.glob_id id hin).mp hkey)
  simpa using hne

end Records

section Operations

variable {env : Env} {d : Depot} {id : Uuid} {α : Type}

def sameFrame : Frame Depot where
  rel s t := t.multiparts = s.multiparts
  refl _ := rfl
  trans h h' := h'.trans h

theorem same_modify {f : Depot → Depot} (h : ∀ d, (f d).multiparts = d.multiparts) :
    Keeps sameFrame (.modify f : Act Unit) := keeps_modify h

theorem same_call : Keeps sameFrame call := by
  refine keeps_read.bind fun env => keeps_get.bind fun d =>
    Keeps.bind (same_modify fun _ => rfl) fun _ => ?_
  split
  · exact keeps_throw _
  · exact keeps_pure _

theorem same_orFail (message : String) (o : Option α) : Keeps sameFrame (orFail message o) := by
  cases o with
  | none => exact keeps_throw _
  | some a => exact keeps_pure a

theorem same_removeMultipartDir (metaId : Uuid) :
    Keeps sameFrame (CacheService.removeMultipartDir metaId) := by
  refine same_call.bind fun _ => keeps_get.bind fun d => ?_
  split
  · exact same_modify fun _ => rfl
  · exact keeps_throw _

theorem same_merge (metaId : Uuid) (m : Multipart) :
    Keeps sameFrame (MultipartService.merge metaId m) := by
  refine keeps_read.bind fun env => (Keeps.mapEach (fun nth => ?_) _).bind fun contents => ?_
  · exact same_call.bind fun _ => keeps_get.bind fun d => same_orFail _ _
  · dsimp only
    split
    · exact keeps_throw _
    · exact Keeps.bind (same_call.bind fun _ => same_modify fun _ => rfl) fun _ =>
        same_removeMultipartDir metaId

theorem Keyed.wp_getById (h : Keyed d) : wp
    (MultipartRepo.getOneByKeyRegex (MultipartService.idKeyRegex id)) env
    (fun found t => t.multiparts = d.multiparts ∧
      (found = none → ∀ e ∈ d.multiparts, e.2.metaId ≠ id) ∧
      ∀ m, found = some m →
        (MultipartService.idHashKey id m.hash, m) ∈ d.multiparts ∧ m.metaId = id)
    (fun t => t.multiparts = d.multiparts) d := by
  rw [MultipartRepo.getOneByKeyRegex, wp_bind, wp_get, wp_bind, queryKeys, wp_bind, wp_read, wp_bind]
  refine wp_mono (wp_call d) ?_ ?_
  · rintro k _ ⟨-, -, rfl⟩
    refine ⟨rfl, fun hnone e he => h.of_filter_nil (head_eq_none hnone) he, fun m hm => ?_⟩
    obtain ⟨key, hkey, hget⟩ := Option.bind_eq_some_iff.mp hm
    have hmem := Assoc.mem_of_get hget
    have hfound := List.mem_filter.mp ((Order.mem_on _).mp (List.mem_of_mem_head? hkey))
    have hid := (h.glob_id _ hmem).mp hfound.2
    have hname : key = MultipartService.idHashKey m.metaId m.hash := h.keys (key, m) hmem
    rw [hid] at hname
    exact ⟨hname ▸ hmem, hid⟩
  · rintro _ ⟨-, rfl⟩
    rfl

theorem Keyed.wp_completePart (h : Keyed d) (part : Part) :
    wp (MultipartService.completePart part) env (fun _ t => Touches part.metaId d t)
      (Touches part.metaId d) d := by
  have hwrite : Keeps sameFrame (CacheService.writePart part) :=
    same_call.bind fun _ => same_modify fun _ => rfl
  rw [MultipartService.completePart, wp_bind]
  refine wp_mono (hwrite.wp env d) (fun _ t ht => ?_) fun t ht => .of_eq ht
  have hk := h.of_eq ht
  rw [wp_bind]
  refine wp_mono hk.wp_getById ?_ fun u hu => .of_eq (hu.trans ht)
  rintro found u ⟨hu, -, hfound⟩
  cases found with
  | none => exact .of_eq (hu.trans ht)
  | some m =>
    obtain ⟨hm, hid⟩ := hfound m rfl
    dsimp only
    split
    · rw [wp_bind, MultipartRepo.write, wp_bind]
      refine wp_mono (wp_call u) ?_ ?_
      · rintro k _ ⟨-, -, rfl⟩
        rw [wp_modify]
        have hsave := (hk.of_eq hu).touches_save { m with parts := m.parts.set part.nth true }
          (u.calls + 1) (hu ▸ hm) hid hid rfl
        have htouch := hsave.from_eq (hu.trans ht)
        split
        · refine wp_mono (((same_merge _ _).bind fun _ => keeps_pure []).wp env _) ?_ ?_
          · exact fun _ _ hv => htouch.trans_eq hv
          · exact fun _ hv => htouch.trans_eq hv
        · exact htouch
      · rintro _ ⟨-, rfl⟩
        exact .of_eq (hu.trans ht)
    · exact .of_eq (hu.trans ht)

theorem Keyed.wp_remove (h : Keyed d) (env : Env) (id : Uuid) :
    wp (MultipartService.remove id) env
      (fun _ t => Touches id d t ∧ ∃ gone ∈ d.multiparts, gone.2.metaId = id ∧
        ∀ e ∈ t.multiparts, e ∈ d.multiparts ∧ e.1 ≠ gone.1) (Touches id d) d := by
  rw [MultipartService.remove, wp_bind, MultipartRepo.deleteByKeyRegex, wp_bind, wp_get, wp_bind,
    queryKeys, wp_bind, wp_read, wp_bind]
  refine wp_mono (wp_call d) ?_ ?_
  · rintro k _ ⟨-, -, rfl⟩
    rw [wp_pure, wp_bind]
    cases hhead : ((env.keys k).on
        ((Assoc.keys d.multiparts).filter (glob (MultipartService.idKeyRegex id)))).head? with
    | none => exact .of_eq rfl
    | some key =>
      have hfound := List.mem_filter.mp ((Order.mem_on _).mp (List.mem_of_mem_head? hhead))
      obtain ⟨gone, hgone, rfl⟩ := List.mem_map.mp hfound.1
      have htouch := h.touches_delete hfound.2 (k := d.calls + 1)
      rw [orFail, wp_pure, wp_modify, wp_bind]
      have hdir := ((same_removeMultipartDir id).attempt).wp env
        { d with calls := d.calls + 1, multiparts := deleteKeys d.multiparts [gone.1] }
      refine wp_mono hdir (fun _ t ht => ?_) fun t ht => htouch.trans_eq ht
      rw [wp_pure]
      refine ⟨htouch.trans_eq ht, gone, hgone, (h.glob_id _ hgone).mp hfound.2, fun e he => ?_⟩
      have hsame : t.multiparts = deleteKeys d.multiparts [gone.1] := ht
      have hmem : e ∈ deleteKeys d.multiparts [gone.1] := hsame ▸ he
      exact ⟨List.mem_of_mem_filter hmem, by simpa using List.of_mem_filter hmem⟩
  · rintro _ ⟨-, rfl⟩
    exact .of_eq rfl

def nodupFrame : Frame Depot where
  rel s t := (Assoc.keys s.multiparts).Nodup → (Assoc.keys t.multiparts).Nodup
  refl _ h := h
  trans h h' hs := h' (h hs)

theorem nodup_of_same {m : Act α} (h : Keeps sameFrame m) : Keeps nodupFrame m := by
  refine h.mono fun s t hst hs => ?_
  have heq : t.multiparts = s.multiparts := hst
  rw [heq]
  exact hs

theorem nodup_write (key : String) (m : Multipart) : Keeps nodupFrame (MultipartRepo.write key m) :=
  Keeps.bind (nodup_of_same same_call) fun _ =>
    keeps_modify fun _ hs => Assoc.nodup_keys_insert hs key m

theorem same_getOne (regex : String) : Keeps sameFrame (MultipartRepo.getOneByKeyRegex regex) :=
  keeps_get.bind fun _ => Keeps.bind
    (keeps_read.bind fun _ => same_call.bind fun _ => keeps_pure _) fun _ => keeps_pure _

theorem nodup_completePart (part : Part) : Keeps nodupFrame (MultipartService.completePart part) := by
  have hwrite : Keeps sameFrame (CacheService.writePart part) :=
    same_call.bind fun _ => same_modify fun _ => rfl
  refine (nodup_of_same hwrite).bind fun _ => (nodup_of_same (same_getOne _)).bind fun found => ?_
  cases found with
  | none => exact keeps_throw _
  | some m =>
    dsimp only
    split
    · refine (nodup_write _ _).bind fun _ => ?_
      split
      · exact nodup_of_same ((same_merge _ _).bind fun _ => keeps_pure [])
      · exact keeps_pure _
    · exact keeps_throw _

theorem nodup_remove (id : Uuid) : Keeps nodupFrame (MultipartService.remove id) := by
  have hdelete (regex : String) : Keeps nodupFrame (MultipartRepo.deleteByKeyRegex regex) := by
    refine keeps_get.bind fun _ => (nodup_of_same (keeps_read.bind fun _ =>
      same_call.bind fun _ => keeps_pure _)).bind fun keys =>
        (nodup_of_same (same_orFail _ _)).bind fun key => keeps_modify fun d hs => ?_
    exact (List.filter_sublist.map Prod.fst).nodup hs
  exact (hdelete _).bind fun _ => (nodup_of_same (same_removeMultipartDir id).attempt).bind fun _ =>
    keeps_pure ()

theorem Keyed.operate (h : Keyed d) (env : Env) (op : Operation) :
    Touches op.metaId d (op.act env d).2 ∧ (Assoc.keys (op.act env d).2.multiparts).Nodup := by
  cases op with
  | completePart part =>
    have hact : wp (Operation.act (.completePart part)) env (fun _ t => Touches part.metaId d t)
        (Touches part.metaId d) d := by
      rw [Operation.act, wp_bind]
      exact wp_mono (h.wp_completePart part) (fun _ _ ht => ht) fun _ ht => ht
    exact ⟨wp_final.mp hact,
      ((nodup_completePart part).bind fun _ => keeps_pure ()) env d h.nodup⟩
  | info metaId =>
    have hact : Keeps sameFrame (Operation.act (.info metaId)) :=
      ((same_getOne _).bind fun _ => same_orFail _ _).bind fun _ => keeps_pure ()
    exact ⟨.of_eq (hact env d), nodup_of_same hact env d h.nodup⟩
  | remove metaId =>
    exact ⟨wp_final.mp (wp_mono (h.wp_remove env _) (fun _ _ ht => ht.1) fun _ ht => ht),
      nodup_remove metaId env d h.nodup⟩

end Operations

section Within

variable {s t : Depot} {id : Uuid}

-- Every record of `t` was in `s` under its key, with its id and its hash.
def Within (s t : Depot) : Prop := ∀ e ∈ t.multiparts, ∃ e' ∈ s.multiparts,
  e'.1 = e.1 ∧ e'.2.metaId = e.2.metaId ∧ e'.2.hash = e.2.hash

theorem Touches.within (h : Touches id s t) : Within s t := by
  intro e he
  by_cases hid : e.2.metaId = id
  · obtain ⟨e', he', hkey, hid', hhash⟩ := h.own e he hid
    exact ⟨e', he', hkey, hid'.trans hid.symm, hhash⟩
  · exact ⟨e, (h.others e hid).mp he, rfl, rfl, rfl⟩

theorem Within.of_subset (h : ∀ e ∈ t.multiparts, e ∈ s.multiparts) : Within s t :=
  fun e he => ⟨e, h e he, rfl, rfl, rfl⟩

theorem Keyed.within (h : Keyed s) (hwithin : Within s t)
    (hnodup : (Assoc.keys t.multiparts).Nodup) : Keyed t := by
  refine ⟨hnodup, fun e he => ?_⟩
  obtain ⟨e', he', hkey, hid, hhash⟩ := hwithin e he
  rw [← hkey, h.keys e' he', hid, hhash]

theorem Keyed.eq_of_key (h : Keyed t) {e e' : String × Multipart} (he : e ∈ t.multiparts)
    (he' : e' ∈ t.multiparts) (hkey : e.1 = e'.1) : e = e' := by
  have hget := (Assoc.get_eq_some_iff h.nodup).mpr he
  rw [hkey, (Assoc.get_eq_some_iff h.nodup).mpr he'] at hget
  exact Prod.ext hkey (Option.some.inj hget).symm

end Within

inductive Caller where
  | fresh (r : NewUpload)
  | checked (r : NewUpload)
  | ready (r : NewUpload)
  | whole (op : Operation)
  | expiring (key : String)
  | returned (o : Outcome Exception Unit)

namespace Caller

def prog : Caller → Steps Unit
  | .fresh r => create r
  | .checked r => checkId r
  | .ready r => insert r
  | .whole op => (Job.operate op).prog
  | .expiring key => (Job.expire key).prog
  | .returned o => .done o

def tag : Caller → Option Access
  | .fresh r => some (.lookUpHash r)
  | .checked r => some (.lookUpId r)
  | .ready r => some (.insert r)
  | .whole _ | .expiring _ => some .other
  | .returned _ => none

-- The upload that a call is about to create.
def claims : Caller → Option NewUpload
  | .checked r | .ready r => some r
  | _ => none

end Caller

namespace Caller

def judged (r : NewUpload) : Option Multipart → Caller
  | some el => .returned (.err (.conflictedHash el.metaId r.hash))
  | none => .checked r

def identified (r : NewUpload) : Option Multipart → Caller
  | some _ => .returned (.err (.conflictedId r.metaId))
  | none => .ready r

end Caller

def lookup (env : Env) (d : Depot) (regex : String) : Option Multipart :=
  ((env.keys d.calls).on ((Assoc.keys d.multiparts).filter (glob regex))).head?.bind
    (Assoc.get d.multiparts)

def first : Job → Caller
  | .create r => .fresh r
  | .operate op => .whole op
  | .expire key => .expiring key

section Turns

variable {env : Env} {d t : Depot} {c c' : Caller} {p : Calls} {cs : List Caller} {i : Nat}

def Turns (env : Env) (c : Caller) (s t : Depot) (c' : Caller) : Prop :=
  ∃ tag act next, c.prog = .step tag act next ∧ act env s = t ∧ next env s = c'.prog

def Threads (env : Env) (p : Calls) (cs : List Caller) : Prop :=
  p.threads = cs.map fun c => ⟨env, c.prog⟩

theorem Threads.get (h : Threads env p cs) (hc : cs[i]? = some c) :
    p.threads[i]? = some ⟨env, c.prog⟩ := by
  rw [h, List.getElem?_map, hc]
  rfl

theorem Threads.tag (h : Threads env p cs) (i : Nat) : p.tag i = (cs[i]?).bind Caller.tag := by
  rw [Pool.tag, h, List.getElem?_map]
  cases cs[i]? with
  | none => rfl
  | some c => cases c <;> rfl

theorem Threads.go (h : Threads env p cs) (hc : cs[i]? = some c)
    (hturns : Turns env c p.state t c') :
    (p.go i).state = t ∧ Threads env (p.go i) (cs.set i c') := by
  obtain ⟨tag, act, next, hprog, hact, hnext⟩ := hturns
  have hthread := h.get hc
  rw [hprog] at hthread
  have hgo : p.go i = ⟨act env p.state, p.threads.set i ⟨env, next env p.state⟩⟩ := by
    rw [Pool.go, hthread]
  rw [hgo]
  refine ⟨hact, ?_⟩
  rw [Threads, hnext, h, List.map_set]

theorem Threads.stays (h : Threads env p cs) (hc : c.tag = none) (hi : cs[i]? = some c) :
    p.go i = p := by
  have hthread := h.get hi
  cases c with
  | returned o => rw [Pool.go, hthread, Caller.prog]
  | _ => cases hc

theorem Threads.outcome (h : Threads env p cs) (hc : cs[i]? = some c) {o : Outcome Exception Unit} :
    outcome p i = some o ↔ c = .returned o := by
  rw [Creation.outcome, h.get hc]
  constructor
  · intro ho
    cases c with
    | returned o' =>
      cases ho
      rfl
    | _ => cases ho
  · rintro rfl
    rfl

theorem turns_atom {α : Type} {tag : Access} {m : Act α} {f : α → Steps Unit} {o : Outcome Exception α}
    (hprog : c.prog = Prog.atom tag m >>= f) (hm : m env d = (o, t))
    (hnext : Prog.bind (.done o) f = c'.prog) : Turns env c d t c' := by
  refine ⟨_, _, _, hprog, congrArg Prod.snd hm, ?_⟩
  rw [← hnext]
  change Prog.bind (.done (m env d).1) f = _
  rw [hm]

theorem turns_last {tag : Access} {m : Act Unit} (hprog : c.prog = Prog.atom tag m) :
    Turns env c d (m env d).2 (.returned (m env d).1) :=
  ⟨_, _, _, hprog, rfl, rfl⟩

variable (hfails : ∀ k, env.fails k = false)

include hfails

theorem turns_fresh (r : NewUpload) (d : Depot) :
    Turns env (.fresh r) d { d with calls := d.calls + 1 }
      (.judged r (lookup env d (MultipartService.hashKeyRegex r.hash))) := by
  refine turns_atom rfl (run_getOne hfails _ d) ?_
  change Prog.bind (.done (.ok (lookup env d (MultipartService.hashKeyRegex r.hash)))) _ = _
  cases lookup env d (MultipartService.hashKeyRegex r.hash) <;> rfl

theorem turns_checked (r : NewUpload) (d : Depot) :
    Turns env (.checked r) d { d with calls := d.calls + 1 }
      (.identified r (lookup env d (MultipartService.idKeyRegex r.metaId))) := by
  refine turns_atom rfl (run_getOne hfails _ d) ?_
  change Prog.bind (.done (.ok (lookup env d (MultipartService.idKeyRegex r.metaId)))) _ = _
  cases lookup env d (MultipartService.idKeyRegex r.metaId) <;> rfl

theorem turns_ready (r : NewUpload) (d : Depot) : Turns env (.ready r) d
    { d with calls := d.calls + 1, multiparts := Assoc.insert d.multiparts r.key r.multipart }
    (.returned (.ok ())) := by
  have hwrite := run_writeMultipart hfails r.key r.multipart d
  have hlast : Turns env (.ready r) d (MultipartRepo.write r.key r.multipart env d).2
      (.returned (MultipartRepo.write r.key r.multipart env d).1) := turns_last rfl
  rw [hwrite] at hlast
  exact hlast

end Turns

theorem lookup_none_iff (env : Env) {d : Depot} {regex : String} {P : String × Multipart → Prop}
    (hP : ∀ e ∈ d.multiparts, glob regex e.1 = true ↔ P e) :
    lookup env d regex = none ↔ ∀ e ∈ d.multiparts, ¬P e := by
  constructor
  · intro hnone e he hPe
    have hmem := List.mem_filter.mpr ⟨Assoc.mem_keys_of_mem he, (hP e he).mpr hPe⟩
    rw [head_eq_none hnone] at hmem
    cases hmem
  · intro hall
    rw [lookup, Option.bind_eq_none_iff]
    intro key hkey
    have hfound := List.mem_filter.mp ((Order.mem_on _).mp (List.mem_of_mem_head? hkey))
    obtain ⟨e, he, rfl⟩ := List.mem_map.mp hfound.1
    exact absurd ((hP e he).mp hfound.2) (hall e he)

section Invariant

def Vacant (d : Depot) : Caller → Prop
  | .checked r => ∀ e ∈ d.multiparts, e.2.hash ≠ r.hash
  | .ready r => (∀ e ∈ d.multiparts, e.2.hash ≠ r.hash) ∧ ∀ e ∈ d.multiparts, e.2.metaId ≠ r.metaId
  | _ => True

def Apart (r r' : NewUpload) : Prop := r.metaId ≠ r'.metaId ∧ r.hash ≠ r'.hash

structure Sound (d : Depot) (cs : List Caller) : Prop where
  keyed : Keyed d
  ids : ∀ e ∈ d.multiparts, ∀ e' ∈ d.multiparts, e.2.metaId = e'.2.metaId → e = e'
  hashes : ∀ e ∈ d.multiparts, ∀ e' ∈ d.multiparts, e.2.hash = e'.2.hash → e = e'
  vacant : ∀ c ∈ cs, Vacant d c
  alone : ∀ (i j : Nat) (c c' : Caller) (r r' : NewUpload), i ≠ j → cs[i]? = some c →
    cs[j]? = some c' → c.claims = some r → c'.claims = some r' → Apart r r'

variable {s t : Depot} {cs : List Caller} {c c' : Caller} {i : Nat}

theorem Vacant.within (h : Vacant s c) (hwithin : Within s t) : Vacant t c := by
  have hhash {r : NewUpload} (hr : ∀ e ∈ s.multiparts, e.2.hash ≠ r.hash) :
      ∀ e ∈ t.multiparts, e.2.hash ≠ r.hash := by
    intro e he heq
    obtain ⟨e', he', -, -, hsame⟩ := hwithin e he
    exact hr e' he' (hsame.trans heq)
  cases c with
  | checked r => exact hhash h
  | ready r =>
    refine ⟨hhash h.1, fun e he heq => ?_⟩
    obtain ⟨e', he', -, hsame, -⟩ := hwithin e he
    exact h.2 e' he' (hsame.trans heq)
  | _ => trivial

-- The call in turn does no more than drop or rewrite records.
theorem Sound.replace (h : Sound s cs) (hc : cs[i]? = some c) (hwithin : Within s t)
    (hnodup : (Assoc.keys t.multiparts).Nodup) (hvacant : Vacant t c')
    (halone : ∀ r', c'.claims = some r' → ∀ (j : Nat) (d : Caller) (r : NewUpload), j ≠ i →
      cs[j]? = some d → d.claims = some r → Apart r r') : Sound t (cs.set i c') := by
  have hkeyed := h.keyed.within hwithin hnodup
  refine ⟨hkeyed, fun e he e' he' hid => ?_, fun e he e' he' hhash => ?_, fun d hd => ?_, ?_⟩
  · obtain ⟨f, hf, hkey, hid₁, -⟩ := hwithin e he
    obtain ⟨f', hf', hkey', hid₂, -⟩ := hwithin e' he'
    have hsame := h.ids f hf f' hf' (hid₁.trans (hid.trans hid₂.symm))
    exact hkeyed.eq_of_key he he' (hkey.symm.trans ((congrArg Prod.fst hsame).trans hkey'))
  · obtain ⟨f, hf, hkey, -, hhash₁⟩ := hwithin e he
    obtain ⟨f', hf', hkey', -, hhash₂⟩ := hwithin e' he'
    have hsame := h.hashes f hf f' hf' (hhash₁.trans (hhash.trans hhash₂.symm))
    exact hkeyed.eq_of_key he he' (hkey.symm.trans ((congrArg Prod.fst hsame).trans hkey'))
  · obtain hd | rfl := List.mem_or_eq_of_mem_set hd
    · exact (h.vacant d hd).within hwithin
    · exact hvacant
  · have hlt := (List.getElem?_eq_some_iff.mp hc).1
    intro j k d d' r r' hjk hj hk hr hr'
    by_cases hji : j = i
    · subst hji
      rw [List.getElem?_set_self hlt] at hj
      rw [List.getElem?_set_ne hjk] at hk
      cases hj
      have hapart := halone r hr k d' r' hjk.symm hk hr'
      exact ⟨hapart.1.symm, hapart.2.symm⟩
    · rw [List.getElem?_set_ne (Ne.symm hji)] at hj
      by_cases hki : k = i
      · subst hki
        rw [List.getElem?_set_self hlt] at hk
        cases hk
        exact halone r' hr' j d r hjk hj hr
      · rw [List.getElem?_set_ne (Ne.symm hki)] at hk
        exact h.alone j k d d' r r' hjk hj hk hr hr'

theorem Sound.insert {r : NewUpload} {k : Nat} (h : Sound s cs) (hc : cs[i]? = some (.ready r)) :
    Sound { s with calls := k, multiparts := Assoc.insert s.multiparts r.key r.multipart }
      (cs.set i (.returned (.ok ()))) := by
  obtain ⟨hhash, hid⟩ := h.vacant _ (List.mem_of_getElem? hc)
  have hlt := (List.getElem?_eq_some_iff.mp hc).1
  refine ⟨⟨Assoc.nodup_keys_insert h.keyed.nodup _ _, fun e he => ?_⟩, fun e he e' he' heq => ?_,
    fun e he e' he' heq => ?_, fun d hd => ?_, ?_⟩
  · obtain he | rfl := Assoc.mem_of_mem_insert he
    · exact h.keyed.keys e he
    · rfl
  · obtain he | rfl := Assoc.mem_of_mem_insert he
    · obtain he' | rfl := Assoc.mem_of_mem_insert he'
      · exact h.ids e he e' he' heq
      · exact absurd heq (hid e he)
    · obtain he' | rfl := Assoc.mem_of_mem_insert he'
      · exact absurd heq.symm (hid e' he')
      · rfl
  · obtain he | rfl := Assoc.mem_of_mem_insert he
    · obtain he' | rfl := Assoc.mem_of_mem_insert he'
      · exact h.hashes e he e' he' heq
      · exact absurd heq (hhash e he)
    · obtain he' | rfl := Assoc.mem_of_mem_insert he'
      · exact absurd heq.symm (hhash e' he')
      · rfl
  · obtain ⟨j, hj⟩ := List.getElem?_of_mem hd
    by_cases hji : j = i
    · subst hji
      rw [List.getElem?_set_self hlt] at hj
      cases hj
      trivial
    · rw [List.getElem?_set_ne (Ne.symm hji)] at hj
      have hold := h.vacant d (List.mem_of_getElem? hj)
      have hapart (r' : NewUpload) (hr' : d.claims = some r') : Apart r r' :=
        h.alone i j _ d r r' (Ne.symm hji) hc hj rfl hr'
      cases d with
      | checked r' =>
        intro e he
        obtain he | rfl := Assoc.mem_of_mem_insert he
        · exact hold e he
        · exact (hapart r' rfl).2
      | ready r' =>
        refine ⟨fun e he => ?_, fun e he => ?_⟩
        · obtain he | rfl := Assoc.mem_of_mem_insert he
          · exact hold.1 e he
          · exact (hapart r' rfl).2
        · obtain he | rfl := Assoc.mem_of_mem_insert he
          · exact hold.2 e he
          · exact (hapart r' rfl).1
      | _ => trivial
  · intro j k d d' r₁ r₂ hjk hj hk hr₁ hr₂
    by_cases hji : j = i
    · subst hji
      rw [List.getElem?_set_self hlt] at hj
      cases hj
      cases hr₁
    · by_cases hki : k = i
      · subst hki
        rw [List.getElem?_set_self hlt] at hk
        cases hk
        cases hr₂
      · rw [List.getElem?_set_ne (Ne.symm hji)] at hj
        rw [List.getElem?_set_ne (Ne.symm hki)] at hk
        exact h.alone j k d d' r₁ r₂ hjk hj hk hr₁ hr₂

end Invariant

section Runs

variable {env : Env} {p : Calls} {cs : List Caller} {i : Nat} {r : NewUpload}

structure Underway (env : Env) (p : Calls) (cs : List Caller) : Prop where
  threads : Threads env p cs
  sound : Sound p.state cs

theorem Underway.exact (h : Underway env p cs) (hc : cs[i]? = some (.fresh r))
    (hserial : Serial p (.go i)) : Exact p.state r.hash ∧
      ∀ (j : Nat) (d : Caller) (r' : NewUpload), j ≠ i → cs[j]? = some d → d.claims = some r' →
        Apart r' r := by
  have htag : p.tag i = some (.lookUpHash r) := by
    rw [h.threads.tag, hc]
    rfl
  obtain ⟨hexact, halone⟩ := hserial _ htag
  refine ⟨hexact, fun j d r' hj hd hr' => ?_⟩
  have hlt : j < p.threads.length := by
    rw [h.threads, List.length_map]
    exact (List.getElem?_eq_some_iff.mp hd).1
  have htag' : p.tag j = d.tag := by
    rw [h.threads.tag, hd]
    rfl
  have hclash (hother : d.tag = some (.lookUpId r') ∨ d.tag = some (.insert r')) : Apart r' r := by
    obtain hother | hother := hother
    · simpa [Access.clashes, Apart] using halone j hlt hj _ (htag'.trans hother)
    · simpa [Access.clashes, Apart] using halone j hlt hj _ (htag'.trans hother)
  cases d with
  | checked r =>
    cases hr'
    exact hclash (.inl rfl)
  | ready r =>
    cases hr'
    exact hclash (.inr rfl)
  | _ => cases hr'

theorem Underway.go (hfails : ∀ k, env.fails k = false) (h : Underway env p cs)
    (hserial : Serial p (.go i)) : ∃ cs', Underway env (p.go i) cs' := by
  cases hc : cs[i]? with
  | none =>
    have hnone : p.threads[i]? = none := by
      rw [h.threads, List.getElem?_map, hc]
      rfl
    exact ⟨cs, by rw [Pool.go, hnone]; exact h⟩
  | some c =>
    have hsame : Within p.state { p.state with calls := p.state.calls + 1 } :=
      .of_subset fun _ he => he
    cases c with
    | fresh r =>
      obtain ⟨hexact, halone⟩ := h.exact hc hserial
      have hlookup := lookup_none_iff env fun e he => h.sound.keyed.glob_hash hexact he
      obtain ⟨hstate, hthreads⟩ := h.threads.go hc (turns_fresh hfails r p.state)
      refine ⟨_, hthreads, ?_⟩
      rw [hstate]
      refine h.sound.replace hc hsame h.sound.keyed.nodup ?_ ?_
      · cases hfound : lookup env p.state (MultipartService.hashKeyRegex r.hash) with
        | none => exact hlookup.mp hfound
        | some el => trivial
      · intro r' hr' j d r'' hj hd hr''
        cases hfound : lookup env p.state (MultipartService.hashKeyRegex r.hash) with
        | none =>
          rw [hfound] at hr'
          cases hr'
          exact halone j d r'' hj hd hr''
        | some el =>
          rw [hfound] at hr'
          cases hr'
    | checked r =>
      have hlookup := lookup_none_iff env fun e he =>
        h.sound.keyed.glob_id r.metaId he
      obtain ⟨hstate, hthreads⟩ := h.threads.go hc (turns_checked hfails r p.state)
      have hvacant := h.sound.vacant _ (List.mem_of_getElem? hc)
      refine ⟨_, hthreads, ?_⟩
      rw [hstate]
      refine h.sound.replace hc hsame h.sound.keyed.nodup ?_ ?_
      · cases hfound : lookup env p.state (MultipartService.idKeyRegex r.metaId) with
        | none => exact ⟨hvacant, hlookup.mp hfound⟩
        | some el => trivial
      · intro r' hr' j d r'' hj hd hr''
        cases hfound : lookup env p.state (MultipartService.idKeyRegex r.metaId) with
        | none =>
          rw [hfound] at hr'
          cases hr'
          exact h.sound.alone j i d _ r'' r hj hd hc hr'' rfl
        | some el =>
          rw [hfound] at hr'
          cases hr'
    | ready r =>
      obtain ⟨hstate, hthreads⟩ := h.threads.go hc (turns_ready hfails r p.state)
      refine ⟨_, hthreads, ?_⟩
      rw [hstate]
      exact h.sound.insert hc
    | whole op =>
      obtain ⟨htouches, hnodup⟩ := h.sound.keyed.operate env op
      have hlast : Turns env (.whole op) p.state (op.act env p.state).2
          (.returned (op.act env p.state).1) := turns_last rfl
      obtain ⟨hstate, hthreads⟩ := h.threads.go hc hlast
      refine ⟨_, hthreads, ?_⟩
      rw [hstate]
      refine h.sound.replace hc htouches.within hnodup trivial fun r' hr' => ?_
      cases hr'
    | expiring key =>
      have hlast : Turns env (.expiring key) p.state
          { p.state with multiparts := deleteKeys p.state.multiparts [key] }
          (.returned (.ok ())) := ⟨_, _, _, rfl, rfl, rfl⟩
      obtain ⟨hstate, hthreads⟩ := h.threads.go hc hlast
      refine ⟨_, hthreads, ?_⟩
      rw [hstate]
      refine h.sound.replace hc (.of_subset fun _ he => List.mem_of_mem_filter he)
        ((List.filter_sublist.map Prod.fst).nodup h.sound.keyed.nodup) trivial fun r' hr' => ?_
      cases hr'
    | returned o => exact ⟨cs, by rw [h.threads.stays rfl hc]; exact h⟩

theorem Underway.spawn (h : Underway env p cs) (job : Job) :
    Underway env (p.step (start env) (.spawn job)) (cs ++ [first job]) := by
  refine ⟨?_, ⟨h.sound.keyed, h.sound.ids, h.sound.hashes, fun c hc => ?_, ?_⟩⟩
  · rw [Threads, List.map_append, ← h.threads]
    cases job <;> rfl
  · obtain hc | hc := List.mem_append.mp hc
    · exact h.sound.vacant c hc
    · rw [List.mem_singleton.mp hc]
      cases job <;> trivial
  · have hold {j : Nat} {c : Caller} {r : NewUpload} (hj : (cs ++ [first job])[j]? = some c)
        (hr : c.claims = some r) : cs[j]? = some c := by
      obtain hlt | hge := Nat.lt_or_ge j cs.length
      · exact (List.getElem?_append_left hlt).symm.trans hj
      · rw [List.getElem?_append_right hge, List.getElem?_singleton] at hj
        split at hj
        · cases hj
          cases job <;> cases hr
        · cases hj
    intro j k c d r r' hjk hj hk hr hr'
    exact h.sound.alone j k c d r r' hjk (hold hj hr) (hold hk hr') hr hr'

theorem Threads.of_tag (h : Threads env p cs) {tag : Access} (htag : p.tag i = some tag) :
    ∃ c, cs[i]? = some c ∧ c.tag = some tag := by
  rw [h.tag] at htag
  exact Option.bind_eq_some_iff.mp htag

theorem Threads.outcome_go (h : Threads env p cs) {t : Depot} {c c' : Caller} (hc : cs[i]? = some c)
    (hturns : Turns env c p.state t c') {o : Outcome Exception Unit} :
    Creation.outcome (p.go i) i = some o ↔ c' = .returned o := by
  have hset : (cs.set i c')[i]? = some c' :=
    List.getElem?_set_self (List.getElem?_eq_some_iff.mp hc).1
  exact (h.go hc hturns).2.outcome hset

theorem Underway.conflictedHash (hfails : ∀ k, env.fails k = false) (h : Underway env p cs)
    (htag : p.tag i = some (.lookUpHash r)) (hserial : Serial p (.go i)) :
    (∃ id, outcome (p.go i) i = some (.err (.conflictedHash id r.hash))) ↔
      ∃ e ∈ p.state.multiparts, e.2.hash = r.hash := by
  obtain ⟨c, hc, hctag⟩ := h.threads.of_tag htag
  cases c with
  | fresh r' =>
    cases hctag
    obtain ⟨hexact, -⟩ := h.exact hc hserial
    have hlookup := lookup_none_iff env fun e he => h.sound.keyed.glob_hash hexact he
    have houtcome (id : Uuid) := h.threads.outcome_go hc (turns_fresh hfails r p.state)
      (o := .err (.conflictedHash id r.hash))
    constructor
    · rintro ⟨id, hid⟩
      by_contra hno
      push Not at hno
      have hreturned := (houtcome id).mp hid
      rw [hlookup.mpr hno] at hreturned
      cases hreturned
    · rintro ⟨e, he, hhash⟩
      cases hfound : lookup env p.state (MultipartService.hashKeyRegex r.hash) with
      | none => exact absurd hhash (hlookup.mp hfound e he)
      | some el =>
        refine ⟨el.metaId, (houtcome el.metaId).mpr ?_⟩
        rw [hfound]
        rfl
  | _ => cases hctag

theorem Underway.conflictedId (hfails : ∀ k, env.fails k = false) (h : Underway env p cs)
    (htag : p.tag i = some (.lookUpId r)) :
    outcome (p.go i) i = some (.err (.conflictedId r.metaId)) ↔
      ∃ e ∈ p.state.multiparts, e.2.metaId = r.metaId := by
  obtain ⟨c, hc, hctag⟩ := h.threads.of_tag htag
  cases c with
  | checked r' =>
    cases hctag
    have hlookup := lookup_none_iff env fun e he => h.sound.keyed.glob_id r.metaId he
    rw [h.threads.outcome_go hc (turns_checked hfails r p.state)]
    constructor
    · intro hreturned
      by_contra hno
      push Not at hno
      rw [hlookup.mpr hno] at hreturned
      cases hreturned
    · rintro ⟨e, he, hid⟩
      cases hfound : lookup env p.state (MultipartService.idKeyRegex r.metaId) with
      | none => exact absurd hid (hlookup.mp hfound e he)
      | some el => rfl
  | _ => cases hctag

theorem Underway.exclusive (hfails : ∀ k, env.fails k = false) (h : Underway env p cs) :
    Exclusive p where
  ids := h.sound.ids
  hashes := h.sound.hashes
  conflictedHash i r := h.conflictedHash hfails
  conflictedId i r := h.conflictedId hfails
  own env' op := (h.sound.keyed.operate env' op).1
  info env' id m hm := by
    have hinfo : wp (MultipartService.info id) env'
        (fun m _ => ∃ e ∈ p.state.multiparts, e.2 = m ∧ m.metaId = id) (fun _ => True) p.state := by
      rw [MultipartService.info, wp_bind]
      refine wp_mono h.sound.keyed.wp_getById ?_ fun _ _ => trivial
      rintro found t ⟨-, -, hfound⟩
      cases found with
      | none => trivial
      | some m => exact ⟨_, (hfound m rfl).1, rfl, (hfound m rfl).2⟩
    obtain ⟨a, ha, hmem⟩ | ⟨hnot, -⟩ := wp_run hinfo
    · cases ha.symm.trans hm
      exact hmem
    · exact absurd hm (hnot m)
  removed env' id hok := by
    obtain ⟨-, -, -, gone, hgone, hid, hleft⟩ | ⟨hnot, -⟩ := wp_run
        (h.sound.keyed.wp_remove env' id)
    · intro e he heq
      obtain ⟨hin, hne⟩ := hleft e he
      exact hne (congrArg Prod.fst (h.sound.ids e hin gone hgone (heq.trans hid.symm)))
    · exact absurd hok (hnot ())

end Runs

section Samples

def firstUpload : NewUpload := ⟨9, "AB", .blake3, 1⟩

def secondUpload : NewUpload := ⟨8, "CD", .blake3, 2⟩

def sameId : NewUpload := ⟨9, "CD", .blake3, 2⟩

def created (moves : List (Move Job)) : Calls :=
  run (Pool.step (start upEnv)) ⟨emptyDepot, []⟩ moves

def crossed (r r' : NewUpload) : List (Move Job) :=
  [.spawn (.create r), .spawn (.create r'), .go 0, .go 1, .go 0, .go 1, .go 0, .go 1]

end Samples

end Kuintessence.Storage.Creation

import Kuintessence.Instance.Supply

namespace Kuintessence

open Assoc

def rename (id : Uuid) (entry : Uuid × Uuid) : Uuid := if entry.1 == id then entry.2 else id

theorem foldl_rename_mem {m : List (Uuid × Uuid)} {S : Uuid → Prop} (hS : ∀ e ∈ m, S e.2)
    {id : Uuid} (h : S id ∨ id ∈ keys m) : S (m.foldl rename id) := by
  induction m generalizing id with
  | nil => simpa using h
  | cons e m ih =>
    rw [List.foldl_cons]
    apply ih (fun e' he' => hS e' (List.mem_cons_of_mem e he'))
    unfold rename
    by_cases he : e.1 = id
    · rw [if_pos (beq_iff_eq.mpr he)]
      exact .inl (hS e List.mem_cons_self)
    · rw [if_neg (fun hb => he (beq_iff_eq.mp hb))]
      rcases h with h | h
      · exact .inl h
      · rcases List.mem_cons.mp h with rfl | h
        · exact absurd rfl he
        · exact .inr h

theorem foldl_rename_of_notMem {m : List (Uuid × Uuid)} {id : Uuid} (h : id ∉ keys m) :
    m.foldl rename id = id := by
  induction m with
  | nil => rfl
  | cons e m ih =>
    rw [keys_cons, List.mem_cons, not_or] at h
    have hne : ¬(e.1 == id) = true := fun hb => h.1 (beq_iff_eq.mp hb).symm
    rw [List.foldl_cons, rename, if_neg hne]
    exact ih h.2

theorem foldl_rename_eq {m : List (Uuid × Uuid)} (hnodup : (keys m).Nodup)
    (hfresh : ∀ e ∈ m, e.2 ∉ keys m) {id new : Uuid} (h : (id, new) ∈ m) :
    m.foldl rename id = new := by
  induction m with
  | nil => simp at h
  | cons e m ih =>
    rw [keys_cons, List.nodup_cons] at hnodup
    have hfresh' : ∀ e' ∈ m, e'.2 ∉ keys m := fun e' he' hm =>
      hfresh e' (List.mem_cons_of_mem e he') (List.mem_cons_of_mem e.1 hm)
    rw [List.foldl_cons, rename]
    rcases List.mem_cons.mp h with rfl | h
    · have hnew : new ∉ keys m := fun hm =>
        hfresh _ List.mem_cons_self (List.mem_cons_of_mem id hm)
      rw [if_pos (beq_self_eq_true id)]
      exact foldl_rename_of_notMem hnew
    · have hne : ¬(e.1 == id) = true := fun hb =>
        hnodup.1 ((beq_iff_eq.mp hb) ▸ mem_keys_of_mem h)
      rw [if_neg hne]
      exact ih hnodup.2 hfresh' h

theorem updateId_eq (m : List (Uuid × Uuid)) (r : NodeRelation) :
    r.updateId m = { r with fromId := m.foldl rename r.fromId, toId := m.foldl rename r.toId } := by
  unfold NodeRelation.updateId
  induction m generalizing r with
  | nil => rfl
  | cons e m ih =>
    rw [List.foldl_cons, ih]
    simp only [List.foldl_cons, rename]
    split <;> split <;> rfl

namespace WorkflowDraftSpec

def named (d : WorkflowDraftSpec) (id : Uuid) : Option NodeDraft :=
  d.nodeDrafts.reverse.find? (fun n => n.externalId == id)

end WorkflowDraftSpec

structure Copy (d : WorkflowDraftSpec) (w : WorkflowInstanceSpec)
    (ps : List (NodeDraft × NodeSpec)) : Prop where
  drafts : ps.map Prod.fst = d.nodeDrafts
  specs : ps.map Prod.snd = w.nodeSpecs
  copied : ∀ p ∈ ps, Copied p.1 p.2
  nodup : (ps.map (fun p => p.2.id)).Nodup

def last (ps : List (NodeDraft × NodeSpec)) (id : Uuid) : Option (NodeDraft × NodeSpec) :=
  ps.reverse.find? (fun p => p.1.externalId == id)

section Last

variable {d : WorkflowDraftSpec} {w : WorkflowInstanceSpec} {ps : List (NodeDraft × NodeSpec)}
  {p q : NodeDraft × NodeSpec} {id : Uuid}

theorem mem_of_last (h : last ps id = some p) : p ∈ ps :=
  List.mem_reverse.mp (List.mem_of_find?_eq_some h)

theorem externalId_of_last (h : last ps id = some p) : p.1.externalId = id := by
  have hid := List.find?_some h
  exact beq_iff_eq.mp hid

theorem exists_last (h : p ∈ ps) : ∃ q, last ps p.1.externalId = some q := by
  rw [← Option.isSome_iff_exists, last, List.find?_isSome]
  exact ⟨p, List.mem_reverse.mpr h, beq_self_eq_true _⟩

theorem Copy.named_eq (h : Copy d w ps) (id : Uuid) : d.named id = (last ps id).map Prod.fst := by
  rw [WorkflowDraftSpec.named, ← h.drafts, ← List.map_reverse, List.find?_map, last]
  rfl

theorem Copy.eq_of_id_eq (h : Copy d w ps) (hp : p ∈ ps) (hq : q ∈ ps) (heq : p.2.id = q.2.id) :
    p = q := List.inj_on_of_nodup_map h.nodup hp hq heq

theorem Copy.node_eq (h : Copy d w ps) (hp : p ∈ ps) : w.node p.2.id = .ok p.2 := by
  rw [WorkflowInstanceSpec.node, Outcome.unwrap_ok_iff, ← h.specs]
  cases hf : (ps.map Prod.snd).find? (fun el => el.id == p.2.id) with
  | none =>
    rw [List.find?_eq_none] at hf
    exact absurd (beq_self_eq_true _) (hf p.2 (List.mem_map_of_mem hp))
  | some n =>
    have hid := List.find?_some hf
    obtain ⟨q, hq, rfl⟩ := List.mem_map.mp (List.mem_of_find?_eq_some hf)
    rw [h.eq_of_id_eq hq hp (beq_iff_eq.mp hid)]

theorem Copy.exists_last_of_getNode (h : Copy d w ps) (hid : ∃ n, d.getNode id = some n) :
    ∃ p, last ps id = some p := by
  obtain ⟨n, hn⟩ := hid
  have hb := List.find?_some hn
  have hmem := List.mem_of_find?_eq_some hn
  rw [← h.drafts] at hmem
  obtain ⟨p, hp, rfl⟩ := List.mem_map.mp hmem
  rw [← beq_iff_eq.mp hb]
  exact exists_last hp

end Last

section Submitted

variable {iter : Order (Uuid × Uuid)} {d : WorkflowDraftSpec} {used : List Uuid}
  {w : WorkflowInstance} {ids : Nat → Uuid}

theorem Submitted.copy (h : Submitted iter d used w ids) :
    Copy d w.spec (d.nodeDrafts.zip w.spec.nodeSpecs) := by
  have hlen : d.nodeDrafts.length = w.spec.nodeSpecs.length := h.specs.length_eq
  have hspecs : (d.nodeDrafts.zip w.spec.nodeSpecs).map Prod.snd = w.spec.nodeSpecs :=
    List.map_snd_zip (Nat.le_of_eq hlen.symm)
  refine ⟨List.map_fst_zip (Nat.le_of_eq hlen), hspecs, fun p hp => ?_, ?_⟩
  · exact (List.forall₂_iff_zip.mp h.specs).2 hp
  · have hnodup := h.nodup
    rw [← hspecs, List.map_map] at hnodup
    exact hnodup

theorem zip_map_both {α β γ δ : Type} (f : α → γ) (g : β → δ) (xs : List α) (ys : List β) :
    (xs.map f).zip (ys.map g) = (xs.zip ys).map (fun p => (f p.1, g p.2)) := by
  rw [List.zip_map]
  rfl

def table (d : WorkflowDraftSpec) (w : WorkflowInstanceSpec) : List (Uuid × Uuid) :=
  ofList ((d.nodeDrafts.map NodeDraft.externalId).zip (w.nodeSpecs.map NodeSpec.id))

theorem get_table (d : WorkflowDraftSpec) (w : WorkflowInstanceSpec) (id : Uuid) :
    get (table d w) id = (last (d.nodeDrafts.zip w.nodeSpecs) id).map (fun p => p.2.id) := by
  rw [table, get_ofList, zip_map_both, ← List.map_reverse, List.find?_map, Option.map_map]
  rfl

theorem Submitted.mem_keys_table (h : Submitted iter d used w ids) {id : Uuid}
    (hid : ∃ n, d.getNode id = some n) : id ∈ keys (table d w.spec) := by
  obtain ⟨q, hq⟩ := h.copy.exists_last_of_getNode hid
  by_contra hnot
  have hnone := get_eq_none_iff.mpr hnot
  rw [get_table, hq] at hnone
  exact Option.some_ne_none _ hnone

theorem of_mem_table {d : WorkflowDraftSpec} {w : WorkflowInstanceSpec} {e : Uuid × Uuid}
    (he : e ∈ table d w) :
    e.1 ∈ d.nodeDrafts.map NodeDraft.externalId ∧ e.2 ∈ w.nodeSpecs.map NodeSpec.id :=
  List.of_mem_zip (mem_of_mem_ofList he)

theorem Submitted.relation_ends (h : Submitted iter d used w ids)
    (hd : ∀ r ∈ d.nodeRelations,
      (∃ n, d.getNode r.fromId = some n) ∧ ∃ n, d.getNode r.toId = some n) :
    ∀ r ∈ w.spec.nodeRelations, r.fromId ∈ w.spec.nodeSpecs.map NodeSpec.id ∧
      r.toId ∈ w.spec.nodeSpecs.map NodeSpec.id := by
  have hvalues : ∀ e ∈ iter.on (table d w.spec), e.2 ∈ w.spec.nodeSpecs.map NodeSpec.id :=
    fun e he => (of_mem_table (iter.mem_on.mp he)).2
  intro r' hr'
  rw [h.relations, List.mem_map] at hr'
  obtain ⟨r, hr, rfl⟩ := hr'
  rw [updateId_eq]
  have hfrom := (mem_keys_on iter).mpr (h.mem_keys_table (hd r hr).1)
  have hto := (mem_keys_on iter).mpr (h.mem_keys_table (hd r hr).2)
  exact ⟨foldl_rename_mem hvalues (.inr hfrom), foldl_rename_mem hvalues (.inr hto)⟩

def newId (d : WorkflowDraftSpec) (w : WorkflowInstanceSpec) (id : Uuid) : Uuid :=
  (get (table d w) id).getD id

theorem foldl_rename_table (iter : Order (Uuid × Uuid)) {d : WorkflowDraftSpec}
    {w : WorkflowInstanceSpec}
    (hfresh : ∀ n ∈ d.nodeDrafts, n.externalId ∉ w.nodeSpecs.map NodeSpec.id) (id : Uuid) :
    (iter.on (table d w)).foldl rename id = newId d w id := by
  have hnodup : (keys (table d w)).Nodup := nodup_keys_ofList _
  rw [newId]
  cases hget : get (table d w) id with
  | none =>
    apply foldl_rename_of_notMem
    rw [mem_keys_on]
    exact get_eq_none_iff.mp hget
  | some new =>
    apply foldl_rename_eq ((nodup_keys_on iter).mpr hnodup)
    · intro e he hkey
      rw [mem_keys_on] at hkey
      obtain ⟨e', he', heq⟩ := List.mem_map.mp hkey
      obtain ⟨n, hn, hext⟩ := List.mem_map.mp (of_mem_table he').1
      apply hfresh n hn
      rw [hext, heq]
      exact (of_mem_table (iter.mem_on.mp he)).2
    · exact iter.mem_on.mpr ((get_eq_some_iff hnodup).mp hget)

theorem Submitted.relations_eq (h : Submitted iter d used w ids)
    (hfresh : ∀ n ∈ d.nodeDrafts, n.externalId ∉ w.spec.nodeSpecs.map NodeSpec.id) :
    w.spec.nodeRelations = d.nodeRelations.map (fun r =>
      { r with fromId := newId d w.spec r.fromId, toId := newId d w.spec r.toId }) := by
  rw [h.relations]
  refine List.map_congr_left fun r _ => ?_
  rw [updateId_eq]
  have h1 := foldl_rename_table iter hfresh r.fromId
  have h2 := foldl_rename_table iter hfresh r.toId
  unfold table at h1 h2
  rw [h1, h2]

theorem newId_of_last {d : WorkflowDraftSpec} {w : WorkflowInstanceSpec} {id : Uuid}
    {p : NodeDraft × NodeSpec} (h : last (d.nodeDrafts.zip w.nodeSpecs) id = some p) :
    newId d w id = p.2.id := by
  rw [newId, get_table, h]
  rfl

structure Renamed (d : WorkflowDraftSpec) (w : WorkflowInstanceSpec)
    (ps : List (NodeDraft × NodeSpec)) (new : Uuid → Uuid) : Prop extends Copy d w ps where
  relations : w.nodeRelations =
    d.nodeRelations.map (fun r => { r with fromId := new r.fromId, toId := new r.toId })
  new_eq : ∀ id p, last ps id = some p → new id = p.2.id
  ends : ∀ r ∈ d.nodeRelations, (∃ p, last ps r.fromId = some p) ∧ ∃ p, last ps r.toId = some p

theorem Submitted.renamed (h : Submitted iter d used w ids)
    (hfresh : ∀ n ∈ d.nodeDrafts, n.externalId ∉ w.spec.nodeSpecs.map NodeSpec.id)
    (hd : ∀ r ∈ d.nodeRelations,
      (∃ n, d.getNode r.fromId = some n) ∧ ∃ n, d.getNode r.toId = some n) :
    Renamed d w.spec (d.nodeDrafts.zip w.spec.nodeSpecs) (newId d w.spec) :=
  ⟨h.copy, h.relations_eq hfresh, fun _ _ hp => newId_of_last hp, fun r hr =>
    ⟨h.copy.exists_last_of_getNode (hd r hr).1, h.copy.exists_last_of_getNode (hd r hr).2⟩⟩

end Submitted

end Kuintessence

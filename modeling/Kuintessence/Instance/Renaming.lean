import Kuintessence.Instance.SubNodes

namespace Kuintessence

open Assoc Effect

def WorkflowDraftSpec.externalIds (d : WorkflowDraftSpec) : List Uuid :=
  d.nodeDrafts.map NodeDraft.externalId

def WorkflowInstanceSpec.nodeIds (w : WorkflowInstanceSpec) : List Uuid :=
  w.nodeSpecs.map NodeSpec.id

structure Instantiated (iter : Order (Uuid × Uuid)) (d : WorkflowDraftSpec)
    (w : WorkflowInstanceSpec) : Prop where
  specs : List.Forall₂ Copied d.nodeDrafts w.nodeSpecs
  relations : w.nodeRelations =
    d.nodeRelations.map (NodeRelation.updateId (iter.on (table d w)))

theorem wp_draw {E : (Nat → Uuid) → Prop} (ids : Nat → Uuid) :
    wp newV4 () (fun _ _ => True) E ids := trivial

theorem wp_copied (l : NodeDraft) {E : (Nat → Uuid) → Prop} (ids : Nat → Uuid) :
    wp (NodeSpec.from l) () (fun n _ => Copied l n) E ids := by
  unfold NodeSpec.from
  rw [wp_bind]
  refine wp_mono (wp_draw ids) (fun id t _ => ?_) (fun _ he => he)
  rw [wp_bind]
  refine wp_mono (wp_mapEach (fun _ _ _ => True) l.outputSlots (fun _ slot _ _ _ t _ => ?_)
    trivial) (fun slots t _ => ⟨rfl, rfl, rfl⟩) (fun _ he => he)
  unfold NodeSpecOutputSlot.from
  rw [wp_bind]
  refine wp_mono (wp_draw t) (fun prepared u _ => ?_) (fun _ he => he)
  cases slot.kind with
  | file origin isBatch => trivial
  | text => trivial

theorem wp_specFrom (iter : Order (Uuid × Uuid)) (d : WorkflowDraftSpec)
    {E : (Nat → Uuid) → Prop} (ids : Nat → Uuid) :
    wp (WorkflowInstanceSpec.from iter d) () (fun w _ => Instantiated iter d w) E ids := by
  unfold WorkflowInstanceSpec.from
  simp only [wp_bind, wp_pure]
  refine wp_mono (wp_mapEach (fun pre ns _ => List.Forall₂ Copied pre ns) d.nodeDrafts ?_ .nil)
    (fun ns t hns => ⟨hns, rfl⟩) (fun _ he => he)
  intro pre n post ns heq t hns
  exact wp_mono (wp_copied n t) (fun m _ hm => List.rel_append hns (.cons hm .nil)) (fun _ he => he)

variable {iter : Order (Uuid × Uuid)} {d : WorkflowDraftSpec} {w : WorkflowInstanceSpec}

structure Image (d : WorkflowDraftSpec) (w : WorkflowInstanceSpec) (new : Uuid → Uuid) : Prop where
  nodes : w.nodeIds = d.externalIds.map new
  injective : ∀ a ∈ d.externalIds, ∀ b ∈ d.externalIds, new a = new b → a = b
  elsewhere : ∀ a, a ∉ d.externalIds → new a = a
  relations : w.nodeRelations =
    d.nodeRelations.map (fun r => { r with fromId := new r.fromId, toId := new r.toId })

theorem Instantiated.last_eq (h : Instantiated iter d w) (hd : d.externalIds.Nodup)
    {p : NodeDraft × NodeSpec} (hp : p ∈ d.nodeDrafts.zip w.nodeSpecs) :
    last (d.nodeDrafts.zip w.nodeSpecs) p.1.externalId = some p := by
  have hnodup : ((d.nodeDrafts.zip w.nodeSpecs).map (fun p => p.1.externalId)).Nodup := by
    have hfst := List.map_fst_zip (Nat.le_of_eq h.specs.length_eq)
    rw [WorkflowDraftSpec.externalIds, ← hfst, List.map_map] at hd
    exact hd
  obtain ⟨q, hq⟩ := exists_last hp
  have heq : q = p := List.inj_on_of_nodup_map hnodup (mem_of_last hq) hp (externalId_of_last hq)
  rw [hq, heq]

theorem Instantiated.nodes_eq (h : Instantiated iter d w) (hd : d.externalIds.Nodup) :
    w.nodeIds = d.externalIds.map (newId d w) := by
  have hfst := List.map_fst_zip (Nat.le_of_eq h.specs.length_eq)
  have hsnd := List.map_snd_zip (Nat.le_of_eq h.specs.length_eq.symm)
  calc
    w.nodeIds = (d.nodeDrafts.zip w.nodeSpecs).map (fun p => p.2.id) := by
      rw [WorkflowInstanceSpec.nodeIds, ← hsnd, List.map_map, hsnd]
      rfl
    _ = (d.nodeDrafts.zip w.nodeSpecs).map (fun p => newId d w p.1.externalId) :=
      List.map_congr_left fun p hp => (newId_of_last (h.last_eq hd hp)).symm
    _ = d.externalIds.map (newId d w) := by
      rw [WorkflowDraftSpec.externalIds, List.map_map]
      conv_rhs => rw [← hfst, List.map_map]
      rfl

theorem Instantiated.image (h : Instantiated iter d w) (hd : d.externalIds.Nodup)
    (hw : w.nodeIds.Nodup) (hfresh : ∀ a ∈ d.externalIds, a ∉ w.nodeIds) :
    Image d w (newId d w) := by
  have hnodes := h.nodes_eq hd
  refine ⟨hnodes, fun a ha b hb heq => ?_, fun a ha => ?_, ?_⟩
  · rw [hnodes] at hw
    exact List.inj_on_of_nodup_map hw ha hb heq
  · have hkeys : a ∉ keys (table d w) := by
      intro hkey
      obtain ⟨e, he, rfl⟩ := List.mem_map.mp hkey
      exact ha (of_mem_table he).1
    rw [newId, get_eq_none_iff.mpr hkeys]
    rfl
  · rw [h.relations]
    refine List.map_congr_left fun r _ => ?_
    have hends := foldl_rename_table iter fun n hn => hfresh _ (List.mem_map_of_mem hn)
    rw [updateId_eq, hends, hends]

namespace Image

variable {new : Uuid → Uuid}

theorem mem_nodeIds (h : Image d w new) {a : Uuid} (ha : a ∈ d.externalIds) : new a ∈ w.nodeIds := by
  rw [h.nodes]
  exact List.mem_map_of_mem ha

theorem end_not_old (h : Image d w new) (hfresh : ∀ a ∈ d.externalIds, a ∉ w.nodeIds) (a : Uuid) :
    new a ∉ d.externalIds := by
  intro hold
  by_cases ha : a ∈ d.externalIds
  · exact hfresh _ hold (h.mem_nodeIds ha)
  · rw [h.elsewhere a ha] at hold
    exact ha hold

theorem eq_of_new_eq (h : Image d w new) {a b : Uuid} (ha : a ∈ d.externalIds)
    (hb : b ∉ w.nodeIds) (heq : new b = new a) : b = a := by
  by_cases hold : b ∈ d.externalIds
  · exact h.injective b hold a ha heq
  · rw [h.elsewhere b hold] at heq
    rw [heq] at hb
    exact absurd (h.mem_nodeIds ha) hb

theorem relation_iff (h : Image d w new)
    (hends : ∀ r ∈ d.nodeRelations, r.fromId ∉ w.nodeIds ∧ r.toId ∉ w.nodeIds)
    {a b : Uuid} (ha : a ∈ d.externalIds) (hb : b ∈ d.externalIds) (slots : List SlotRelation) :
    ⟨a, b, slots⟩ ∈ d.nodeRelations ↔ ⟨new a, new b, slots⟩ ∈ w.nodeRelations := by
  rw [h.relations, List.mem_map]
  constructor
  · exact fun hr => ⟨_, hr, rfl⟩
  · rintro ⟨⟨x, y, ss⟩, hr, heq⟩
    obtain ⟨hx, hy⟩ := hends _ hr
    simp only [NodeRelation.mk.injEq] at heq
    obtain ⟨hfrom, hto, rfl⟩ := heq
    obtain rfl := h.eq_of_new_eq ha hx hfrom
    obtain rfl := h.eq_of_new_eq hb hy hto
    exact hr

end Image

def ring : WorkflowDraftSpec where
  schedulingStrategy := .auto
  nodeDrafts := [sampleNode 1 (emptySlot "s") none "o", sampleNode 2 (emptySlot "s") none "o",
    sampleNode 3 (emptySlot "s") none "o"]
  nodeRelations := [⟨1, 2, [⟨"o", "s", .network⟩]⟩, ⟨2, 3, [⟨"o", "s", .network⟩]⟩, ⟨3, 1, []⟩,
    ⟨9, 3, []⟩]

end Kuintessence

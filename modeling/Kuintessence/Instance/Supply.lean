import Kuintessence.Model.WorkflowInstance

namespace Kuintessence

open Effect

def Tail (ids ids' : Nat → Uuid) : Prop := ∃ k, ids' = fun j => ids (k + j)

theorem Tail.refl (ids : Nat → Uuid) : Tail ids ids := ⟨0, by simp⟩

theorem Tail.trans {a b c : Nat → Uuid} (hab : Tail a b) (hbc : Tail b c) : Tail a c := by
  obtain ⟨k, rfl⟩ := hab
  obtain ⟨l, rfl⟩ := hbc
  exact ⟨k + l, by simp only [Nat.add_assoc]⟩

def tailFrame : Frame (Nat → Uuid) := ⟨Tail, Tail.refl, Tail.trans⟩

def Drawn (ids iter : Nat → Uuid) (id : Uuid) : Prop :=
  ∃ k l, k < l ∧ (iter = fun j => ids (l + j)) ∧ ids k = id

theorem Tail.drawn {ids iter : Nat → Uuid} (h : Tail ids iter) :
    Drawn ids (fun k => iter (k + 1)) (iter 0) := by
  obtain ⟨k, rfl⟩ := h
  refine ⟨k, k + 1, Nat.lt_succ_self k, ?_, rfl⟩
  funext j
  exact congrArg ids (by omega)

theorem Drawn.later {ids iter iter' : Nat → Uuid} {id : Uuid} (h : Drawn ids iter id)
    (ht : Tail iter iter') : Drawn ids iter' id := by
  obtain ⟨k, l, hlt, rfl, rfl⟩ := h
  obtain ⟨m, rfl⟩ := ht
  refine ⟨k, l + m, by omega, ?_, rfl⟩
  simp only [Nat.add_assoc]

theorem Drawn.ne {ids iter : Nat → Uuid} {id : Uuid} (h : Drawn ids iter id)
    (hids : Function.Injective ids) (j : Nat) : iter j ≠ id := by
  obtain ⟨k, l, hlt, rfl, rfl⟩ := h
  intro heq
  have hk : l + j = k := hids heq
  omega

theorem keeps_newV4 : Keeps tailFrame newV4 := fun _ _ => ⟨1, by simp only [newV4, Nat.add_comm]⟩

theorem keeps_updateOutputSlots (n : NodeSpec) : Keeps tailFrame n.updateOutputSlots :=
  (Keeps.mapEach (fun _ => keeps_newV4.bind fun _ => keeps_pure _) _).bind fun _ => keeps_pure _

theorem keeps_outputSlotFrom (l : NodeDraftOutputSlot) :
    Keeps tailFrame (NodeSpecOutputSlot.from l) := by
  refine keeps_newV4.bind fun _ => ?_
  cases l.kind <;> exact keeps_pure _

theorem keeps_nodeSpecFrom (l : NodeDraft) : Keeps tailFrame (NodeSpec.from l) :=
  keeps_newV4.bind fun _ => (Keeps.mapEach keeps_outputSlotFrom _).bind fun _ => keeps_pure _

theorem keeps_specFrom (iter : Order (Uuid × Uuid)) (l : WorkflowDraftSpec) :
    Keeps tailFrame (WorkflowInstanceSpec.from iter l) :=
  (Keeps.mapEach keeps_nodeSpecFrom _).bind fun _ => keeps_pure _

theorem keeps_instanceFrom (iter : Order (Uuid × Uuid)) (l : WorkflowDraft) :
    Keeps tailFrame (WorkflowInstance.from iter l) :=
  keeps_newV4.bind fun _ => (keeps_specFrom iter _).bind fun _ => keeps_pure _

theorem keeps_parseNodeInstances (w : WorkflowInstance) :
    Keeps tailFrame w.parseNodeInstances := by
  refine (Keeps.mapEach (fun n => ?_) _).bind fun _ => keeps_pure _
  unfold WorkflowInstance.parseNodeInstance
  split
  · exact keeps_pure _
  · exact (keeps_lift _).bind fun _ =>
      (Keeps.mapEach (fun _ => keeps_newV4.bind fun _ => keeps_pure _) _).bind fun _ => keeps_pure _

structure Supply (used : List Uuid) (ids : Nat → Uuid) : Prop where
  injective : Function.Injective ids
  fresh : ∀ a ∈ used, ∀ k, ids k ≠ a

namespace Supply

variable {used used' : List Uuid} {ids ids' : Nat → Uuid}

theorem tail (h : Supply used ids) (ht : Tail ids ids') : Supply used ids' := by
  obtain ⟨k, rfl⟩ := ht
  refine ⟨fun i j hij => ?_, fun a ha j => h.fresh a ha (k + j)⟩
  have heq := h.injective hij
  omega

theorem mono (h : Supply used ids) (hsub : ∀ a ∈ used', a ∈ used) : Supply used' ids :=
  ⟨h.injective, fun a ha => h.fresh a (hsub a ha)⟩

theorem head_notMem (h : Supply used ids) : ids 0 ∉ used := fun hm => h.fresh _ hm 0 rfl

theorem draw (h : Supply used ids) : Supply (ids 0 :: used) (fun k => ids (k + 1)) := by
  refine ⟨fun i j hij => ?_, fun a ha k => ?_⟩
  · have heq := h.injective hij
    omega
  · rcases List.mem_cons.mp ha with rfl | hm
    · intro heq
      have hzero := h.injective heq
      omega
    · exact h.fresh a hm (k + 1)

end Supply

theorem nodup_map_snoc {α : Type} {f : α → Uuid} {l : List α} {a : α} (h : (l.map f).Nodup)
    (ha : f a ∉ l.map f) : ((l ++ [a]).map f).Nodup := by
  rw [List.map_append, List.map_singleton]
  exact h.append (List.nodup_singleton _) (List.disjoint_singleton.mpr ha)

variable {used : List Uuid} {ids : Nat → Uuid} {E : (Nat → Uuid) → Prop}

theorem wp_newV4 (h : Supply used ids) :
    wp newV4 () (fun a t => a ∉ used ∧ Supply (a :: used) t) E ids := ⟨h.head_notMem, h.draw⟩

def NodeSpecOutputSlot.prepared (s : NodeSpecOutputSlot) : List Uuid :=
  match s.kind with
  | .file _ _ ids => ids
  | .text keys => keys

theorem NodeSpecOutputSlot.prepared_set (s : NodeSpecOutputSlot) (l : List Uuid) :
    (s.setPrepared l).prepared = l := by
  unfold setPrepared prepared
  cases s.kind <;> rfl

-- An output slot that comes with one prepared id, which is not given out again.
def SlotMinted (ids : Nat → Uuid) (slot : NodeSpecOutputSlot) : Prop :=
  ∃ id, slot.prepared = [id] ∧ ∀ k, ids k ≠ id

def Minted (ids : Nat → Uuid) (n : NodeSpec) : Prop := ∀ slot ∈ n.outputSlots, SlotMinted ids slot

theorem SlotMinted.later {ids ids' : Nat → Uuid} {slot : NodeSpecOutputSlot}
    (h : SlotMinted ids slot) (ht : Tail ids ids') : SlotMinted ids' slot := by
  obtain ⟨id, hid, hne⟩ := h
  obtain ⟨k, rfl⟩ := ht
  exact ⟨id, hid, fun j => hne (k + j)⟩

theorem Minted.later {ids ids' : Nat → Uuid} {n : NodeSpec} (h : Minted ids n) (ht : Tail ids ids') :
    Minted ids' n := fun slot hslot => (h slot hslot).later ht

theorem wp_outputSlotFrom (h : Supply used ids) (l : NodeDraftOutputSlot) :
    wp (NodeSpecOutputSlot.from l) () (fun slot t => Supply used t ∧ SlotMinted t slot ∧ Tail ids t)
      E ids := by
  unfold NodeSpecOutputSlot.from
  rw [wp_bind]
  refine wp_mono (wp_and (wp_newV4 h) (keeps_newV4.wp () ids)) (fun a t ht => ?_)
    (fun _ he => he.1)
  obtain ⟨⟨ha, hs⟩, htail⟩ := ht
  have hfresh : ∀ k, t k ≠ a := hs.fresh a List.mem_cons_self
  have hs' : Supply used t := hs.mono fun b hb => List.mem_cons_of_mem a hb
  cases l.kind with
  | file origin isBatch => exact ⟨hs', ⟨a, rfl, hfresh⟩, htail⟩
  | text => exact ⟨hs', ⟨a, rfl, hfresh⟩, htail⟩

structure Copied (l : NodeDraft) (n : NodeSpec) : Prop where
  kind : n.kind = l.kind
  inputSlots : n.inputSlots = l.inputSlots
  batchStrategies : n.batchStrategies = l.batchStrategies.getD []

theorem wp_nodeSpecFrom (h : Supply used ids) (l : NodeDraft) :
    wp (NodeSpec.from l) ()
      (fun n t => Copied l n ∧ n.id ∉ used ∧ Supply (n.id :: used) t ∧ Minted t n) E ids := by
  unfold NodeSpec.from
  rw [wp_bind]
  refine wp_mono (wp_newV4 h) (fun a t ⟨ha, ht⟩ => ?_) (fun _ he => he)
  rw [wp_bind]
  refine wp_mono (wp_mapEach (fun _ slots u => Supply (a :: used) u ∧ ∀ slot ∈ slots, SlotMinted u slot)
    l.outputSlots ?_ ⟨ht, by simp⟩) (fun slots u ⟨hu, hslots⟩ => ?_) (fun _ he => he)
  · rintro pre x post slots - u ⟨hu, hslots⟩
    refine wp_mono (wp_outputSlotFrom hu x) (fun slot v ⟨hv, hslot, htail⟩ => ⟨hv, ?_⟩)
      (fun _ he => he)
    simp only [List.mem_append, List.mem_singleton]
    rintro slot' (hslot' | rfl)
    · exact (hslots slot' hslot').later htail
    · exact hslot
  · rw [wp_pure]
    exact ⟨⟨rfl, rfl, rfl⟩, ha, hu, hslots⟩

theorem wp_nodeSpecsFrom (h : Supply used ids) (ls : List NodeDraft) :
    wp (mapEach NodeSpec.from ls) ()
      (fun ns t => List.Forall₂ Copied ls ns ∧ (ns.map NodeSpec.id).Nodup ∧
        (∀ n ∈ ns, n.id ∉ used ∧ Minted t n) ∧ Supply (ns.map NodeSpec.id ++ used) t) E ids := by
  refine wp_mapEach (fun pre ns t => List.Forall₂ Copied pre ns ∧ (ns.map NodeSpec.id).Nodup ∧
    (∀ n ∈ ns, n.id ∉ used ∧ Minted t n) ∧ Supply (ns.map NodeSpec.id ++ used) t) ls ?_
    ⟨.nil, List.nodup_nil, by simp, h⟩
  rintro pre l post ns - t ⟨hcopy, hnodup, hfresh, hs⟩
  refine wp_mono (wp_and (wp_nodeSpecFrom hs l) ((keeps_nodeSpecFrom l).wp () t)) ?_
    (fun _ he => he.1)
  rintro n u ⟨⟨hn, hid, hu, hminted⟩, htail⟩
  rw [List.mem_append, not_or] at hid
  refine ⟨List.rel_append hcopy (.cons hn .nil), nodup_map_snoc hnodup hid.1, ?_, ?_⟩
  · intro m hm
    rcases List.mem_append.mp hm with hm | hm
    · exact ⟨(hfresh m hm).1, (hfresh m hm).2.later htail⟩
    · rw [List.mem_singleton.mp hm]
      exact ⟨hid.2, hminted⟩
  · refine hu.mono fun a ha => ?_
    simp only [List.map_append, List.map_singleton, List.append_assoc, List.mem_append,
      List.mem_cons, List.not_mem_nil, or_false] at ha ⊢
    tauto

structure Submitted (iter : Order (Uuid × Uuid)) (l : WorkflowDraftSpec) (used : List Uuid)
    (w : WorkflowInstance) (ids : Nat → Uuid) : Prop where
  specs : List.Forall₂ Copied l.nodeDrafts w.spec.nodeSpecs
  relations : w.spec.nodeRelations = l.nodeRelations.map (NodeRelation.updateId (iter.on
    (Assoc.ofList ((l.nodeDrafts.map NodeDraft.externalId).zip (w.spec.nodeSpecs.map NodeSpec.id)))))
  nodup : (w.spec.nodeSpecs.map NodeSpec.id).Nodup
  status : w.status = .created
  id_fresh : w.id ∉ used
  fresh : ∀ n ∈ w.spec.nodeSpecs, n.id ∉ w.id :: used
  minted : ∀ n ∈ w.spec.nodeSpecs, Minted ids n
  supply : Supply (w.spec.nodeSpecs.map NodeSpec.id ++ w.id :: used) ids

theorem wp_instanceFrom (h : Supply used ids) (iter : Order (Uuid × Uuid)) (l : WorkflowDraft) :
    wp (WorkflowInstance.from iter l) () (fun w t => Submitted iter l.spec used w t) E ids := by
  unfold WorkflowInstance.from WorkflowInstanceSpec.from
  rw [wp_bind]
  refine wp_mono (wp_newV4 h) (fun a t hnew => ?_) (fun _ he => he)
  obtain ⟨ha, ht⟩ := hnew
  simp only [wp_bind, wp_pure]
  refine wp_mono (wp_nodeSpecsFrom ht l.spec.nodeDrafts) (fun ns u hns => ?_) (fun _ he => he)
  obtain ⟨hcopy, hnodup, hfresh, hu⟩ := hns
  exact ⟨hcopy, rfl, hnodup, rfl, ha, fun n hn => (hfresh n hn).1, fun n hn => (hfresh n hn).2, hu⟩

def subsOf (rows : List NodeInstance) (x : Uuid) : List NodeInstance :=
  rows.filter (fun row => row.batchParentId == some x)

theorem subsOf_append (rows rows' : List NodeInstance) (x : Uuid) :
    subsOf (rows ++ rows') x = subsOf rows x ++ subsOf rows' x := List.filter_append ..

theorem subsOf_eq_self {rows : List NodeInstance} {x : Uuid}
    (h : ∀ row ∈ rows, row.batchParentId = some x) : subsOf rows x = rows :=
  List.filter_eq_self.mpr fun row hrow => by rw [h row hrow, beq_self_eq_true]

theorem subsOf_eq_nil {rows : List NodeInstance} {x : Uuid}
    (h : ∀ row ∈ rows, row.batchParentId ≠ some x) : subsOf rows x = [] :=
  List.filter_eq_nil_iff.mpr fun row hrow hparent => h row hrow (beq_iff_eq.mp hparent)

structure Parsed (w : WorkflowInstance) (specs : List NodeSpec) (used : List Uuid)
    (rows : List NodeInstance) (ids : Nat → Uuid) : Prop where
  flow : ∀ row ∈ rows, row.flowInstanceId = w.id ∧ row.status = .created
  place : ∀ row ∈ rows, ∃ n ∈ specs, row.batchParentId = none ∧ row.id = n.id ∨
    row.batchParentId = some n.id ∧ n.batchStrategies ≠ [] ∧ row.id ∉ used
  roots : ∀ n ∈ specs, ∃ row ∈ rows, row.batchParentId = none ∧ row.id = n.id
  counted : ∀ n ∈ specs, n.batchStrategies ≠ [] →
    w.spec.subNodeCount n.id = .ok (subsOf rows n.id).length
  nodup : (rows.map NodeInstance.id).Nodup
  supply : Supply (rows.map NodeInstance.id ++ used) ids

def IsSub (w : WorkflowInstance) (n : NodeSpec) (row : NodeInstance) : Prop :=
  row.flowInstanceId = w.id ∧ row.status = .created ∧ row.batchParentId = some n.id

theorem wp_subInstances (h : Supply used ids) (w : WorkflowInstance) (n : NodeSpec)
    (is : List Nat) :
    wp (mapEach (w.subInstance n) is) ()
      (fun subs t => (∀ row ∈ subs, IsSub w n row ∧ row.id ∉ used) ∧ subs.length = is.length ∧
        (subs.map NodeInstance.id).Nodup ∧ Supply (subs.map NodeInstance.id ++ used) t) E ids := by
  refine wp_mapEach (fun pre subs t => (∀ row ∈ subs, IsSub w n row ∧ row.id ∉ used) ∧
    subs.length = pre.length ∧ (subs.map NodeInstance.id).Nodup ∧
      Supply (subs.map NodeInstance.id ++ used) t) is ?_ ⟨by simp, rfl, List.nodup_nil, h⟩
  rintro pre i post subs - t ⟨hsubs, hlen, hnodup, hs⟩
  unfold WorkflowInstance.subInstance
  rw [wp_bind]
  refine wp_mono (wp_newV4 hs) (fun a u ⟨ha, hu⟩ => ?_) (fun _ he => he)
  rw [List.mem_append, not_or] at ha
  rw [wp_pure]
  refine ⟨?_, ?_, nodup_map_snoc hnodup ha.1, ?_⟩
  · intro row hrow
    rcases List.mem_append.mp hrow with hrow | hrow
    · exact hsubs row hrow
    · rw [List.mem_singleton.mp hrow]
      exact ⟨⟨rfl, rfl, rfl⟩, ha.2⟩
  · rw [List.length_append, List.length_append, hlen, List.length_singleton, List.length_singleton]
  · refine hu.mono fun b hb => ?_
    simp only [List.map_append, List.map_singleton, List.append_assoc, List.mem_append,
      List.mem_cons, List.not_mem_nil, or_false] at hb ⊢
    tauto

theorem wp_parseNodeInstance (h : Supply used ids) (w : WorkflowInstance) (n : NodeSpec)
    (hn : n.id ∈ used) :
    wp (w.parseNodeInstance n) () (fun rows t => ∃ subs, rows = w.rootInstance n :: subs ∧
      (∀ row ∈ subs, IsSub w n row ∧ n.batchStrategies ≠ [] ∧ row.id ∉ used) ∧
        (n.batchStrategies ≠ [] → w.spec.subNodeCount n.id = .ok subs.length) ∧
        (rows.map NodeInstance.id).Nodup ∧ Supply (rows.map NodeInstance.id ++ used) t)
      (fun _ => True) ids := by
  unfold WorkflowInstance.parseNodeInstance
  split
  · next hplain =>
    rw [List.isEmpty_iff] at hplain
    rw [wp_pure]
    refine ⟨[], rfl, by simp, fun hne => absurd hplain hne, List.nodup_singleton _,
      h.mono fun a ha => ?_⟩
    rcases List.mem_append.mp ha with ha | ha
    · rw [List.mem_singleton.mp ha]
      exact hn
    · exact ha
  · next hne =>
    rw [List.isEmpty_iff] at hne
    rw [wp_bind, wp_lift]
    refine ⟨fun count hcount => ?_, fun _ => trivial⟩
    rw [wp_bind]
    refine wp_mono (wp_subInstances h w n _) (fun subs t ⟨hsubs, hlen, hnodup, hs⟩ => ?_)
      (fun _ he => he)
    rw [List.length_range] at hlen
    rw [wp_pure]
    refine ⟨subs, rfl, fun row hrow => ⟨(hsubs row hrow).1, hne, (hsubs row hrow).2⟩, ?_, ?_, ?_⟩
    · intro _
      rw [hcount, hlen]
    · rw [List.map_cons, List.nodup_cons]
      refine ⟨fun hm => ?_, hnodup⟩
      obtain ⟨row, hrow, heq⟩ := List.mem_map.mp hm
      apply (hsubs row hrow).2
      rw [heq]
      exact hn
    · refine hs.mono fun a ha => ?_
      rw [List.map_cons, List.cons_append, List.mem_cons] at ha
      rcases ha with rfl | ha
      · exact List.mem_append_right _ hn
      · exact ha

theorem wp_parseNodeInstances (h : Supply used ids) (w : WorkflowInstance)
    (hnodup : (w.spec.nodeSpecs.map NodeSpec.id).Nodup)
    (hused : ∀ n ∈ w.spec.nodeSpecs, n.id ∈ used) :
    wp w.parseNodeInstances ()
      (fun rows t => Parsed w w.spec.nodeSpecs used rows t) (fun _ => True) ids := by
  unfold WorkflowInstance.parseNodeInstances
  rw [wp_bind]
  refine wp_mono (wp_mapEach (fun pre rowss t => Parsed w pre used rowss.flatten t)
    w.spec.nodeSpecs ?_ ⟨by simp, by simp, by simp, by simp, List.nodup_nil, h⟩)
    (fun _ _ hp => hp) (fun _ he => he)
  rintro pre n post rowss heq t hp
  have hnmem : n ∈ w.spec.nodeSpecs := by rw [heq]; simp
  have hnew : n.id ∉ pre.map NodeSpec.id := by
    rw [heq, List.map_append, List.map_cons, List.nodup_append] at hnodup
    exact fun hm => hnodup.2.2 n.id hm n.id List.mem_cons_self rfl
  refine wp_mono (wp_parseNodeInstance hp.supply w n
    (List.mem_append_right _ (hused n hnmem))) ?_ (fun _ _ => trivial)
  rintro rows u ⟨subs, rfl, hsubs, hcount, hrows, hu⟩
  have hflat : (rowss ++ [w.rootInstance n :: subs]).flatten =
      rowss.flatten ++ w.rootInstance n :: subs := by simp
  have hparents : ∀ row ∈ w.rootInstance n :: subs,
      row.batchParentId = none ∨ row.batchParentId = some n.id := by
    intro row hrow
    rcases List.mem_cons.mp hrow with rfl | hrow
    · exact .inl rfl
    · exact .inr (hsubs row hrow).1.2.2
  rw [hflat]
  refine ⟨?_, ?_, ?_, ?_, ?_, ?_⟩
  · intro row hrow
    rcases List.mem_append.mp hrow with hrow | hrow
    · exact hp.flow row hrow
    · rcases List.mem_cons.mp hrow with rfl | hrow
      · exact ⟨rfl, rfl⟩
      · exact ⟨(hsubs row hrow).1.1, (hsubs row hrow).1.2.1⟩
  · intro row hrow
    rcases List.mem_append.mp hrow with hrow | hrow
    · obtain ⟨m, hm, hplace⟩ := hp.place row hrow
      exact ⟨m, List.mem_append_left _ hm, hplace⟩
    · refine ⟨n, by simp, ?_⟩
      rcases List.mem_cons.mp hrow with rfl | hrow
      · exact .inl ⟨rfl, rfl⟩
      · obtain ⟨⟨-, -, hparent⟩, hbatch, hfresh⟩ := hsubs row hrow
        rw [List.mem_append, not_or] at hfresh
        exact .inr ⟨hparent, hbatch, hfresh.2⟩
  · intro m hm
    rcases List.mem_append.mp hm with hm | hm
    · obtain ⟨row, hrow, hroot⟩ := hp.roots m hm
      exact ⟨row, List.mem_append_left _ hrow, hroot⟩
    · rw [List.mem_singleton.mp hm]
      exact ⟨w.rootInstance n, by simp, rfl, rfl⟩
  · intro m hm hbatch
    rw [subsOf_append]
    rcases List.mem_append.mp hm with hm | hm
    · have hnone : subsOf (w.rootInstance n :: subs) m.id = [] := by
        refine subsOf_eq_nil fun row hrow hparent => ?_
        rcases hparents row hrow with heq | heq
        · rw [heq] at hparent
          cases hparent
        · rw [heq, Option.some.injEq] at hparent
          exact hnew (List.mem_map.mpr ⟨m, hm, hparent.symm⟩)
      rw [hnone, List.append_nil]
      exact hp.counted m hm hbatch
    · rw [List.mem_singleton.mp hm] at hbatch ⊢
      have hnone : subsOf rowss.flatten n.id = [] := by
        refine subsOf_eq_nil fun row hrow hparent => ?_
        obtain ⟨k, hk, ⟨hroot, -⟩ | ⟨hsub, -, -⟩⟩ := hp.place row hrow
        · rw [hroot] at hparent
          cases hparent
        · rw [hsub, Option.some.injEq] at hparent
          exact hnew (List.mem_map.mpr ⟨k, hk, hparent⟩)
      have hself : subsOf (w.rootInstance n :: subs) n.id = subs := by
        rw [subsOf, List.filter_cons_of_neg (by simp [WorkflowInstance.rootInstance])]
        exact subsOf_eq_self fun row hrow => (hsubs row hrow).1.2.2
      rw [hnone, hself, List.nil_append]
      exact hcount hbatch
  · rw [List.map_append]
    refine hp.nodup.append hrows ?_
    rw [List.map_cons]
    intro a ha hb
    rcases List.mem_cons.mp hb with rfl | hb
    · obtain ⟨row, hrow, hid⟩ := List.mem_map.mp ha
      obtain ⟨m, hm, ⟨-, hroot⟩ | ⟨-, -, hfresh⟩⟩ := hp.place row hrow
      · exact hnew (List.mem_map.mpr ⟨m, hm, hroot.symm.trans hid⟩)
      · apply hfresh
        rw [hid]
        exact hused n hnmem
    · obtain ⟨row, hrow, rfl⟩ := List.mem_map.mp hb
      exact (hsubs row hrow).2.2 (List.mem_append_left _ ha)
  · refine hu.mono fun a ha => ?_
    simp only [List.map_append, List.mem_append] at ha ⊢
    tauto

end Kuintessence

import Kuintessence.Engine.Respecs
import Kuintessence.Engine.Stock

namespace Kuintessence

open Outcome WorkflowInstanceSpec

section Counts

variable {spec : WorkflowInstanceSpec} {sub sub' : Uuid → Anyhow Nat} {n : NodeSpec}
  {b : BatchStrategy} {bs : List BatchStrategy} {x : Uuid} {k acc fuel : Nat}

theorem strategyCount_mono (hsub : ∀ x k, sub x = .ok k → sub' x = .ok k)
    (h : spec.strategyCount sub n b = .ok k) : spec.strategyCount sub' n b = .ok k := by
  unfold strategyCount at h ⊢
  cases hkind : b.kind with
  | originalBatch => simpa only [hkind] using h
  | matchRegex regexToMatch fillCount filler => simpa only [hkind] using h
  | fromBatchOutputs =>
    simp only [hkind, bind_ok_iff] at h ⊢
    obtain ⟨r, hr, hk⟩ := h
    exact ⟨r, hr, hsub _ _ hk⟩

theorem countStrategies_mono (hsub : ∀ x k, sub x = .ok k → sub' x = .ok k)
    (h : spec.countStrategies sub n bs acc = .ok k) :
    spec.countStrategies sub' n bs acc = .ok k := by
  induction bs generalizing acc with
  | nil => exact h
  | cons b bs ih =>
    simp only [countStrategies, bind_ok_iff] at h ⊢
    obtain ⟨c, hc, a, ha, hrest⟩ := h
    exact ⟨c, strategyCount_mono hsub hc, a, ha, ih hrest⟩

theorem subNodeCountAux_mono (h : spec.subNodeCountAux fuel x = .ok k) :
    spec.subNodeCountAux (fuel + 1) x = .ok k := by
  induction fuel generalizing x k with
  | zero => simp [subNodeCountAux] at h
  | succ fuel ih =>
    rw [subNodeCountAux, bind_ok_iff] at h ⊢
    obtain ⟨m, hm, hk⟩ := h
    exact ⟨m, hm, countStrategies_mono (fun _ _ hx => ih hx) hk⟩

theorem countStrategies_sizes (h : spec.countStrategies sub n bs acc = .ok k) :
    ∃ ks, List.Forall₂ (fun b c => spec.strategyCount sub n b = .ok c) bs ks ∧ k = acc * ks.prod := by
  induction bs generalizing acc with
  | nil =>
    cases h
    exact ⟨[], .nil, by simp⟩
  | cons b bs ih =>
    simp only [countStrategies, bind_ok_iff] at h
    obtain ⟨c, hc, a, ha, hrest⟩ := h
    obtain ⟨ks, hks, rfl⟩ := ih hrest
    obtain ⟨-, rfl⟩ := checkedMul_ok_iff.mp ha
    exact ⟨c :: ks, .cons hc hks, by rw [List.prod_cons, Nat.mul_assoc]⟩

theorem comboCount_of_dropLast {sizes : List Nat} (hne : sizes ≠ [])
    (h : ∀ k ∈ sizes.dropLast, k ≠ 0) : comboCount sizes = sizes.prod := by
  have hsplit := List.dropLast_append_getLast hne
  by_cases hlast : sizes.getLast hne = 0
  · rw [← hsplit, hlast, comboCount_concat_zero]
    simp
  · refine comboCount_eq_prod hne fun k hk => ?_
    rw [← hsplit, List.mem_append, List.mem_singleton] at hk
    rcases hk with hk | rfl
    · exact h k hk
    · exact hlast

theorem forall₂_dropLast {α β : Type} {R : α → β → Prop} {xs : List α} {ys : List β}
    (h : List.Forall₂ R xs ys) : List.Forall₂ R xs.dropLast ys.dropLast := by
  rw [List.dropLast_eq_take, List.dropLast_eq_take, h.length_eq]
  exact List.forall₂_take _ h

theorem length_outputInputs (slot : NodeSpecOutputSlot) :
    (outputInputs slot).length = slot.prepared.length := by
  unfold outputInputs NodeSpecOutputSlot.prepared
  cases slot.kind <;> simp

end Counts

variable {env : Env} {w w' : World} {db' : Tables} {flow : Uuid} {spec : WorkflowInstanceSpec}
  {n m : NodeSpec} {b : BatchStrategy} {k : Nat} {x : Uuid}

def BatchStrategyKind.Vain : BatchStrategyKind → Prop
  | .matchRegex _ fillCount _ => fillCount = 0
  | _ => False

-- What fixes the size of each slot of a batch node: a `FromBatchOutputs` slot has one producer,
-- which is handed over with sub-nodes of its own; only the last strategy may fill in nothing.
structure Fed (w : World) (spec : WorkflowInstanceSpec) (n : NodeSpec) : Prop where
  alone : ∀ b ∈ n.batchStrategies, b.kind = .fromBatchOutputs →
    ∀ r ∈ (spec.nodeDependencyRelations n.id).find? (WorkflowDraftSpec.feeds b.inputSlotDescriptor),
      ∀ feed ∈ lastFeed (spec.nodeDependencyRelations n.id) b.inputSlotDescriptor, feed.1 = r.fromId
  handed : ∀ b ∈ n.batchStrategies, b.kind = .fromBatchOutputs →
    ∀ r ∈ (spec.nodeDependencyRelations n.id).find? (WorkflowDraftSpec.feeds b.inputSlotDescriptor),
      ∀ m ∈ spec.nodeSpecs, m.id = r.fromId → m.batchStrategies ≠ [] →
        m.id ∈ (handed w).map NodeSpec.id ∧ rowsOf w.db.places m.id ≠ []
  positive : ∀ b ∈ n.batchStrategies.dropLast, ¬b.kind.Vain

structure NodeSpec.Primed (m : NodeSpec) : Prop where
  plain : m.batchStrategies = [] → ∀ slot ∈ m.outputSlots, slot.prepared.length = 1
  filled : ∀ slot ∈ m.outputSlots, slot.prepared ≠ []

def Primed (w : World) : Prop := ∀ p ∈ w.db.specs, ∀ m ∈ p.2.nodeSpecs, m.Primed

structure Ledger (w : World) : Prop where
  batch : ∀ p ∈ w.db.specs, ∀ m ∈ p.2.nodeSpecs, m.batchStrategies ≠ [] →
    m.id ∈ (handed w).map NodeSpec.id → rowsOf w.db.places m.id ≠ [] →
      ∀ slot ∈ m.outputSlots, slot.prepared.length = (rowsOf w.db.places m.id).length

-- A stored instance whose rows are there.
structure Stood (w : World) (flow : Uuid) (spec : WorkflowInstanceSpec) : Prop where
  spec_mem : (flow, spec) ∈ w.db.specs
  rows : ∃ c ∈ w.db.places, c.flow = flow

section Sizes

theorem Stood.plan (h : Stood w flow spec) :
    ∃ f ∈ w.db.flows, f.id = flow ∧ f.spec = spec := Tables.flow_of_specs h.spec_mem

theorem Stood.plain (h : Stood w flow spec) (hstock : Stocked w) (hn : n ∈ spec.nodeSpecs) :
    Plain n.batchStrategies := by
  obtain ⟨f, hf, -, rfl⟩ := h.plan
  exact hstock.plain f hf n hn

theorem Stood.counted (h : Stood w flow spec) (hstock : Stocked w) (hn : n ∈ spec.nodeSpecs)
    (hbatch : n.batchStrategies ≠ []) :
    spec.subNodeCount n.id = .ok (rowsOf w.db.places n.id).length := by
  obtain ⟨f, hf, rfl, rfl⟩ := h.plan
  exact hstock.counted f hf h.rows n hn hbatch

theorem Stood.nodup (h : Stood w flow spec) (hs : Sound w) :
    (spec.nodeSpecs.map NodeSpec.id).Nodup := by
  obtain ⟨f, hf, -, rfl⟩ := h.plan
  rw [← WorkflowInstance.plan_ids]
  exact hs.layout.specs _ (Tables.mem_plans hf)

theorem node_ok (h : spec.node x = .ok m) : m ∈ spec.nodeSpecs ∧ m.id = x := by
  rw [node, unwrap_ok_iff] at h
  have hid := List.find?_some h
  exact ⟨List.mem_of_find?_eq_some h, beq_iff_eq.mp hid⟩

theorem subNodeCountAux_plain {fuel : Nat} (h : spec.subNodeCountAux fuel x = .ok k)
    (hm : spec.node x = .ok m) (hplain : m.batchStrategies = []) : k = 1 := by
  cases fuel with
  | zero => simp [subNodeCountAux] at h
  | succ fuel =>
    simp only [subNodeCountAux, hm, ok_bind, hplain, countStrategies, ok.injEq] at h
    exact h.symm

theorem Stood.produced (h : Stood w flow spec) (hstock : Stocked w)
    (hsub : spec.subNodeCountAux spec.nodeSpecs.length x = .ok k) (hm : spec.node x = .ok m) :
    (m.batchStrategies = [] ∧ k = 1) ∨
      (m.batchStrategies ≠ [] ∧ k = (rowsOf w.db.places m.id).length) := by
  obtain ⟨hmem, rfl⟩ := node_ok hm
  by_cases hbatch : m.batchStrategies = []
  · exact .inl ⟨hbatch, subNodeCountAux_plain hsub hm hbatch⟩
  · have hcount := h.counted hstock hmem hbatch
    rw [subNodeCount, subNodeCountAux_mono hsub, ok.injEq] at hcount
    exact .inr ⟨hbatch, hcount⟩

theorem exists_node {fuel : Nat} (h : spec.subNodeCountAux fuel x = .ok k) :
    ∃ m, spec.node x = .ok m := by
  cases fuel with
  | zero => simp [subNodeCountAux] at h
  | succ fuel =>
    rw [subNodeCountAux, bind_ok_iff] at h
    obtain ⟨m, hm, -⟩ := h
    exact ⟨m, hm⟩

theorem Stood.spec_eq (h : Stood w flow spec) (hs : Sound w) (hmem : m ∈ spec.nodeSpecs)
    (hplaces : db'.places = w.db.places) (hspecs : db'.specs = w.db.specs) {g : WorkflowInstance}
    (hg : g ∈ db'.flows) {node : NodeInstance} (hnode : node ∈ db'.nodes) (hid : node.id = m.id)
    (hflow : g.id = node.flowInstanceId) : g.spec = spec := by
  obtain ⟨f, hf, rfl, rfl⟩ := h.plan
  have hplace := Tables.mem_places hnode
  rw [hplaces] at hplace
  have hin : node.place.id ∈ f.plan.ids := by
    rw [WorkflowInstance.plan_ids]
    exact List.mem_map.mpr ⟨m, hmem, hid.symm⟩
  have hroot : node.flowInstanceId = f.id :=
    (hs.layout.root_of_id (Tables.mem_plans hf) hplace hin).2
  have hgspec : (g.id, g.spec) ∈ w.db.specs := hspecs ▸ Tables.mem_specs hg
  exact congrArg Prod.snd (List.inj_on_of_nodup_map hs.keyed.specs hgspec (Tables.mem_specs hf)
    (hflow.trans hroot))

theorem Stood.size_eq (h : Stood w flow spec) (hs : Sound w) (hstock : Stocked w)
    (hprimed : Primed w) (hl : Ledger w) (hn : n ∈ spec.nodeSpecs) (hfed : Fed w spec n) (hb : b ∈ n.batchStrategies)
    (hcount : spec.strategyCount (spec.subNodeCountAux spec.nodeSpecs.length) n b = .ok k)
    (hplaces : db'.places = w.db.places) (hspecs : db'.specs = w.db.specs)
    {slot : String × List Input}
    (hslot : SlotFor db' (spec.nodeDependencyRelations n.id) n b slot) : k = slot.2.length := by
  obtain ⟨-, inputSlot, -, hgathers⟩ := hslot
  unfold Gathers at hgathers
  unfold strategyCount at hcount
  cases hkind : b.kind with
  | originalBatch => exact absurd hkind (h.plain hstock hn b hb)
  | matchRegex regexToMatch fillCount filler =>
    simp only [hkind, ok.injEq] at hcount hgathers
    rw [hgathers, hcount]
  | fromBatchOutputs =>
    simp only [hkind, bind_ok_iff, unwrap_ok_iff] at hcount hgathers
    obtain ⟨r, hr, hsub⟩ := hcount
    obtain ⟨feed, hfeed, g, hg, ⟨node, hnode, hid, hflow⟩, m, hm, out, hout, hinputs⟩ := hgathers
    have hfrom := hfed.alone b hb hkind r hr feed hfeed
    obtain ⟨m', hm'⟩ := exists_node hsub
    obtain ⟨hmem, hmid⟩ := node_ok hm'
    have hgspec : g.spec = spec :=
      h.spec_eq hs hmem hplaces hspecs hg hnode (hid.trans (hfrom.trans hmid.symm)) hflow
    rw [hgspec, hfrom, hm', ok.injEq] at hm
    subst hm
    have hslots := outputSlot_mem hout
    rw [hinputs, length_outputInputs]
    rcases h.produced hstock hsub hm' with ⟨hplain, rfl⟩ | ⟨hbatch, rfl⟩
    · exact ((hprimed _ h.spec_mem m' hmem).plain hplain out hslots).symm
    · obtain ⟨hhanded, hrows⟩ := hfed.handed b hb hkind r hr m' hmem hmid hbatch
      exact (hl.batch _ h.spec_mem m' hmem hbatch hhanded hrows out hslots).symm

theorem Stood.count_ne_zero (h : Stood w flow spec) (hstock : Stocked w) (hn : n ∈ spec.nodeSpecs)
    (hfed : Fed w spec n) (hb : b ∈ n.batchStrategies) (hvain : ¬b.kind.Vain)
    (hcount : spec.strategyCount (spec.subNodeCountAux spec.nodeSpecs.length) n b = .ok k) :
    k ≠ 0 := by
  unfold strategyCount at hcount
  cases hkind : b.kind with
  | originalBatch => exact absurd hkind (h.plain hstock hn b hb)
  | matchRegex regexToMatch fillCount filler =>
    simp only [hkind, ok.injEq] at hcount
    rw [hkind] at hvain
    exact fun hzero => hvain (hcount.trans hzero)
  | fromBatchOutputs =>
    simp only [hkind, bind_ok_iff, unwrap_ok_iff] at hcount
    obtain ⟨r, hr, hsub⟩ := hcount
    obtain ⟨m, hm⟩ := exists_node hsub
    obtain ⟨hmem, hmid⟩ := node_ok hm
    rcases h.produced hstock hsub hm with ⟨-, rfl⟩ | ⟨hbatch, rfl⟩
    · exact Nat.one_ne_zero
    · exact fun hzero => (hfed.handed b hb hkind r hr m hmem hmid hbatch).2
        (List.eq_nil_of_length_eq_zero hzero)

theorem Stood.combos (h : Stood w flow spec) (hs : Sound w) (hstock : Stocked w)
    (hprimed : Primed w) (hl : Ledger w) (hn : n ∈ spec.nodeSpecs) (hbatch : n.batchStrategies ≠ []) (hfed : Fed w spec n)
    (hplaces : db'.places = w.db.places) (hspecs : db'.specs = w.db.specs)
    {slots : List (String × List Input)}
    (hslots : List.Forall₂ (SlotFor db' (spec.nodeDependencyRelations n.id) n) n.batchStrategies slots) :
    (allPossibleInputs slots).length = (rowsOf w.db.places n.id).length := by
  have hcount := h.counted hstock hn hbatch
  rw [subNodeCount_ok_iff (h.nodup hs) hn] at hcount
  obtain ⟨ks, hks, hprod⟩ := countStrategies_sizes hcount
  have hmem : List.Forall₂ (fun b k => b ∈ n.batchStrategies ∧
      spec.strategyCount (spec.subNodeCountAux spec.nodeSpecs.length) n b = .ok k)
      n.batchStrategies ks := (List.forall₂_and_left _ _).mpr ⟨fun _ hb => hb, hks⟩
  have hsizes : ks.map id = slots.map (fun slot => slot.2.length) :=
    map_eq_of_forall₂ (forall₂_compose hmem.flip hslots fun k b slot ⟨hb, hk⟩ hslot =>
      h.size_eq hs hstock hprimed hl hn hfed hb hk hplaces hspecs hslot)
  rw [List.map_id] at hsizes
  have hne : ks ≠ [] := fun hnil => hbatch (by
    rw [hnil] at hks
    exact List.forall₂_nil_right_iff.mp hks)
  rw [length_allPossibleInputs, ← hsizes, hprod, Nat.one_mul]
  refine comboCount_of_dropLast hne fun k hk => ?_
  obtain ⟨b, hb, hcount⟩ := exists_of_forall₂ (forall₂_dropLast hks) hk
  exact h.count_ne_zero hstock hn hfed (List.dropLast_subset _ hb) (hfed.positive b hb) hcount

end Sizes

section Keeping

variable {ids iter : Nat → Uuid} {static : WorkflowInstanceSpec} {entries : List Uuid}
  {out : NodeSpec × List NodeSpec} {f : WorkflowInstance} {outs : List (NodeSpec × List NodeSpec)}
  {p q : Uuid × WorkflowInstanceSpec}

def newly (w w' : World) : List NodeSpec := (handed w').drop (handed w).length

theorem newly_of_append {given : List NodeSpec} (h : handed w' = handed w ++ given) :
    newly w w' = given := by
  rw [newly, h, List.drop_left]

theorem Sound.spec_eq (hs : Sound w) (hp : p ∈ w.db.specs) (hm : m ∈ p.2.nodeSpecs)
    (hq : q ∈ w.db.specs) (hn : n ∈ q.2.nodeSpecs) (hid : m.id = n.id) : p = q ∧ m = n := by
  obtain ⟨f, hf, hfid, hfspec⟩ := Tables.flow_of_specs hp
  obtain ⟨g, hg, hgid, hgspec⟩ := Tables.flow_of_specs hq
  rw [← hfspec] at hm
  rw [← hgspec] at hn
  have hin := WorkflowInstance.spec_mem hm
  have hin' := WorkflowInstance.spec_mem hn
  rw [← hid] at hin'
  have hplan := hs.layout.apart _ (Tables.mem_plans hf) _ (Tables.mem_plans hg) _ hin hin'
  have hflow : f = g := List.inj_on_of_nodup_map hs.keyed.flow_ids hf hg (congrArg Plan.id hplan)
  subst hflow
  refine ⟨Prod.ext (hfid.symm.trans hgid) (hfspec.symm.trans hgspec), ?_⟩
  have hnodup := hs.layout.specs _ (Tables.mem_plans hf)
  rw [WorkflowInstance.plan_ids] at hnodup
  exact List.inj_on_of_nodup_map hnodup hm hn hid

theorem Sound.root_of_spec (hs : Sound w) (hp : p ∈ w.db.specs) (hm : m ∈ p.2.nodeSpecs) {c : Place}
    (hc : c ∈ w.db.places) (hid : c.id = m.id) : c.parent = none ∧ c.flow = p.1 := by
  obtain ⟨f, hf, hfid, hfspec⟩ := Tables.flow_of_specs hp
  rw [← hfspec] at hm
  rw [← hfid]
  refine hs.layout.root_of_id (Tables.mem_plans hf) hc ?_
  rw [hid]
  exact WorkflowInstance.spec_mem hm

theorem Sound.stood (hs : Sound w) (hp : p ∈ w.db.specs) (hm : m ∈ p.2.nodeSpecs)
    (hrows : rowsOf w.db.places m.id ≠ []) : Stood w p.1 p.2 := by
  refine ⟨hp, ?_⟩
  obtain ⟨c, hc⟩ := List.exists_mem_of_ne_nil _ hrows
  obtain ⟨hc, hparent⟩ := mem_rowsOf.mp hc
  obtain ⟨f, hf, hfid, hfspec⟩ := Tables.flow_of_specs hp
  rw [← hfspec] at hm
  refine ⟨c, hc, ?_⟩
  rw [← hfid]
  refine hs.layout.flow_of_home (Tables.mem_plans hf) hc ?_
  rw [Place.home, hparent]
  exact WorkflowInstance.spec_mem hm

-- Each batch node a step hands over is fed, and its stored output slots are no longer those it was
-- handed over with: the save at the end of the step takes effect.
structure Booked (w w' : World) : Prop where
  fed : ∀ p ∈ w.db.specs, ∀ n ∈ p.2.nodeSpecs, n.batchStrategies ≠ [] →
    n.id ∈ (newly w w').map NodeSpec.id → Fed w p.2 n
  stored : ∀ p ∈ w'.db.specs, ∀ m ∈ p.2.nodeSpecs, m.batchStrategies ≠ [] →
    rowsOf w'.db.places m.id ≠ [] → ∀ task ∈ newly w w', task.id = m.id →
      m.outputSlots = task.outputSlots → m.outputSlots = []

theorem rowsOf_ids (db : Tables) (x : Uuid) : (rowsOf db.places x).map Place.id =
    (db.nodes.filter (fun el => el.batchParentId == some x)).map NodeInstance.id := by
  rw [rowsOf, Tables.places, List.filter_map, List.map_map]
  rfl

theorem Debatched.length {relations : List NodeRelation} {tasks : List NodeSpec}
    (h : Debatched ids iter db' relations n tasks) :
    ∃ slots, List.Forall₂ (SlotFor db' relations n) n.batchStrategies slots ∧
      tasks.length = min (rowsOf db'.places n.id).length (allPossibleInputs slots).length := by
  obtain ⟨slots, hslots, subs, hperm, htasks⟩ := h.split
  have hrows : rowsOf db'.places n.id =
      (db'.nodes.filter (fun el => el.batchParentId == some n.id)).map NodeInstance.place := by
    rw [rowsOf, Tables.places, List.filter_map]
    rfl
  refine ⟨slots, hslots, ?_⟩
  rw [← htasks.length_eq, List.length_zip, List.length_map, hperm.length_eq, hrows, List.length_map]

theorem Prepares.slots (h : Prepares ids iter db' static entries n out) :
    (n.batchStrategies = [] ∨ n.id ∉ entries) ∧ out.1.outputSlots = n.outputSlots ∨
      (n.batchStrategies ≠ [] ∧ n ∈ out.2) ∧ ∃ tasks,
        Debatched ids iter db' (static.nodeDependencyRelations n.id) n tasks ∧
          List.Forall₂ (Collects true tasks) n.outputSlots out.1.outputSlots := by
  cases h with
  | waiting h => exact .inl ⟨.inr h, rfl⟩
  | plain n' h hplain hfill =>
    refine .inl ⟨.inl hplain, ?_⟩
    rw [fillRelations_frame hfill]
  | batch tasks slots h hbatch htasks hcollect =>
    exact .inr ⟨⟨hbatch, List.mem_cons_self⟩, tasks, htasks, collectPrepared_ok hcollect⟩

theorem Collects.filled {first : Bool} {tasks : List NodeSpec} {slot slot' : NodeSpecOutputSlot}
    (h : Collects first tasks slot slot') (hne : slot.prepared ≠ []) : slot'.prepared ≠ [] := by
  obtain ⟨news, hnews, hlist⟩ := h.prepared
  rw [hlist]
  cases hnews with
  | nil => simpa using hne
  | cons _ _ => simp

theorem mem_respec {specs : Specs} {id : Uuid} {nodes : List NodeSpec} (h : p ∈ respec specs id nodes) :
    (p.1 = id ∧ p.2.nodeSpecs = nodes) ∨ (p ∈ specs ∧ p.1 ≠ id) := by
  obtain ⟨q, hq, rfl⟩ := List.mem_map.mp h
  by_cases hid : q.1 = id
  · rw [if_pos hid]
    exact .inl ⟨hid, rfl⟩
  · rw [if_neg hid]
    exact .inr ⟨hq, hid⟩

theorem Prepares.primed (h : Prepares ids iter db' static entries n out) (hn : n.Primed) :
    out.1.Primed := by
  have hsame := h.same.2
  rcases h.slots with ⟨-, hslots⟩ | ⟨⟨hbatch, -⟩, tasks, -, hcollects⟩
  · refine ⟨fun hplain => ?_, ?_⟩
    · rw [hslots]
      exact hn.plain (hsame.symm.trans hplain)
    · rw [hslots]
      exact hn.filled
  · refine ⟨fun hplain => absurd (hsame.symm.trans hplain) hbatch, fun slot hslot => ?_⟩
    obtain ⟨slot', hslot', hcollect⟩ := exists_of_forall₂ hcollects hslot
    exact hcollect.filled (hn.filled slot' hslot')

theorem Entry.primed {used : List Uuid} {d : WorkflowDraftSpec} {rows : List NodeInstance}
    (h : Entry used d f rows iter) (hm : m ∈ f.spec.nodeSpecs) : m.Primed := by
  have hone : ∀ slot ∈ m.outputSlots, slot.prepared.length = 1 := by
    intro slot hslot
    obtain ⟨id, hown, -⟩ := h.minted m hm slot hslot
    rw [hown, List.length_singleton]
  exact ⟨fun _ => hone, fun slot hslot hnil => by simpa [hnil] using hone slot hslot⟩

theorem step_primed (hs : Sound w) (h : Primed w) (q : Request) : Primed (step env w q) := by
  intro p hp m hm
  cases step_respecced hs q with
  | scheduled hsched hplaces =>
    cases hsched with
    | still specs_eq handed_eq => exact h p (specs_eq ▸ hp) m hm
    | gave flow outs given gives hgiven handed_eq specs_eq => exact h p (specs_eq ▸ hp) m hm
    | stored flow outs gives handed_eq specs_eq =>
      rw [specs_eq] at hp
      rcases mem_respec hp with ⟨-, hnodes⟩ | ⟨hp, -⟩
      · obtain ⟨entries, db', -, -, houts⟩ := gives.prepares
        rw [hnodes] at hm
        obtain ⟨out, hout, rfl⟩ := List.mem_map.mp hm
        obtain ⟨n, hn, hprepares⟩ := exists_of_forall₂ houts hout
        exact hprepares.primed (h _ gives.spec n hn)
      · exact h p hp m hm
  | entered spec flow rows kept entry hkept inserted handed_eq =>
    rw [inserted.specs_eq, List.mem_append, List.mem_singleton] at hp
    rcases hp with hp | rfl
    · exact h p hp m hm
    · exact entry.primed hm

theorem start_primed (ids : Nat → Uuid) (files : Files) : Primed (World.start ids files) :=
  fun _ hp => absurd hp List.not_mem_nil

theorem Ledger.gave (hl : Ledger w) (hs : Sound w) (hbooked : Booked w w') {given : List NodeSpec}
    (gives : Gives ids iter w.db f outs) (hgiven : given <+: outs.flatMap Prod.snd)
    (hplaces : w'.db.places = w.db.places) (hhanded : handed w' = handed w ++ given)
    (hspecs : w'.db.specs = w.db.specs) : Ledger w' := by
  have hnewly := newly_of_append hhanded
  refine ⟨fun p hp m hm hbatch hid hrows slot hslot => ?_⟩
  have hstored := hbooked.stored p hp m hm hbatch hrows
  rw [hspecs] at hp
  rw [hplaces] at hrows ⊢
  rw [hhanded, List.map_append, List.mem_append] at hid
  rcases hid with hid | hid
  · exact hl.batch p hp m hm hbatch hid hrows slot hslot
  · obtain ⟨task, htask, htid⟩ := List.mem_map.mp hid
    rw [hnewly] at hstored
    cases gives.origin (hgiven.subset htask) with
    | root n hn hnid hslots =>
      obtain ⟨-, rfl⟩ := hs.spec_eq hp hm gives.spec hn (htid.symm.trans hnid)
      have hnil := hstored task htask htid hslots.symm
      rw [hnil] at hslot
      exact absurd hslot List.not_mem_nil
    | sub n hn c hc hcid hparent hdrawn =>
      have hroot := (hs.root_of_spec hp hm hc (hcid.trans htid)).1
      rw [hparent] at hroot
      exact absurd hroot (Option.some_ne_none _)

-- A node the instance `f` scheduled is one of its entries, and of no other instance.
theorem Gives.task_home (h : Gives ids iter w.db f outs) (hs : Sound w) {entries : List Uuid}
    (hlisted : Listed w.db.places f.plan entries (taskIds outs)) (hp : p ∈ w.db.specs)
    (hm : m ∈ p.2.nodeSpecs) (hid : m.id ∈ taskIds outs) : p.1 = f.id ∧ m.id ∈ entries := by
  obtain ⟨c, hc, hcid⟩ := h.seated m.id hid
  obtain ⟨hparent, hflow⟩ := hs.root_of_spec hp hm hc hcid
  have htasks : Tasks w.db.places f.plan entries (taskIds outs) := ⟨hlisted, h.seated⟩
  have hplan := Tables.plan_of_specs h.spec
  rw [← hcid] at hid
  obtain ⟨hhome, hentry, -⟩ := htasks.home hs.layout hplan hc hid
  rw [Layout.home_of_root hparent, hcid] at hentry
  exact ⟨hflow.symm.trans (hs.layout.flow_of_home hplan hc hhome), hentry⟩

theorem Collects.length {tasks : List NodeSpec} {slot slot' : NodeSpecOutputSlot}
    (h : Collects true tasks slot slot') (hne : tasks ≠ []) : slot'.prepared.length = tasks.length := by
  obtain ⟨news, hnews, hlist⟩ := h.prepared
  have hempty : tasks.isEmpty = false := by simp [hne]
  simp [hlist, hempty, hnews.length_eq]

theorem Ledger.respecced (hl : Ledger w) (hs : Sound w) (hstock : Stocked w) (hprimed : Primed w)
    (hbooked : Booked w w')
    (gives : Gives ids iter w.db f outs) (hplaces : w'.db.places = w.db.places)
    (hhanded : handed w' = handed w ++ outs.flatMap Prod.snd)
    (hspecs : w'.db.specs = respec w.db.specs f.id (outs.map Prod.fst)) : Ledger w' := by
  obtain ⟨entries, db', hplaces', hspecs', houts⟩ := gives.prepares
  have hlisted := houts.listed
  rw [hplaces'] at hlisted
  refine ⟨fun p hp m hm hbatch hid hrows slot hslot => ?_⟩
  rw [hspecs] at hp
  rw [hplaces] at hrows ⊢
  rw [hhanded, List.map_append, List.mem_append] at hid
  rcases mem_respec hp with ⟨-, hnodes⟩ | ⟨hp, hne⟩
  · rw [hnodes] at hm
    obtain ⟨out, hout, rfl⟩ := List.mem_map.mp hm
    obtain ⟨n, hn, hprepares⟩ := exists_of_forall₂ houts hout
    rw [hprepares.same.1] at hid hrows ⊢
    have hnbatch : n.batchStrategies ≠ [] := hprepares.same.2 ▸ hbatch
    rcases hprepares.slots with ⟨hidle, hslots⟩ | ⟨⟨-, hself⟩, tasks, hdebatched, hcollects⟩
    · rw [hslots] at hslot
      rcases hid with hid | hid
      · exact hl.batch _ gives.spec n hn hnbatch hid hrows slot hslot
      · have hentry := (gives.task_home hs hlisted gives.spec hn hid).2
        exact absurd hentry (hidle.resolve_left hnbatch)
    · have hmem : n ∈ outs.flatMap Prod.snd := List.mem_flatMap.mpr ⟨out, hout, hself⟩
      have hfed : Fed w f.spec n := by
        refine hbooked.fed _ gives.spec n hn hnbatch ?_
        rw [newly_of_append hhanded]
        exact List.mem_map_of_mem hmem
      obtain ⟨slots, hfor, hlen⟩ := hdebatched.length
      have hcombos := (hs.stood gives.spec hn hrows).combos hs hstock hprimed hl hn hnbatch hfed hplaces'
        hspecs' hfor
      rw [hcombos, hplaces', min_self] at hlen
      obtain ⟨slot', -, hcollect⟩ := exists_of_forall₂ hcollects hslot
      rw [hcollect.length fun hnil => hrows (List.eq_nil_of_length_eq_zero (by simpa [hnil] using hlen.symm)), hlen]
  · rcases hid with hid | hid
    · exact hl.batch p hp m hm hbatch hid hrows slot hslot
    · exact absurd (gives.task_home hs hlisted hp hm hid).1 hne

theorem Ledger.entered (hl : Ledger w) (hknown : Known w) {d : WorkflowDraftSpec}
    {rows kept : List NodeInstance} (entry : Entry w.db.used d f rows w'.ids)
    (hkept : kept = [] ∨ kept = rows) (inserted : Inserted f kept w w')
    (hhanded : handed w' = handed w) : Ledger w' := by
  refine ⟨fun p hp m hm hbatch hid hrows slot hslot => ?_⟩
  rw [inserted.specs_eq, List.mem_append, List.mem_singleton] at hp
  rw [hhanded] at hid
  rcases hp with hp | rfl
  · obtain ⟨g, hg, -, hspec⟩ := Tables.flow_of_specs hp
    have hused : m.id ∈ w.db.used := by
      rw [← hspec] at hm
      exact Tables.spec_mem_used (Tables.mem_plans hg) (WorkflowInstance.spec_mem hm)
    have hsame : rowsOf w'.db.places m.id = rowsOf w.db.places m.id := by
      rw [inserted.rowsOf_eq, entry_subs_nil entry hkept hused]
      simp
    rw [hsame] at hrows ⊢
    exact hl.batch p hp m hm hbatch hid hrows slot hslot
  · obtain ⟨c, hc, hcid⟩ := hknown m.id hid
    have hused := Tables.place_mem_used hc
    rw [hcid] at hused
    exact absurd hused (entry.fresh.2 m.id (WorkflowInstance.spec_mem hm))

theorem step_ledger (hl : Ledger w) (hs : Sound w) (hstock : Stocked w) (hprimed : Primed w)
    (hknown : Known w) (q : Request) (hbooked : Booked w (step env w q)) : Ledger (step env w q) := by
  cases step_respecced hs q with
  | scheduled hsched hplaces =>
    cases hsched with
    | still specs_eq handed_eq =>
      refine ⟨?_⟩
      rw [specs_eq, handed_eq, hplaces]
      exact hl.batch
    | gave flow outs given gives hgiven handed_eq specs_eq =>
      exact hl.gave hs hbooked gives hgiven hplaces handed_eq specs_eq
    | stored flow outs gives handed_eq specs_eq =>
      exact hl.respecced hs hstock hprimed hbooked gives hplaces handed_eq specs_eq
  | entered spec flow rows kept entry hkept inserted handed_eq =>
    exact hl.entered hknown entry hkept inserted handed_eq

end Keeping

end Kuintessence

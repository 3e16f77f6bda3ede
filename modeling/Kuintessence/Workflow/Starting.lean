import Kuintessence.Engine.Stock
import Kuintessence.Workflow.Agreement
import Kuintessence.Workflow.Opening

namespace Kuintessence

open EdgeList Outcome WorkflowInstanceSpec WorkflowService

variable {env : Env} {w w' : World} {f : WorkflowInstance} {n : NodeSpec} {p : Plan} {c : Place}
  {entries tasks : List Uuid} {id x : Uuid}

section Entry

def fillCount (b : BatchStrategy) : Nat :=
  match b.kind with
  | .matchRegex _ fillCount _ => fillCount
  | _ => 0

theorem strategyCount_unfed {spec : WorkflowInstanceSpec} {sub : Uuid → Anyhow Nat}
    {b : BatchStrategy} {k : Nat} (hunfed : spec.nodeDependencyRelations n.id = [])
    (hplain : b.kind ≠ .originalBatch) (h : spec.strategyCount sub n b = .ok k) :
    k = fillCount b ∧ ∀ size, Size b size → size = fillCount b := by
  unfold strategyCount at h
  unfold fillCount Size
  cases hkind : b.kind with
  | originalBatch => exact absurd hkind hplain
  | matchRegex regexToMatch count filler =>
    simp only [hkind, ok.injEq] at h
    exact ⟨h.symm, fun _ hsize => hsize⟩
  | fromBatchOutputs =>
    simp only [hkind, hunfed, List.find?_nil, unwrap] at h
    cases h

theorem combos_unfed {spec : WorkflowInstanceSpec} {count k : Nat}
    (hnodup : (spec.nodeSpecs.map NodeSpec.id).Nodup) (hn : n ∈ spec.nodeSpecs)
    (hbatch : n.batchStrategies ≠ []) (hplain : Plain n.batchStrategies)
    (hunfed : spec.nodeDependencyRelations n.id = [])
    (hcount : spec.subNodeCount n.id = .ok count) (hcombos : Combos n.batchStrategies k) :
    count ≤ k := by
  rw [subNodeCount_ok_iff hnodup hn] at hcount
  have hone : ∀ b ∈ n.batchStrategies,
      spec.strategyCount (spec.subNodeCountAux spec.nodeSpecs.length) n b = .ok (fillCount b) ∧
        ∀ size, Size b size → size = fillCount b := by
    intro b hb
    obtain ⟨k, hk⟩ := countStrategies_ok_inv hcount b hb
    obtain ⟨rfl, hsize⟩ := strategyCount_unfed hunfed (hplain b hb) hk
    exact ⟨hk, hsize⟩
  have hstart : 1 ≤ usizeMax := by decide
  have hprod := (countStrategies_prefix_le (fun b hb => (hone b hb).1) hstart hcount).2
  rw [Nat.one_mul] at hprod
  obtain ⟨sizes, hsizes, rfl⟩ := hcombos
  have hmap : sizes = n.batchStrategies.map fillCount := by
    clear hcount hprod hbatch hplain
    generalize n.batchStrategies = bs at hone hsizes
    induction hsizes with
    | nil => rfl
    | @cons b size bs sizes hsize _ ih =>
      rw [List.map_cons, ← (hone b List.mem_cons_self).2 size hsize,
        ← ih fun b' hb' => hone b' (List.mem_cons_of_mem b hb')]
  rw [hprod, hmap]
  exact prod_le_comboCount fun hnil => hbatch (List.map_eq_nil_iff.mp hnil)

end Entry

section Complete

variable (hl : Layout w.db.plans w.db.places) (hf : f ∈ w.db.flows)
  (hc : c ∈ w.db.places) (hflow : c.flow = f.id)

theorem SubsOf.mem {ps : List Place} {node : Uuid × List BatchStrategy} {l : List Uuid}
    (h : SubsOf ps node l) (hne : node.2 ≠ []) (hc : c ∈ ps) (hparent : c.parent = some node.1) :
    c.id ∈ l := by
  rw [SubsOf, if_neg hne] at h
  obtain ⟨rows, hperm, rfl⟩ := h
  refine List.mem_map_of_mem (hperm.mem_iff.mpr ?_)
  rw [List.mem_filter, beq_iff_eq]
  exact ⟨hc, hparent⟩

theorem SubsOf.length {ps : List Place} {node : Uuid × List BatchStrategy} {l : List Uuid}
    (h : SubsOf ps node l) (hne : node.2 ≠ []) : l.length = (rowsOf ps node.1).length := by
  rw [SubsOf, if_neg hne] at h
  obtain ⟨rows, hperm, rfl⟩ := h
  rw [List.length_map, hperm.length_eq, rowsOf]

include hl hf hc hflow in
theorem exists_home : ∃ n ∈ f.spec.nodeSpecs, n.id = c.home ∧
    (c.id = n.id ∨ n.batchStrategies ≠ [] ∧ c.parent = some n.id) := by
  rcases hl.seat_of (Tables.mem_plans hf) hc hflow with ⟨hnone, hroot⟩ | ⟨⟨x, bs, hparent, hx, hbs⟩, -⟩
  · rw [WorkflowInstance.plan_ids] at hroot
    obtain ⟨n, hn, hid⟩ := List.mem_map.mp hroot
    exact ⟨n, hn, hid.trans (Layout.home_of_root hnone).symm, .inl hid.symm⟩
  · obtain ⟨n, hn, houtline⟩ := List.mem_map.mp hx
    have hid : n.id = x := congrArg Prod.fst houtline
    have hstrategies : n.batchStrategies = bs := congrArg Prod.snd houtline
    refine ⟨n, hn, ?_, .inr ⟨?_, ?_⟩⟩
    · rw [Place.home, hparent, hid]
      rfl
    · rw [hstrategies]
      exact hbs
    · rw [hparent, hid]

include hl hf hc hflow in
theorem stands_complete {ls : List (List Uuid)}
    (hls : List.Forall₂ (Stands w.db.places entries) f.plan.nodes ls) (hout : c.home ∉ entries) :
    c.id ∈ ls.flatten := by
  obtain ⟨n, hn, hid, hself⟩ := exists_home hl hf hc hflow
  have houtline : n.outline ∈ f.plan.nodes := List.mem_map_of_mem hn
  obtain ⟨l, hmem, hstands⟩ := exists_of_forall₂ hls.flip houtline
  change Stands w.db.places entries n.outline l at hstands
  rw [← hid] at hout
  have hnone : n.outline.1 ∉ entries := hout
  rw [Stands, if_neg hnone] at hstands
  obtain ⟨subs, hsubs, rfl⟩ := hstands
  refine List.mem_flatten.mpr ⟨_, hmem, ?_⟩
  rcases hself with hself | ⟨hbatch, hparent⟩
  · rw [hself]
    exact List.mem_cons_self
  · exact List.mem_cons_of_mem _ (hsubs.mem hbatch hc hparent)

include hl hf hc hflow in
theorem Tasks.complete (hstock : Stocked w) (htasks : Tasks w.db.places f.plan entries tasks)
    (hunfed : ∀ x ∈ entries, Unfed f.plan x) (hentry : c.home ∈ entries) : c.id ∈ tasks := by
  obtain ⟨n, hn, hid, hself⟩ := exists_home hl hf hc hflow
  obtain ⟨ls, hls, rfl⟩ := htasks.listed
  have houtline : n.outline ∈ f.plan.nodes := List.mem_map_of_mem hn
  obtain ⟨l, hmem, hlist⟩ := exists_of_forall₂ hls.flip houtline
  change TaskList w.db.places entries n.outline l at hlist
  rw [← hid] at hentry
  have hin : n.outline.1 ∈ entries := hentry
  rw [TaskList, if_pos hin] at hlist
  obtain ⟨subs, k, hsubs, hcombos, rfl⟩ := hlist
  refine List.mem_flatten.mpr ⟨_, hmem, ?_⟩
  rcases hself with hself | ⟨hbatch, hparent⟩
  · rw [hself]
    exact List.mem_cons_self
  · have hids := hl.specs _ (Tables.mem_plans hf)
    rw [WorkflowInstance.plan_ids] at hids
    have hnone : f.spec.nodeDependencyRelations n.id = [] := by
      rw [nodeDependencyRelations, List.filter_eq_nil_iff]
      intro r hr hto
      exact (hunfed n.id hentry).2 r.ends (List.mem_map_of_mem hr) (beq_iff_eq.mp hto)
    have hle := combos_unfed hids hn hbatch (hstock.plain f hf n hn) hnone
      (hstock.counted f hf ⟨c, hc, hflow⟩ n hn hbatch) hcombos
    have hlen := hsubs.length hbatch
    have hall : subs.take k = subs := List.take_of_length_le (by rw [hlen]; exact hle)
    rw [hall]
    exact List.mem_cons_of_mem _ (hsubs.mem hbatch hc hparent)

end Complete

def Begins (f : WorkflowInstance) (n : NodeInstance) : Prop :=
  ∀ r ∈ f.spec.nodeRelations, r.toId ≠ n.place.home

instance (f : WorkflowInstance) (n : NodeInstance) : Decidable (Begins f n) :=
  inferInstanceAs (Decidable (∀ r ∈ f.spec.nodeRelations, r.toId ≠ n.place.home))

structure Launched (id : Uuid) (w : World) : Prop where
  flow : ∀ f ∈ w.db.flows, f.id = id → f.status = .running
  nodes : ∀ f ∈ w.db.flows, f.id = id → ∀ n ∈ w.db.nodes, n.flowInstanceId = id →
    (n.status = .running ↔ Begins f n) ∧ (n.status = .standby ↔ ¬Begins f n)

theorem Startable.unfed_iff (h : Startable id p w) (hl : Layout w.db.plans w.db.places)
    {ls : List (List Uuid)} (he : Entering w.db id f entries ls) {n : NodeInstance}
    (hn : n.place ∈ w.db.places) (hflow : n.flowInstanceId = id) {g : WorkflowInstance}
    (hg : g.plan = p) : n.place.home ∈ entries ↔ Begins g n := by
  have hhome : n.place.home ∈ p.ids := hl.home_mem h.plan_mem hn (hflow.trans h.plan_id.symm)
  have hplan := h.plan_eq hl he
  rw [he.unfed, Unfed, hplan, and_iff_right hhome, ← hg]
  exact List.forall_mem_map

theorem Startable.launched (h : Startable id p w) (hl : Layout w.db.plans w.db.places)
    (hstock : Stocked w) (hstart : Carried w id True w') : Launched id w' := by
  cases hstart with
  | finished rows f ls fs hrows entering hfs turn =>
    obtain ⟨x, -, hx⟩ := h.exists_entry hl entering
    exact absurd hx List.not_mem_nil
  | dispatched rows f entries ls tasks sent fs hrows entering entered htasks hsent hwhole hfs
      turn =>
    refine ⟨(hwhole trivial).2, fun g hg hid n hn hflow => ?_⟩
    obtain ⟨m, hm, hplace, hstatus⟩ := turn.exists_node hn
    have hcell : n.place ∈ w.db.places := hplace ▸ Tables.mem_places hm
    have hgplan : g.plan = p := by
      have hmem := Tables.mem_plans hg
      rw [turn.commit.plans_eq] at hmem
      exact hl.plan_eq hmem h.plan_mem (hid.trans h.plan_id.symm)
    rw [← h.unfed_iff hl entering hcell hflow hgplan]
    obtain ⟨k, hk, hkplan⟩ := flow_of_plan entering.flow_plan
    have hkid : k.id = f.plan.id := congrArg Plan.id hkplan
    have hkflow : n.place.flow = k.id := hflow.trans (entering.flow_id.symm.trans hkid.symm)
    have hstands := entering.stands
    rw [← hkplan] at htasks hstands
    have hmid : m.id = n.place.id := congrArg Place.id hplace
    rw [hmid, overwrite_append, overwrite_append, standing, running, overwrite_same,
      overwrite_same] at hstatus
    by_cases hentry : n.place.home ∈ entries
    · have hunfed : ∀ x ∈ entries, Unfed k.plan x := by
        intro x hx
        rw [hkplan]
        exact (entering.unfed x).mp hx
      rw [if_pos (Tasks.complete hl hk hcell hkflow hstock htasks hunfed hentry)] at hstatus
      rw [hstatus]
      exact ⟨iff_of_true rfl hentry, iff_of_false NodeInstanceStatus.noConfusion (not_not.mpr hentry)⟩
    · have hnot : n.place.id ∉ tasks := fun hmem =>
        hentry (htasks.home hl (Tables.mem_plans hk) hcell hmem).2.1
      rw [if_neg hnot, if_pos (stands_complete hl hk hcell hkflow hstands hentry)] at hstatus
      rw [hstatus]
      exact ⟨iff_of_false NodeInstanceStatus.noConfusion hentry, iff_of_true rfl hentry⟩

def World.restatus (w : World) (status : Uuid → NodeInstanceStatus) : World :=
  { w with db := { w.db with nodes := w.db.nodes.map fun n => { n with status := status n.id } } }

theorem World.restatus_places (w : World) (status : Uuid → NodeInstanceStatus) :
    (w.restatus status).db.places = w.db.places := by
  rw [Tables.places, Tables.places, World.restatus, List.map_map]
  rfl

theorem Stocked.restatus (h : Stocked w) (status : Uuid → NodeInstanceStatus) :
    Stocked (w.restatus status) := by
  refine ⟨h.plain, ?_⟩
  rw [World.restatus_places]
  exact h.counted

theorem started_statuses {ids : Nat → Uuid} (hids : Function.Injective ids) (files : Files)
    {draft : WorkflowDraft} {draftId id : Uuid} {user starter : Option Uuid}
    {before after : List Request} {w w' : World} (status : Uuid → NodeInstanceStatus)
    (hw : run (step env) (World.start ids files) before = w)
    (hdraft : ∀ k, env.draft k draftId = some draft)
    (hfresh : ∀ n ∈ draft.spec.nodeDrafts, ∀ k, ids k ≠ n.externalId)
    (hsubmit : (submitWorkflow draftId env (w.open user)).1 = .ok id)
    (hacyclic : Acyclic draft.spec.edges) (hne : draft.spec.nodeDrafts ≠ [])
    (hw' : run (step env) (step env w (.submit user draftId)) after = w')
    (hok : (Request.handle env (w'.restatus status) (.start starter id)).1 = .ok ()) :
    Launched id (step env (w'.restatus status) (.start starter id)) := by
  have hstart : Sound (World.start ids files) := start_sound hids files
  have hs : Sound w := hw ▸ run_sound hstart before
  have htail : Tail ids w.ids := hw ▸ (run_stepped hstart before).2.2
  have hnext : Sound (step env w (.submit user draftId)) := step_sound hs _
  have hfresh' : ∀ n ∈ draft.spec.nodeDrafts, ∀ k, w.ids k ≠ n.externalId := by
    obtain ⟨k, hk⟩ := htail
    intro n hn j
    rw [hk]
    exact hfresh n hn (k + j)
  obtain ⟨p, hp⟩ := submitted_startable hs hdraft hfresh' hsubmit hacyclic hne
  have hrun : w' = run (step env) (World.start ids files) (before ++ .submit user draftId :: after) := by
    rw [run_append, hw, ← hw']
    rfl
  have hlater : Sound w' := hrun ▸ run_sound hstart _
  have hstock : Stocked w' := hrun ▸ run_stocked hids files _
  have hready : Startable id p w' := hw' ▸ hp.run hnext after
  have hl : Layout (w'.restatus status).db.plans (w'.restatus status).db.places := by
    rw [World.restatus_places]
    exact hlater.layout
  have hready' : Startable id p (w'.restatus status) :=
    ⟨hready.plan_mem, hready.plan_id, hready.acyclic, hready.nodes⟩
  exact hready'.launched hl (hstock.restatus status) (handle_start hl.keyed starter id hok)

section Samples

theorem sampleIds_fresh {d : WorkflowDraft} (h : ∀ n ∈ d.spec.nodeDrafts, n.externalId < 100) :
    ∀ n ∈ d.spec.nodeDrafts, ∀ k, sampleIds k ≠ n.externalId := by
  intro n hn k
  have hlt : n.externalId < 100 + k := Nat.lt_add_right k (h n hn)
  exact (Nat.ne_of_lt hlt).symm

def submittedSample (draft : WorkflowDraft) : World :=
  step (sampleEnv [draft]) newborn (.submit (some 5) 900)

def mixed (id : Uuid) : NodeInstanceStatus := if id = 103 then .running else .error

theorem batched_launches :
    Launched 100 (step (sampleEnv [batched]) ((submittedSample batched).restatus mixed)
      (.start (some 5) 100)) := by
  have hsubmit : (submitWorkflow 900 (sampleEnv [batched]) (newborn.open (some 5))).1 = .ok 100 := by
    decide +kernel
  have hincreasing : ∀ e ∈ batched.spec.edges, e.1 < e.2 ∧ e.2 < 200 := by decide
  have hok : (Request.handle (sampleEnv [batched]) ((submittedSample batched).restatus mixed)
      (.start (some 5) 100)).1 = .ok () := by decide +kernel
  have hbefore : run (step (sampleEnv [batched])) (.start sampleIds sampleFiles) [] = newborn := rfl
  have hafter : run (step (sampleEnv [batched])) (submittedSample batched) [] =
      submittedSample batched := rfl
  exact started_statuses sampleIds_injective sampleFiles mixed hbefore (fun _ => rfl)
    (sampleIds_fresh (by decide)) hsubmit (acyclic_of_increasing hincreasing)
    (List.cons_ne_nil _ _) hafter hok

def submittedEmpty : World := step (sameSecond noNodes) newborn (.submit (some 5) 900)

theorem noNodes_not_launched :
    Acyclic noNodes.spec.edges ∧ (noNodes.spec.nodeDrafts.map NodeDraft.externalId).Nodup ∧
      (submitWorkflow 900 (sameSecond noNodes) (newborn.open (some 5))).1 = .ok 100 ∧
      (Request.handle (sameSecond noNodes) (submittedEmpty.restatus mixed)
        (.start (some 5) 100)).1 = .ok () ∧
      ¬Launched 100 (step (sameSecond noNodes) (submittedEmpty.restatus mixed)
        (.start (some 5) 100)) := by
  have hacyclic : Acyclic noNodes.spec.edges :=
    acyclic_of_increasing fun _ he => absurd he List.not_mem_nil
  have hrun : (submitWorkflow 900 (sameSecond noNodes) (newborn.open (some 5))).1 = .ok 100 ∧
      (Request.handle (sameSecond noNodes) (submittedEmpty.restatus mixed)
        (.start (some 5) 100)).1 = .ok () ∧
      ∃ f ∈ (step (sameSecond noNodes) (submittedEmpty.restatus mixed)
        (.start (some 5) 100)).db.flows, f.id = 100 ∧ f.status ≠ .running := by decide +kernel
  obtain ⟨hsubmit, hok, f, hf, hid, hstatus⟩ := hrun
  exact ⟨hacyclic, List.nodup_nil, hsubmit, hok, fun h => hstatus (h.flow f hf hid)⟩

end Samples

end Kuintessence

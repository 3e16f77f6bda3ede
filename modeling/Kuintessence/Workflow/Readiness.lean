import Kuintessence.Workflow.Completion

namespace Kuintessence

open Effect EdgeList StatusReceiver

variable {env : Env} {db : Tables} {flow : WorkflowInstance} {entries : List Uuid}
  {reported x : Uuid}

def StandsBy (db : Tables) (flow : WorkflowInstance) (x : Uuid) : Prop :=
  ∃ n ∈ db.nodes, n.id = x ∧ n.flowInstanceId = flow.id ∧ n.status = .standby

def Ready (db : Tables) (flow : WorkflowInstance) (x : Uuid) : Prop :=
  StandsBy db flow x ∧ ∀ r ∈ flow.spec.nodeDependencyRelations x,
    ∃ n ∈ db.nodes, n.id = r.fromId ∧ n.status = .finished

def SelectsReady (db : Tables) (flow : WorkflowInstance) (entries : List Uuid) : Prop :=
  (∀ x, x ∈ entries ↔ Ready db flow x) ∧ ((∃ x, StandsBy db flow x) → entries ≠ [])

def ReadyFedBy (db : Tables) (flow : WorkflowInstance) (reported : Uuid) : Prop :=
  ∀ x, Ready db flow x → ∀ r ∈ flow.spec.nodeDependencyRelations x, r.fromId = reported

theorem mem_dependencies {r : NodeRelation} :
    r ∈ flow.spec.nodeDependencyRelations x ↔ r ∈ flow.spec.nodeRelations ∧ r.toId = x := by
  rw [WorkflowInstanceSpec.nodeDependencyRelations, List.mem_filter, beq_iff_eq]

theorem forall_dependencies {P : Uuid → Prop} :
    (∀ r ∈ flow.spec.nodeDependencyRelations x, P r.fromId) ↔
      ∀ e ∈ flow.plan.edges, e.2 = x → P e.1 := by
  simp only [mem_dependencies, and_imp, WorkflowInstance.plan, Plan.edges,
    List.forall_mem_map, NodeRelation.ends]

theorem standsBy_iff : StandsBy db flow x ↔
    ∃ c ∈ cells db.nodes, c.1.id = x ∧ c.1.flow = flow.plan.id ∧ c.2 = .standby :=
  (exists_cells (P := fun c => c.1.id = x ∧ c.1.flow = flow.plan.id ∧ c.2 = .standby)).symm

section Selection

variable (hl : Layout db.plans db.places) (hplan : flow.plan ∈ db.plans)
  (hself : ∃ n ∈ db.nodes, n.id = reported ∧ n.status = .finished)
  (hgate : GateOpen (cells db.nodes) flow.plan.id)
  (hfreed : ∀ x, x ∈ entries ↔ Freed (cells db.nodes) flow.plan reported x)

include hl hself in
theorem StandsBy.ne_reported (h : StandsBy db flow x) : x ≠ reported := by
  rintro rfl
  obtain ⟨n, hn, hid, -, hstandby⟩ := h
  obtain ⟨m, hm, hmid, hfinished⟩ := hself
  rw [hl.keyed.node_eq hn hm (hid.trans hmid.symm), hfinished] at hstandby
  exact NodeInstanceStatus.noConfusion hstandby

include hl hself hfreed in
theorem mem_entries_iff :
    x ∈ entries ↔ StandsBy db flow x ∧
      ∀ r ∈ flow.spec.nodeDependencyRelations x, r.fromId = reported := by
  rw [hfreed, Freed, ← standsBy_iff]
  refine and_congr_right fun hstands => ?_
  rw [forall_dependencies (P := fun y => y = reported)]
  have hne := hstands.ne_reported hl hself
  constructor
  · intro h e he heq
    by_contra hfrom
    exact h e he hfrom (fun hto => hne (heq.symm.trans hto)) heq
  · exact fun h e he hfrom _ heq => hfrom (h e he heq)

include hl hplan hgate in
theorem exists_ready (hacyclic : Acyclic flow.spec.edges) (h : ∃ x, StandsBy db flow x) :
    ∃ x, Ready db flow x := by
  obtain ⟨x, hx, hsource⟩ := exists_source hacyclic h
  refine ⟨x, hx, ?_⟩
  rw [forall_dependencies (P := fun y => ∃ n ∈ db.nodes, n.id = y ∧ n.status = .finished)]
  intro e he heq
  have hend := (hl.ends _ hplan e he).1
  obtain ⟨n, hn, -, hflow, -⟩ := hx
  obtain ⟨c, hc, hid, hcflow, hroot⟩ :=
    hl.rows _ hplan n.place (Tables.mem_places hn) hflow e.1 hend
  obtain ⟨m, hm, rfl⟩ := node_of_place hc
  refine ⟨m, hm, hid, ?_⟩
  refine (hgate m.cell (mem_cells hm) hcflow hroot).resolve_right fun hstandby => ?_
  exact hsource e he heq ⟨m, hm, hid, hcflow, hstandby⟩

include hl hplan hself hgate hfreed in
theorem selectsReady_iff (hacyclic : Acyclic flow.spec.edges) :
    SelectsReady db flow entries ↔ ReadyFedBy db flow reported := by
  constructor
  · intro h x hx
    exact ((mem_entries_iff hl hself hfreed).mp ((h.1 x).mpr hx)).2
  · intro h
    have hiff : ∀ x, x ∈ entries ↔ Ready db flow x := by
      intro x
      rw [mem_entries_iff hl hself hfreed]
      constructor
      · rintro ⟨hstands, honly⟩
        refine ⟨hstands, fun r hr => ?_⟩
        rw [honly r hr]
        exact hself
      · exact fun hx => ⟨hx.1, h x hx⟩
    refine ⟨hiff, fun hsome => ?_⟩
    obtain ⟨x, hx⟩ := exists_ready hl hplan hgate hacyclic hsome
    exact List.ne_nil_of_mem ((hiff x).mpr hx)

end Selection

theorem saved_row {w : World} {status : NodeInstanceStatus}
    (hc : Commit [(reported, status)] [] w.db db) {node : NodeInstance} (hnode : node ∈ w.db.nodes)
    (hid : node.id = reported) : ∃ k ∈ db.nodes, k.id = reported ∧ k.status = status := by
  have hcell : settle [(reported, status)] node.cell ∈ cells db.nodes := by
    rw [hc.cells_eq]
    exact List.mem_map_of_mem (mem_cells hnode)
  rw [settle_singleton, if_pos (show reported = node.cell.1.id from hid.symm)] at hcell
  obtain ⟨k, hk, heq⟩ := List.mem_map.mp hcell
  have hplace : k.place = node.place := congrArg Prod.fst heq
  exact ⟨k, hk, (congrArg Place.id hplace).trans hid, congrArg Prod.snd heq⟩

theorem selectNext_ready_iff {ids : Nat → Uuid} (hids : Function.Injective ids) (files : Files)
    (qs : List Request) {result : TaskResult} (hsuccess : result.status = .success)
    {node : NodeInstance} {w w₁ w₂ : World}
    (hrun : run (step env) (World.start ids files) qs = w)
    (hsave : saveReport result env (w.open none) = (.ok node, w₁))
    (hselect : selectNext result.id env w₁ = (.ok (flow, entries), w₂))
    (hacyclic : Acyclic flow.spec.edges) :
    SelectsReady w₁.db flow entries ↔ ReadyFedBy w₁.db flow result.id := by
  have hsound : Sound w := hrun ▸ run_sound (start_sound hids files) qs
  obtain ⟨hnode, hid, db, hc, hmid⟩ :=
    (wp_of_eq hsave).mp (wp_saveReport hsound.keyed none result)
  rw [hsuccess] at hc
  have hw : w₁.db = db := hmid.db_eq
  have hl : Layout w₁.db.plans w₁.db.places := by
    rw [hw, hc.plans_eq, hc.places]
    exact hsound.layout
  obtain ⟨-, hflow, hof, ⟨n, hn, hnid, hgate⟩, hfreed⟩ :=
    (wp_of_eq hselect).mp (wp_selectNext hmid result.id)
  rw [← hw] at hflow hof hn hgate hfreed
  obtain ⟨m, hm, hmid', hmflow⟩ := hof
  have hplan := Tables.mem_plans hflow
  have hsame : n.place = m.place := hl.place_eq (Tables.mem_places hn) (Tables.mem_places hm)
    (hnid.trans hmid'.symm)
  have hnflow : n.flowInstanceId = flow.plan.id := (congrArg Place.flow hsame).trans hmflow.symm
  rw [hnflow] at hgate
  have hself : ∃ k ∈ w₁.db.nodes, k.id = result.id ∧ k.status = .finished := by
    obtain ⟨k, hk, hkid, hkstatus⟩ := saved_row hc hnode hid
    exact ⟨k, by rw [hw]; exact hk, hkid, hkstatus⟩
  exact selectsReady_iff hl hplan hself hgate hfreed hacyclic

section Samples

instance (db : Tables) (flow : WorkflowInstance) (x : Uuid) : Decidable (StandsBy db flow x) :=
  inferInstanceAs (Decidable (∃ n ∈ db.nodes,
    n.id = x ∧ n.flowInstanceId = flow.id ∧ n.status = .standby))

instance (db : Tables) (flow : WorkflowInstance) (x : Uuid) : Decidable (Ready db flow x) :=
  inferInstanceAs (Decidable (StandsBy db flow x ∧ ∀ r ∈ flow.spec.nodeDependencyRelations x,
    ∃ n ∈ db.nodes, n.id = r.fromId ∧ n.status = .finished))

def success (id : Uuid) : TaskResult := { id := id, status := .success }

def saveSample (draft : WorkflowDraft) (qs : List Request) (id : Uuid) :
    Anyhow NodeInstance × World :=
  saveReport (success id) (sampleEnv [draft]) ((runSample draft qs).open none)

def selectSample (draft : WorkflowDraft) (qs : List Request) (id : Uuid) :
    Anyhow (WorkflowInstance × List Uuid) × World :=
  selectNext id (sampleEnv [draft]) (saveSample draft qs id).2

def started : List Request := [.start (some 5) 100]

theorem chain_selects_ready :
    ∃ flow ∈ (saveSample chain started 101).2.db.flows,
      (selectSample chain started 101).1 = .ok (flow, [103]) ∧
      SelectsReady (saveSample chain started 101).2.db flow [103] := by
  have hnode : ∃ node ∈ (runSample chain started).db.nodes,
      (saveSample chain started 101).1 = .ok node := by decide +kernel
  have hflow : ∃ flow ∈ (saveSample chain started 101).2.db.flows,
      (selectSample chain started 101).1 = .ok (flow, [103]) ∧
      (∀ e ∈ flow.spec.edges, e.1 < e.2 ∧ e.2 < 200) ∧
      ∀ r ∈ flow.spec.nodeRelations, r.fromId = 101 := by decide +kernel
  obtain ⟨node, -, hsave⟩ := hnode
  obtain ⟨flow, hmem, hselect, hedges, hfrom⟩ := hflow
  refine ⟨flow, hmem, hselect, ?_⟩
  unfold selectSample at hselect
  generalize hout : saveSample chain started 101 = out at hsave hselect ⊢
  obtain ⟨o, w₁⟩ := out
  obtain rfl : o = .ok node := hsave
  generalize hsel : selectNext 101 (sampleEnv [chain]) w₁ = sel at hselect
  obtain ⟨o, w₂⟩ := sel
  obtain rfl : o = .ok (flow, [103]) := hselect
  have hfed : ReadyFedBy w₁.db flow 101 := fun x _ r hr => hfrom r (mem_dependencies.mp hr).1
  unfold saveSample runSample at hout
  exact (selectNext_ready_iff sampleIds_injective sampleFiles _ rfl rfl hout hsel
    (acyclic_of_increasing hedges)).mpr hfed

theorem join_leaves_ready :
    ∃ flow ∈ (saveSample join (started ++ [report 101 .success]) 103).2.db.flows,
      (selectSample join (started ++ [report 101 .success]) 103).1 = .ok (flow, []) ∧
      Acyclic flow.spec.edges ∧ (∀ n ∈ flow.spec.nodeSpecs, n.batchStrategies = []) ∧
      ¬SelectsReady (saveSample join (started ++ [report 101 .success]) 103).2.db flow [] := by
  have hrun : ∃ flow ∈ (saveSample join (started ++ [report 101 .success]) 103).2.db.flows,
      (selectSample join (started ++ [report 101 .success]) 103).1 = .ok (flow, []) ∧
      (∀ e ∈ flow.spec.edges, e.1 < e.2 ∧ e.2 < 200) ∧
      (∀ n ∈ flow.spec.nodeSpecs, n.batchStrategies = []) ∧
      Ready (saveSample join (started ++ [report 101 .success]) 103).2.db flow 105 := by
    decide +kernel
  obtain ⟨flow, hmem, hselect, hedges, hbatch, hready⟩ := hrun
  refine ⟨flow, hmem, hselect, acyclic_of_increasing hedges, hbatch, fun h => ?_⟩
  exact List.not_mem_nil ((h.1 105).mpr hready)

end Samples

end Kuintessence

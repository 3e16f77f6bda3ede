import Kuintessence.Engine.Dispatch

namespace Kuintessence

open Effect

variable {ids : Nat → Uuid} {db : Tables} {ns : List Notice} {ms : List NodeMark}
  {fs : List FlowMark} {s t : World} {env : Env}

def Done (ids : Nat → Uuid) (db : Tables) (ns : List Notice) (ms : List NodeMark)
    (fs : List FlowMark) (t : World) : Prop := ∃ db', Commit ms fs db db' ∧ Mid ids db' ns [] [] t

theorem Left.lost (h : Left ids db ns t) : Lost ids db ns [] [] t := ⟨db, .refl db, h⟩

theorem Mid.done (h : Mid ids db ns [] [] t) : Done ids db ns [] [] t := ⟨db, .refl db, h⟩

theorem map_settle_self (hk : db.Keyed) {node : NodeInstance} (hnode : node ∈ db.nodes) :
    (cells db.nodes).map (settle [(node.id, node.status)]) = cells db.nodes := by
  rw [cells, List.map_map]
  refine List.map_congr_left fun row hrow => ?_
  rw [Function.comp_apply, settle_singleton]
  split
  · next hid =>
    rw [hk.node_eq hrow hnode hid.symm]
    rfl
  · rfl

theorem wp_sendTask (h : Mid ids db ns ms fs s) (taskId : Uuid) (command : TaskCommand)
    (clusterId : Uuid) :
    wp (sendTask taskId command clusterId) env (fun _ t => Mid ids db ns ms fs t)
      (Left ids db ns) s := by
  unfold sendTask
  rw [wp_bind]
  exact wp_mono (wp_call h) (fun _ t ht => wp_quiet_note ht fun _ => rfl) (fun _ he => he)

theorem wp_sendNodeStatus (h : Mid ids db ns ms fs s) (id : Uuid) (status : TaskResultStatus) :
    wp (sendNodeStatus id status) env (fun _ t => Mid ids db ns ms fs t) (Left ids db ns) s := by
  unfold sendNodeStatus
  rw [wp_bind]
  exact wp_mono (wp_call h) (fun _ t ht => wp_quiet_note ht fun _ => rfl) (fun _ he => he)

theorem wp_assignAndSend (h : Mid ids db ns [] [] s) (hk : db.Keyed) (taskId : Uuid) :
    wp (assignAndSend taskId) env (fun _ t => Done ids db ns [] [] t) (Lost ids db ns [] []) s := by
  unfold assignAndSend
  rw [wp_bind]
  refine wp_mono (wp_calm keeps_getRandomCluster h) (fun cluster t ht => ?_) (fun _ he => he.lost)
  rw [wp_bind]
  refine wp_mono (wp_getNodeById ht taskId) (fun node u ⟨hu, hnode, _⟩ => ?_) (fun _ he => he.lost)
  have hplace := Tables.mem_places hnode
  rw [wp_bind]
  refine wp_mono (wp_updateNode hu hplace) (fun _ v hv => ?_) (fun _ he => he.lost)
  rw [wp_bind]
  refine wp_mono (wp_saveChanged hv hk) (fun _ w ⟨db', hc, hw⟩ => ?_) (fun _ he => he.lost)
  have hsame : Commit [] [] db db' := by
    have hcells := hc.cells_eq
    rw [List.nil_append] at hcells
    refine ⟨?_, hc.plans_eq, hc.moves⟩
    have hself := map_settle_self hk hnode
    rw [map_settle_nil, hcells]
    exact hself
  exact wp_mono (wp_sendTask hw taskId .start cluster) (fun _ x hx => ⟨db', hsame, hx⟩)
    (fun _ hx => ⟨db', hsame, hx⟩)

theorem wp_sendUsecase (h : Mid ids db ns [] [] s) (hk : db.Keyed) (spec : NodeSpec) :
    wp (sendUsecase spec) env
      (fun _ t => Done ids db (ns ++ [.sent spec.id (cells db.nodes)]) [] [] t)
      (Lost ids db (ns ++ [.sent spec.id (cells db.nodes)]) [] []) s := by
  unfold sendUsecase
  rw [wp_bind]
  refine wp_mono (wp_note h _) (fun _ t ht => ?_) (fun _ he => he)
  cases NodeInstanceKind.from spec.kind with
  | noAction =>
    exact wp_mono (wp_sendNodeStatus ht spec.id .success) (fun _ u hu => hu.done)
      (fun _ hu => hu.lost)
  | softwareUsecaseComputing =>
    change wp (SoftwareComputing.handleUsecase spec) env _ _ t
    unfold SoftwareComputing.handleUsecase
    rw [wp_bind, wp_read, wp_bind]
    refine wp_mono (wp_call ht) (fun _ u hu => ?_) (fun _ hu => hu.lost)
    rw [wp_bind]
    refine wp_mono (wp_lift_mid hu _) (fun _ v ⟨hv, _⟩ => ?_) (fun _ hu => hu.lost)
    exact wp_assignAndSend hv hk spec.id
  | script => exact wp_assignAndSend ht hk spec.id
  | milestone => exact ht.left.lost

def sentAll (cs : List Cell) (tasks : List Uuid) : List Notice := tasks.map (fun x => .sent x cs)

theorem Commit.same_cells {db' : Tables} (h : Commit [] [] db db') :
    cells db'.nodes = cells db.nodes := by rw [h.cells_eq, map_settle_nil]

theorem wp_sendAll (h : Mid ids db ns [] [] s) (hk : db.Keyed) (tasks : List NodeSpec) :
    wp (each sendUsecase tasks) env
      (fun _ t => Done ids db (ns ++ sentAll (cells db.nodes) (tasks.map NodeSpec.id)) [] [] t)
      (fun t => ∃ sent, sent <+: tasks.map NodeSpec.id ∧
        Lost ids db (ns ++ sentAll (cells db.nodes) sent) [] [] t) s := by
  refine wp_each (fun pre t =>
    Done ids db (ns ++ sentAll (cells db.nodes) (pre.map NodeSpec.id)) [] [] t) tasks ?_ ?_
  · rintro pre task post heq t ⟨db', hc, ht⟩
    have hone : ns ++ sentAll (cells db.nodes) (pre.map NodeSpec.id) ++
        [.sent task.id (cells db'.nodes)] =
          ns ++ sentAll (cells db.nodes) ((pre ++ [task]).map NodeSpec.id) := by
      rw [hc.same_cells, List.append_assoc, List.map_append, sentAll, sentAll, List.map_append]
      rfl
    have hstep : wp (sendUsecase task) env _ _ t := wp_sendUsecase ht (hc.keyed hk) task
    rw [hone] at hstep
    refine wp_mono hstep (fun _ u ⟨db'', hc', hu⟩ => ⟨db'', hc.trans hc', hu⟩)
      (fun u ⟨db'', hc', hu⟩ => ⟨(pre ++ [task]).map NodeSpec.id, ?_, db'', hc.trans hc', hu⟩)
    rw [heq]
    refine List.IsPrefix.map _ ⟨post, ?_⟩
    rw [List.append_assoc, List.singleton_append]
  · refine ⟨db, .refl db, ?_⟩
    rw [List.map_nil, sentAll, List.map_nil, List.append_nil]
    exact h

def running (tasks : List Uuid) : List NodeMark := tasks.map (fun id => (id, .running))

def Ran (ids : Nat → Uuid) (db : Tables) (ns : List Notice) (ms : List NodeMark)
    (fs : List FlowMark) (tasks : List Uuid) (t : World) : Prop :=
  ∃ db', Commit (ms ++ running tasks) fs db db' ∧ ∃ sent, sent <+: tasks ∧
    Left ids db' (ns ++ sentAll (cells db'.nodes) sent) t

def RanAll (ids : Nat → Uuid) (db : Tables) (ns : List Notice) (ms : List NodeMark)
    (fs : List FlowMark) (tasks : List Uuid) (t : World) : Prop :=
  ∃ db', Commit (ms ++ running tasks) fs db db' ∧
    Mid ids db' (ns ++ sentAll (cells db'.nodes) tasks) [] [] t

theorem wp_markRunning (h : Mid ids db ns ms fs s) (tasks : List NodeSpec) :
    wp (each (fun (task : NodeSpec) => do
        let node ← getNodeById task.id
        updateNode { node with status := .running }) tasks) env
      (fun _ t => Seated db.places (tasks.map NodeSpec.id) ∧
        Mid ids db ns (ms ++ running (tasks.map NodeSpec.id)) fs t) (Left ids db ns) s := by
  refine wp_mono (wp_eachStatus
    (R := fun task l => (∃ c ∈ db.places, c.id = task.id) ∧ l = [task.id]) .running tasks
    (fun task _ ms t ht => ?_) h) (fun _ t ⟨ls, hls, ht⟩ => ?_) (fun _ he => he)
  · rw [wp_bind]
    refine wp_mono (wp_getNodeById ht task.id) (fun node u ⟨hu, hnode, hid⟩ => ?_) (fun _ he => he)
    have hplace := Tables.mem_places hnode
    refine wp_mono (wp_updateNode hu hplace)
      (fun _ v hv => ⟨[task.id], ⟨⟨node.place, hplace, hid⟩, rfl⟩, ?_⟩) (fun _ he => he)
    rw [List.map_singleton, ← hid]
    exact hv
  · obtain ⟨hrows, hls⟩ := List.forall₂_and_left _ _ |>.mp hls
    refine ⟨List.forall_mem_map.mpr hrows, ?_⟩
    rw [flatten_of_forall₂_singleton hls, ← running] at ht
    exact ht

theorem wp_runTasks (h : Mid ids db ns ms fs s) (hk : db.Keyed) (tasks : List NodeSpec) :
    wp (runTasks tasks) env
      (fun _ t => Seated db.places (tasks.map NodeSpec.id) ∧
        RanAll ids db ns ms fs (tasks.map NodeSpec.id) t)
      (fun t => Left ids db ns t ∨ Seated db.places (tasks.map NodeSpec.id) ∧
        Ran ids db ns ms fs (tasks.map NodeSpec.id) t) s := by
  unfold runTasks
  rw [wp_bind]
  refine wp_mono (wp_markRunning h tasks) (fun _ t ⟨hseated, ht⟩ => ?_) (fun _ he => .inl he)
  rw [wp_bind]
  refine wp_mono (wp_saveChanged ht hk) (fun _ u ⟨db', hc, hu⟩ => ?_) (fun _ he => .inl he)
  refine wp_mono (wp_sendAll hu (hc.keyed hk) tasks) ?_ ?_
  · rintro _ v ⟨db'', hc', hv⟩
    have hcommit := hc.trans hc'
    rw [List.append_nil, List.append_nil] at hcommit
    refine ⟨hseated, db'', hcommit, ?_⟩
    rw [hc'.same_cells]
    exact hv
  · rintro v ⟨sent, hsent, db'', hc', hv⟩
    have hcommit := hc.trans hc'
    rw [List.append_nil, List.append_nil] at hcommit
    refine .inr ⟨hseated, db'', hcommit, sent, hsent, ?_⟩
    rw [hc'.same_cells]
    exact hv

theorem plan_of_prepared {flow : WorkflowInstance} {specs : List NodeSpec}
    (h : List.Forall₂ SameNode flow.spec.nodeSpecs specs) :
    ({ flow with spec := { flow.spec with nodeSpecs := specs } }).plan = flow.plan := by
  have hnodes : specs.map NodeSpec.outline = flow.spec.nodeSpecs.map NodeSpec.outline := by
    generalize flow.spec.nodeSpecs = old at h
    induction h with
    | nil => rfl
    | cons hn _ ih =>
      rw [List.map_cons, List.map_cons, ih, NodeSpec.outline, hn.1, hn.2, NodeSpec.outline]
  rw [WorkflowInstance.plan, WorkflowInstance.plan, hnodes]

theorem wp_dispatch (h : Mid ids db ns ms fs s) (hk : db.Keyed) {flow : WorkflowInstance}
    (hflow : flow.plan ∈ db.plans) (entries : List Uuid) :
    wp (dispatch flow entries) env
      (fun _ t => ∃ tasks, Tasks db.places flow.plan entries tasks ∧
        RanAll ids db ns ms (fs ++ [(flow.id, flow.status)]) tasks t)
      (fun t => Left ids db ns t ∨ ∃ tasks, Tasks db.places flow.plan entries tasks ∧
        Ran ids db ns ms (fs ++ [(flow.id, flow.status)]) tasks t) s := by
  unfold dispatch
  rw [wp_bind]
  refine wp_mono (wp_prepareNodes h flow entries) (fun outs t ⟨ht, houts⟩ => ?_)
    (fun _ he => .inl he)
  have hgrow {db' : Tables} {ms' : List NodeMark} (hc : Commit ms' fs db db') :
      Commit ms' (fs ++ [(flow.id, flow.status)]) db db' :=
    hc.mono fun m hm => List.mem_append_left _ hm
  rw [wp_bind]
  refine wp_mono (wp_runTasks ht hk _) ?_ ?_
  · rintro _ u ⟨hseated, db', hc, hu⟩
    have htasks : Tasks db.places flow.plan entries (taskIds outs) := ⟨houts.listed, hseated⟩
    have hran : ∀ v, Left ids db' (ns ++ sentAll (cells db'.nodes) (taskIds outs)) v →
        Ran ids db ns ms (fs ++ [(flow.id, flow.status)]) (taskIds outs) v :=
      fun v hv => ⟨db', hgrow hc, _, List.prefix_rfl, hv⟩
    have hplan := hflow
    rw [← plan_of_prepared houts.same, ← hc.plans_eq] at hplan
    rw [wp_bind]
    refine wp_mono (wp_updateFlow hu hplan) (fun _ v hv => ?_)
      (fun v hv => .inr ⟨_, htasks, hran v hv⟩)
    rw [wp_bind]
    refine wp_mono (wp_saveChanged hv (hc.keyed hk)) (fun _ w ⟨db'', hc', hw⟩ => ?_)
      (fun v hv => .inr ⟨_, htasks, hran v hv⟩)
    have hcommit := hc.trans hc'
    rw [List.append_nil] at hcommit
    refine ⟨_, htasks, db'', hcommit, ?_⟩
    rw [hc'.cells_eq, map_settle_nil]
    exact hw
  · rintro u (hu | ⟨hseated, db', hc, hu⟩)
    · exact .inl hu
    · exact .inr ⟨_, ⟨houts.listed, hseated⟩, db', hgrow hc, hu⟩

theorem wp_finish (h : Mid ids db ns ms fs s) (hk : db.Keyed) {flow : WorkflowInstance}
    (hflow : flow.plan ∈ db.plans) :
    wp (finish flow) env
      (fun _ t => ∃ db', Commit ms (fs ++ [(flow.id, .finished)]) db db' ∧
        Mid ids db' (ns ++ [.finished flow.id (cells db'.nodes)]) [] [] t)
      (Left ids db ns) s := by
  have hplan : ({ flow with status := .finished } : WorkflowInstance).plan ∈ db.plans := hflow
  unfold finish
  rw [wp_bind]
  refine wp_mono (wp_updateFlow h hplan) (fun _ t ht => ?_) (fun _ he => he)
  rw [wp_bind]
  refine wp_mono (wp_saveChanged ht hk) (fun _ u ⟨db', hc, hu⟩ => ?_) (fun _ he => he)
  exact wp_mono (wp_note hu _) (fun _ v hv => ⟨db', hc, hv⟩) (fun _ he => he)

end Kuintessence

import Kuintessence.Engine.Sending

namespace Kuintessence

open Effect

variable {ids : Nat → Uuid} {db db' : Tables} {ns : List Notice} {ms ms' : List NodeMark}
  {fs fs' : List FlowMark} {news : List Cell → List Notice} {s t : World} {env : Env}

def After (ids : Nat → Uuid) (db : Tables) (ns : List Notice) (ms : List NodeMark)
    (fs : List FlowMark) (news : List Cell → List Notice) (t : World) : Prop :=
  ∃ db', Commit ms fs db db' ∧ Left ids db' (ns ++ news (cells db'.nodes)) t

def Between (ids : Nat → Uuid) (db : Tables) (ns : List Notice) (ms : List NodeMark)
    (fs : List FlowMark) (news : List Cell → List Notice) (t : World) : Prop :=
  ∃ db', Commit ms fs db db' ∧ Mid ids db' (ns ++ news (cells db'.nodes)) [] [] t

def silent : List Cell → List Notice := fun _ => []

theorem Between.after (h : Between ids db ns ms fs news t) : After ids db ns ms fs news t := by
  obtain ⟨db', hc, ht⟩ := h
  exact ⟨db', hc, ht.left⟩

theorem After.trans (hc : Commit ms fs db db') (h : After ids db' ns ms' fs' news t) :
    After ids db ns (ms ++ ms') (fs ++ fs') news t := by
  obtain ⟨db'', hc', ht⟩ := h
  exact ⟨db'', hc.trans hc', ht⟩

theorem Between.flowIs {id : Uuid} {status : WorkflowInstanceStatus}
    (h : Between ids s.db ns ms fs news t) (hs : FlowIs id status s)
    (hfs : ∀ m ∈ fs, m.1 = id → m.2 = status) : FlowIs id status t := by
  obtain ⟨db', hc, ht⟩ := h
  rw [← ht.db_eq] at hc
  exact hc.flowIs hs hfs

theorem Left.after (h : Left ids db ns t) : After ids db ns [] [] silent t :=
  ⟨db, .refl db, by rw [silent, List.append_nil]; exact h⟩

theorem Left.commit (h : Left ids db' ns t) (hc : Commit ms fs db db') :
    After ids db ns ms fs silent t := ⟨db', hc, by rw [silent, List.append_nil]; exact h⟩

theorem wp_between {α : Type} {m : Svc α} (h : Between ids db ns ms fs news s)
    (hm : ∀ db' ns', Mid ids db' ns' [] [] s → wp m env (fun _ t => Mid ids db' ns' [] [] t)
      (Left ids db' ns') s) :
    wp m env (fun _ t => Between ids db ns ms fs news t) (After ids db ns ms fs news) s := by
  obtain ⟨db', hc, hs⟩ := h
  exact wp_mono (hm db' _ hs) (fun _ t ht => ⟨db', hc, ht⟩) (fun _ ht => ⟨db', hc, ht⟩)

theorem wp_save_between (h : Between ids db ns ms fs news s) (hk : db.Keyed) :
    wp saveChanged env (fun _ t => Between ids db ns ms fs news t) (After ids db ns ms fs news) s := by
  obtain ⟨db', hc, hs⟩ := h
  refine wp_mono (wp_saveChanged hs (hc.keyed hk)) (fun _ t ⟨db'', hc', ht⟩ => ?_)
    (fun _ ht => ⟨db', hc, ht⟩)
  have hcommit := hc.trans hc'
  rw [List.append_nil, List.append_nil] at hcommit
  refine ⟨db'', hcommit, ?_⟩
  rw [hc'.same_cells]
  exact ht

section Schedule

def Finishing (ids : Nat → Uuid) (db : Tables) (ns : List Notice) (ms : List NodeMark)
    (fs : List FlowMark) (flow : Uuid) (t : World) : Prop :=
  Between ids db ns ms (fs ++ [(flow, .finished)]) (fun cs => [.finished flow cs]) t

theorem wp_carry (h : Mid ids db ns ms fs s) (hk : db.Keyed) {flow : WorkflowInstance}
    (hflow : flow.plan ∈ db.plans) (entries : List Uuid) :
    wp (if entries.isEmpty then finish flow else dispatch flow entries) env
      (fun _ t => (entries = [] ∧ Finishing ids db ns ms fs flow.id t) ∨
        (entries ≠ [] ∧ ∃ tasks, Tasks db.places flow.plan entries tasks ∧
          Between ids db ns (ms ++ running tasks) (fs ++ [(flow.id, flow.status)])
            (fun cs => sentAll cs tasks) t))
      (fun t => Left ids db ns t ∨ (entries ≠ [] ∧ ∃ tasks, Tasks db.places flow.plan entries tasks ∧
        ∃ sent, sent <+: tasks ∧ After ids db ns (ms ++ running tasks)
          (fs ++ [(flow.id, flow.status)]) (fun cs => sentAll cs sent) t)) s := by
  split
  · next hnil =>
    rw [List.isEmpty_iff] at hnil
    exact wp_mono (wp_finish h hk hflow) (fun _ t ht => .inl ⟨hnil, ht⟩) (fun _ ht => .inl ht)
  · next hne =>
    rw [List.isEmpty_iff] at hne
    refine wp_mono (wp_dispatch h hk hflow entries) (fun _ t ht => .inr ⟨hne, ht⟩) ?_
    rintro t (ht | ⟨tasks, htasks, db', hc, sent, hsent, ht⟩)
    · exact .inl ht
    · exact .inr ⟨hne, tasks, htasks, sent, hsent, db', hc, ht⟩

structure Selected (db : Tables) (reported : Uuid) (flow : WorkflowInstance)
    (entries : List Uuid) : Prop where
  flow_mem : flow ∈ db.flows
  reporter : ∃ node ∈ db.nodes, node.id = reported ∧ flow.id = node.flowInstanceId
  gate : ∃ node ∈ db.nodes, node.id = reported ∧ GateOpen (cells db.nodes) node.flowInstanceId
  freed : ∀ id, id ∈ entries ↔ Freed (cells db.nodes) flow.plan reported id

theorem wp_scheduleAfter (h : Mid ids db ns [] [] s) (hk : db.Keyed) (reported : Uuid) :
    wp (scheduleNextNodes (.nodeInstanceId reported)) env
      (fun _ t => ∃ flow entries, Selected db reported flow entries ∧
        ((entries = [] ∧ Finishing ids db ns [] [] flow.id t) ∨
          (entries ≠ [] ∧ ∃ tasks, Tasks db.places flow.plan entries tasks ∧
            Between ids db ns (running tasks) [(flow.id, flow.status)]
              (fun cs => sentAll cs tasks) t)))
      (fun t => Left ids db ns t ∨ ∃ flow entries, Selected db reported flow entries ∧
        entries ≠ [] ∧ ∃ tasks, Tasks db.places flow.plan entries tasks ∧
          ∃ sent, sent <+: tasks ∧ After ids db ns (running tasks) [(flow.id, flow.status)]
            (fun cs => sentAll cs sent) t) s := by
  unfold scheduleNextNodes
  rw [wp_bind]
  refine wp_mono (wp_selectNext h reported)
    (fun sel t ⟨ht, hflow, hof, hgate, hfreed⟩ => ?_) (fun _ ht => .inl ht)
  have hsel : Selected db reported sel.1 sel.2 := ⟨hflow, hof, hgate, hfreed⟩
  refine wp_mono (wp_carry ht hk (Tables.mem_plans hflow) sel.2) (fun _ u hu => ⟨_, _, hsel, hu⟩) ?_
  rintro u (hu | ⟨hne, hu⟩)
  · exact .inl hu
  · exact .inr ⟨_, _, hsel, hne, hu⟩

def standing (ls : List (List Uuid)) : List NodeMark :=
  ls.flatten.map (fun id => (id, .standby))

structure Entering (db : Tables) (id : Uuid) (flow : WorkflowInstance) (entries : List Uuid)
    (ls : List (List Uuid)) : Prop where
  flow_plan : flow.plan ∈ db.plans
  flow_id : flow.id = id
  status : flow.status = .running
  unfed : ∀ x, x ∈ entries ↔ Unfed flow.plan x
  stands : List.Forall₂ (Stands db.places entries) flow.plan.nodes ls

theorem wp_scheduleFrom (h : Mid ids db ns [] [] s) (hk : db.Keyed) (id : Uuid) :
    wp (scheduleNextNodes (.workflowInstanceId id)) env
      (fun _ t => ∃ flow entries ls, Entering db id flow entries ls ∧
        ((entries = [] ∧ After ids db ns (standing ls) [(id, .running), (id, .finished)]
            (fun cs => [.finished id cs]) t) ∨
          (entries ≠ [] ∧ ∃ tasks, Tasks db.places flow.plan entries tasks ∧
            After ids db ns (standing ls ++ running tasks) [(id, .running), (id, flow.status)]
              (fun cs => sentAll cs tasks) t ∧ FlowIs id .running t)))
      (fun t => After ids db ns [] [(id, .running)] silent t ∨
        ∃ flow entries ls, Entering db id flow entries ls ∧ entries ≠ [] ∧
          ∃ tasks, Tasks db.places flow.plan entries tasks ∧ ∃ sent, sent <+: tasks ∧
            After ids db ns (standing ls ++ running tasks) [(id, .running), (id, flow.status)]
              (fun cs => sentAll cs sent) t) s := by
  unfold scheduleNextNodes
  rw [wp_bind]
  refine wp_mono (wp_selectFirst h hk id) ?_ ?_
  · rintro sel t ⟨db', hc, hplan, hid, hstatus, hunfed, ls, hls, hrunning, ht⟩
    obtain rfl := ht.db_eq
    have hent : Entering db id sel.1 sel.2 ls := ⟨hplan, hid, hstatus, hunfed, hls⟩
    have hplan' := hplan
    rw [← hc.plans_eq] at hplan'
    refine wp_mono (wp_carry ht (hc.keyed hk) hplan' sel.2) ?_ ?_
    · rintro _ u (⟨hnil, hu⟩ | ⟨hne, tasks, htasks, hu⟩)
      · refine ⟨_, _, _, hent, .inl ⟨hnil, ?_⟩⟩
        have hafter := hu.after.trans hc
        rw [hid] at hafter
        exact hafter
      · rw [hc.places] at htasks
        have hstill : FlowIs id .running u := hu.flowIs hrunning fun m hm _ => by
          rw [List.mem_singleton.mp hm, hstatus]
        refine ⟨_, _, _, hent, .inr ⟨hne, tasks, htasks, ?_, hstill⟩⟩
        have hafter := hu.after.trans hc
        rw [hid] at hafter
        exact hafter
    · rintro u (hu | ⟨hne, tasks, htasks, sent, hsent, hu⟩)
      · exact .inl (hu.commit hc)
      · rw [hc.places] at htasks
        refine .inr ⟨_, _, _, hent, hne, tasks, htasks, sent, hsent, ?_⟩
        have hafter := hu.trans hc
        rw [hid] at hafter
        exact hafter
  · rintro t ⟨db', hc, ht⟩
    exact .inl (ht.commit hc)

end Schedule

end Kuintessence

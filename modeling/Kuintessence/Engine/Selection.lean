import Kuintessence.Engine.Session

namespace Kuintessence

section Adjacency

open Assoc

theorem get_foldl_zero (nodeIds : List Uuid) (m : List (Uuid × Int)) (id : Uuid) :
    get (nodeIds.foldl (fun m id => insert m id 0) m) id =
      if id ∈ nodeIds then some 0 else get m id := by
  induction nodeIds generalizing m with
  | nil => simp
  | cons n ns ih =>
    rw [List.foldl_cons, ih, get_insert]
    by_cases hn : id = n
    · simp [hn]
    · simp [hn]

theorem get_foldl_count (deps : List (Uuid × Uuid)) {m : List (Uuid × Int)}
    (hm : ∀ k v, get m k = some v → 0 ≤ v) (id : Uuid) :
    get (deps.foldl (fun m d => insert m d.2 ((get m d.2).getD 0 + 1)) m) id = some 0 ↔
      get m id = some 0 ∧ ∀ d ∈ deps, d.2 ≠ id := by
  induction deps generalizing m with
  | nil => simp
  | cons d ds ih =>
    have hcount : 0 ≤ (get m d.2).getD 0 := by
      cases hd : get m d.2 with
      | none => simp
      | some v => simpa using hm d.2 v hd
    rw [List.foldl_cons, ih]
    · rw [get_insert, List.forall_mem_cons]
      by_cases hid : id = d.2
      · subst hid
        rw [if_pos rfl]
        constructor
        · rintro ⟨hzero, -⟩
          rw [Option.some.injEq] at hzero
          omega
        · rintro ⟨-, hne, -⟩
          exact absurd rfl hne
      · rw [if_neg hid]
        exact and_congr_right fun _ => (and_iff_right (Ne.symm hid)).symm
    · intro k v hk
      rw [get_insert] at hk
      split at hk
      · rw [Option.some.injEq] at hk
        omega
      · exact hm k v hk

theorem nodup_keys_adjacencyMap (nodeIds : List Uuid) (deps : List (Uuid × Uuid)) :
    (keys (adjacencyMap nodeIds deps)).Nodup :=
  nodup_keys_foldl (fun _ _ h => nodup_keys_insert h _ _) deps
    (nodup_keys_foldl (fun _ _ h => nodup_keys_insert h _ _) nodeIds (by simp))

theorem mem_findEntryNodesIds (iter : Order (Uuid × Int)) (nodeIds : List Uuid)
    (deps : List (Uuid × Uuid)) (id : Uuid) :
    id ∈ findEntryNodesIds iter nodeIds deps ↔ id ∈ nodeIds ∧ ∀ d ∈ deps, d.2 ≠ id := by
  have hzero : ∀ k v, get (nodeIds.foldl (fun m id => insert m id (0 : Int)) []) k = some v →
      0 ≤ v := by
    intro k v hk
    rw [get_foldl_zero] at hk
    split at hk
    · rw [Option.some.injEq] at hk
      omega
    · exact absurd hk (Option.some_ne_none v).symm
  have hmem : id ∈ findEntryNodesIds iter nodeIds deps ↔
      get (adjacencyMap nodeIds deps) id = some 0 := by
    rw [get_eq_some_iff (nodup_keys_adjacencyMap nodeIds deps)]
    simp only [findEntryNodesIds, List.mem_map, List.mem_filter, Order.mem_on, beq_iff_eq,
      Prod.exists, exists_and_right, exists_eq_right]
  rw [hmem, adjacencyMap, get_foldl_count deps hzero, get_foldl_zero]
  refine and_congr_left fun _ => ?_
  split
  · next hin => simp [hin]
  · next hout => simp [hout, Assoc.get]

end Adjacency

open Effect

def Unfed (p : Plan) (id : Uuid) : Prop := id ∈ p.ids ∧ ∀ e ∈ p.edges, e.2 ≠ id

def Freed (cs : List Cell) (p : Plan) (reported id : Uuid) : Prop :=
  (∃ c ∈ cs, c.1.id = id ∧ c.1.flow = p.id ∧ c.2 = .standby) ∧
    ∀ e ∈ p.edges, e.1 ≠ reported → e.2 ≠ reported → e.2 ≠ id

variable {α : Type} {ids : Nat → Uuid} {db : Tables} {ns : List Notice} {ms : List NodeMark}
  {fs : List FlowMark} {s t : World} {env : Env}

theorem wp_selectNext (h : Mid ids db ns ms fs s) (nodeId : Uuid) :
    wp (selectNext nodeId) env
      (fun sel t => Mid ids db ns ms fs t ∧ sel.1 ∈ db.flows ∧
        (∃ node ∈ db.nodes, node.id = nodeId ∧ sel.1.id = node.flowInstanceId) ∧
        (∃ node ∈ db.nodes, node.id = nodeId ∧ GateOpen (cells db.nodes) node.flowInstanceId) ∧
        ∀ id, id ∈ sel.2 ↔ Freed (cells db.nodes) sel.1.plan nodeId id)
      (Left ids db ns) s := by
  unfold selectNext
  rw [wp_bind, wp_read, wp_bind]
  refine wp_mono (wp_isAllSame h nodeId) (fun success t ⟨ht, node, hnode, hid, hgate⟩ => ?_)
    (fun _ he => he)
  cases success with
  | false => exact ht.left
  | true =>
    rw [if_pos rfl, wp_bind]
    refine wp_mono (wp_getFlowByNodeId ht nodeId) (fun flow u ⟨hu, hflow, hof⟩ => ?_)
      (fun _ he => he)
    rw [wp_bind]
    refine wp_mono (wp_selectNodes hu _) (fun rows v ⟨hv, hrows⟩ => ?_) (fun _ he => he)
    rw [wp_bind, wp_get, wp_pure]
    refine ⟨hv, hflow, hof, ⟨node, hnode, hid, hgate.mp rfl⟩, fun id => ?_⟩
    rw [mem_findEntryNodesIds, Freed, exists_cells]
    refine and_congr ?_ ?_
    · simp only [List.mem_map, hrows.mem_iff, List.mem_filter, Bool.and_eq_true, beq_iff_eq]
      constructor
      · rintro ⟨row, ⟨hrow, hf, hs⟩, hrid⟩
        exact ⟨row, hrow, hrid, hf, hs⟩
      · rintro ⟨row, hrow, hrid, hf, hs⟩
        exact ⟨row, ⟨hrow, hf, hs⟩, hrid⟩
    · simp only [WorkflowInstance.plan, Plan.edges, List.forall_mem_map,
        List.mem_filter, Bool.and_eq_true, bne_iff_ne, and_imp, NodeRelation.ends]

theorem wp_eachStatus {f : α → Svc Unit} {R : α → List Uuid → Prop}
    (status : NodeInstanceStatus) (xs : List α)
    (hf : ∀ x ∈ xs, ∀ ms t, Mid ids db ns ms fs t → wp (f x) env
      (fun _ u => ∃ l, R x l ∧ Mid ids db ns (ms ++ l.map (fun id => (id, status))) fs u)
      (Left ids db ns) t)
    (h : Mid ids db ns ms fs s) :
    wp (each f xs) env (fun _ t => ∃ ls, List.Forall₂ R xs ls ∧
      Mid ids db ns (ms ++ ls.flatten.map (fun id => (id, status))) fs t) (Left ids db ns) s := by
  refine wp_each (fun pre t => ∃ ls, List.Forall₂ R pre ls ∧
    Mid ids db ns (ms ++ ls.flatten.map (fun id => (id, status))) fs t) xs ?_ ⟨[], .nil, ?_⟩
  · rintro pre x post heq t ⟨ls, hls, ht⟩
    have hx : x ∈ xs := by
      rw [heq]
      exact List.mem_append_right _ List.mem_cons_self
    refine wp_mono (hf x hx _ t ht) (fun _ u ⟨l, hl, hu⟩ => ?_) (fun _ he => he)
    refine ⟨ls ++ [l], List.rel_append hls (.cons hl .nil), ?_⟩
    rw [List.append_assoc, ← List.map_append] at hu
    rw [List.flatten_append, List.flatten_singleton]
    exact hu
  · simpa using h

theorem flatten_of_forall₂_singleton {f : α → Uuid} {xs : List α} {ls : List (List Uuid)}
    (h : List.Forall₂ (fun x l => l = [f x]) xs ls) : ls.flatten = xs.map f := by
  induction h with
  | nil => rfl
  | cons hx _ ih => rw [List.flatten_cons, ih, hx, List.map_cons, List.singleton_append]

theorem wp_setAll (status : NodeInstanceStatus) {rows : List NodeInstance}
    (hrows : ∀ row ∈ rows, row ∈ db.nodes) (h : Mid ids db ns ms fs s) :
    wp (each (fun row => updateNode { row with status := status }) rows) env
      (fun _ t => Mid ids db ns (ms ++ (rows.map NodeInstance.id).map (fun id => (id, status))) fs t)
      (Left ids db ns) s := by
  refine wp_mono (wp_eachStatus (R := fun row l => l = [row.id]) status rows
    (fun row hrow ms t ht => ?_) h) (fun _ t ⟨ls, hls, ht⟩ => ?_) (fun _ he => he)
  · have hplace := Tables.mem_places (hrows row hrow)
    exact wp_mono (wp_updateNode ht hplace) (fun _ u hu => ⟨[row.id], rfl, hu⟩) (fun _ he => he)
  · rw [flatten_of_forall₂_singleton hls] at ht
    exact ht

def Lost (ids : Nat → Uuid) (db : Tables) (ns : List Notice) (ms : List NodeMark)
    (fs : List FlowMark) (t : World) : Prop := ∃ db', Commit ms fs db db' ∧ Left ids db' ns t

def Belongs (ps : List Place) (x id : Uuid) : Prop :=
  id = x ∨ ∃ p ∈ ps, p.id = id ∧ p.parent = some x

def SubsOf (ps : List Place) (node : Uuid × List BatchStrategy) (l : List Uuid) : Prop :=
  if node.2 = [] then l = [] else
    ∃ rows : List Place, rows.Perm (ps.filter (fun p => p.parent == some node.1)) ∧
      l = rows.map Place.id

theorem SubsOf.belongs {ps : List Place} {node : Uuid × List BatchStrategy} {l : List Uuid}
    {id : Uuid} (h : SubsOf ps node l) (hid : id ∈ l) : Belongs ps node.1 id := by
  unfold SubsOf at h
  split at h
  · rw [h] at hid
    exact absurd hid List.not_mem_nil
  · obtain ⟨rows, hperm, rfl⟩ := h
    obtain ⟨p, hp, rfl⟩ := List.mem_map.mp hid
    rw [hperm.mem_iff, List.mem_filter, beq_iff_eq] at hp
    exact .inr ⟨p, hp.1, rfl, hp.2⟩

theorem subsOf_plain {ps : List Place} {node : Uuid × List BatchStrategy} (h : node.2 = []) :
    SubsOf ps node [] := by
  rw [SubsOf, if_pos h]

theorem subsOf_rows {nodes rows : List NodeInstance} {node : Uuid × List BatchStrategy}
    (hne : node.2 ≠ []) (h : rows.Perm (nodes.filter (fun el => el.batchParentId == some node.1))) :
    SubsOf (nodes.map NodeInstance.place) node (rows.map NodeInstance.id) := by
  rw [SubsOf, if_neg hne]
  refine ⟨rows.map NodeInstance.place, ?_, ?_⟩
  · have hmap := h.map NodeInstance.place
    rw [List.filter_map]
    exact hmap
  · rw [List.map_map]
    rfl

def Stands (ps : List Place) (entries : List Uuid) (node : Uuid × List BatchStrategy)
    (l : List Uuid) : Prop :=
  if node.1 ∈ entries then l = [] else ∃ subs, SubsOf ps node subs ∧ l = node.1 :: subs

theorem stands_entry {ps : List Place} {entries : List Uuid} {node : Uuid × List BatchStrategy}
    (h : node.1 ∈ entries) : Stands ps entries node [] := by
  rw [Stands, if_pos h]

theorem stands_waiting {ps : List Place} {entries subs : List Uuid}
    {node : Uuid × List BatchStrategy} (h : node.1 ∉ entries) (hsubs : SubsOf ps node subs) :
    Stands ps entries node (node.1 :: subs) := by
  rw [Stands, if_neg h]
  exact ⟨subs, hsubs, rfl⟩

theorem wp_standByNode (h : Mid ids db ns ms fs s) (entries : List Uuid) (spec : NodeSpec) :
    wp (standByNode entries spec) env
      (fun _ t => ∃ l, Stands db.places entries spec.outline l ∧
        Mid ids db ns (ms ++ l.map (fun id => (id, .standby))) fs t) (Left ids db ns) s := by
  unfold standByNode
  split
  · next hin =>
    exact ⟨[], stands_entry (List.contains_iff_mem.mp hin), by simpa using h⟩
  · next hout =>
    rw [List.contains_iff_mem] at hout
    rw [wp_bind]
    refine wp_mono (wp_getNodeById h spec.id) (fun node t ⟨ht, hnode, hid⟩ => ?_) (fun _ he => he)
    have hplace := Tables.mem_places hnode
    rw [wp_bind]
    refine wp_mono (wp_updateNode ht hplace) (fun _ u hu => ?_) (fun _ he => he)
    split
    · next hplain =>
      refine ⟨[spec.id], stands_waiting hout (subsOf_plain (List.isEmpty_iff.mp hplain)), ?_⟩
      rw [List.map_singleton, ← hid]
      exact hu
    · next hbatch =>
      rw [List.isEmpty_iff] at hbatch
      rw [wp_bind]
      refine wp_mono (wp_selectNodes hu _) (fun subs v ⟨hv, hperm⟩ => ?_) (fun _ he => he)
      have hsubs : ∀ sub ∈ subs, sub ∈ db.nodes := fun sub hsub =>
        (List.mem_filter.mp (hperm.mem_iff.mp hsub)).1
      refine wp_mono (wp_setAll .standby hsubs hv) (fun _ w hw => ?_) (fun _ he => he)
      have hstands : Stands db.places entries spec.outline _ :=
        stands_waiting hout (subsOf_rows hbatch hperm)
      refine ⟨spec.id :: subs.map NodeInstance.id, hstands, ?_⟩
      rw [List.append_assoc] at hw
      rw [List.map_cons, ← hid]
      exact hw

theorem wp_selectFirst (h : Mid ids db ns [] [] s) (hk : db.Keyed) (id : Uuid) :
    wp (selectFirst id) env
      (fun sel t => ∃ db', Commit [] [(id, .running)] db db' ∧ sel.1.plan ∈ db.plans ∧
        sel.1.id = id ∧ sel.1.status = .running ∧ (∀ x, x ∈ sel.2 ↔ Unfed sel.1.plan x) ∧
        ∃ ls, List.Forall₂ (Stands db.places sel.2) sel.1.plan.nodes ls ∧ FlowIs id .running t ∧
          Mid ids db' ns (ls.flatten.map (fun x => (x, .standby))) [] t)
      (Lost ids db ns [] [(id, .running)]) s := by
  unfold selectFirst
  rw [wp_bind, wp_read, wp_bind]
  have hzero : ∀ t, Left ids db ns t → Lost ids db ns [] [(id, .running)] t :=
    fun t ht => ⟨db, (Commit.refl db).mono (by simp), ht⟩
  refine wp_mono (wp_getFlowById h id) (fun flow t ⟨ht, hflow, hid⟩ => ?_) hzero
  have hplan := Tables.mem_plans hflow
  rw [wp_bind]
  refine wp_mono (wp_updateFlow_last ht hplan) (fun _ u ⟨hu, hlast⟩ => ?_) hzero
  rw [wp_bind]
  refine wp_mono (wp_save hu.canDrop) (fun _ v hsaved => ?_) (fun v hv => hzero v (.of_kept hu hv))
  obtain ⟨hcommit, hv⟩ := hsaved.commit hu hk
  have hrunning : FlowIs id .running v := by
    have hkeyed := hk
    rw [← hu.db_eq] at hflow hkeyed
    rw [FlowIs, ← hid]
    exact hsaved.status_of_lasts hlast hkeyed hflow rfl rfl
  generalize v.db = db' at hcommit hv
  have hdb : v.db = db' := hv.db_eq
  change Commit [] [(flow.id, .running)] db db' at hcommit
  rw [hid] at hcommit
  rw [wp_bind, wp_get, wp_bind]
  generalize hentries : findEntryNodesIds _ _ _ = entries
  have hunfed : ∀ x, x ∈ entries ↔ Unfed flow.plan x := by
    intro x
    rw [← hentries, mem_findEntryNodesIds, Unfed, WorkflowInstance.plan_ids]
    rfl
  refine wp_mono (wp_eachStatus (R := fun spec l => Stands db'.places entries spec.outline l) .standby
    flow.spec.nodeSpecs (fun spec _ ms t ht => wp_standByNode ht entries spec) hv)
    (fun _ w ⟨ls, hls, hw⟩ => ?_) (fun w hw => ⟨db', hcommit, hw⟩)
  rw [hcommit.places] at hls
  refine ⟨db', hcommit, hplan, hid, rfl, hunfed, ls, List.forall₂_map_left_iff.mpr hls, ?_, hw⟩
  rw [FlowIs, hw.db_eq, ← hdb]
  exact hrunning

end Kuintessence

import Kuintessence.Model.Service

namespace Kuintessence

structure Place where
  id : Uuid
  parent : Option Uuid
  flow : Uuid
  deriving DecidableEq, Repr

def NodeInstance.place (n : NodeInstance) : Place := ⟨n.id, n.batchParentId, n.flowInstanceId⟩

abbrev Cell := Place × NodeInstanceStatus

def NodeInstance.cell (n : NodeInstance) : Cell := (n.place, n.status)

structure Plan where
  id : Uuid
  nodes : List (Uuid × List BatchStrategy)
  relations : List NodeRelation
  deriving DecidableEq, Repr

def Plan.edges (p : Plan) : List (Uuid × Uuid) := p.relations.map NodeRelation.ends

def NodeSpec.outline (n : NodeSpec) : Uuid × List BatchStrategy := (n.id, n.batchStrategies)

def WorkflowInstanceSpec.edges (w : WorkflowInstanceSpec) : List (Uuid × Uuid) :=
  w.nodeRelations.map NodeRelation.ends

def WorkflowInstance.plan (f : WorkflowInstance) : Plan :=
  ⟨f.id, f.spec.nodeSpecs.map NodeSpec.outline, f.spec.nodeRelations⟩

def Plan.ids (p : Plan) : List Uuid := p.nodes.map Prod.fst

theorem WorkflowInstance.plan_ids (f : WorkflowInstance) :
    f.plan.ids = f.spec.nodeSpecs.map NodeSpec.id := by
  rw [Plan.ids, plan, List.map_map]
  rfl

theorem WorkflowInstance.spec_mem {f : WorkflowInstance} {n : NodeSpec} (hn : n ∈ f.spec.nodeSpecs) :
    n.id ∈ f.plan.ids := by
  rw [plan_ids]
  exact List.mem_map_of_mem hn

def cells (nodes : List NodeInstance) : List Cell := nodes.map NodeInstance.cell

namespace Tables

def places (t : Tables) : List Place := t.nodes.map NodeInstance.place

def plans (t : Tables) : List Plan := t.flows.map WorkflowInstance.plan

structure Keyed (t : Tables) : Prop where
  nodes : (t.places.map Place.id).Nodup
  flows : (t.plans.map Plan.id).Nodup

theorem cells_fst (t : Tables) : (cells t.nodes).map Prod.fst = t.places := by
  rw [cells, List.map_map]
  rfl

theorem Keyed.place_eq {t : Tables} (h : t.Keyed) {p q : Place} (hp : p ∈ t.places)
    (hq : q ∈ t.places) (hid : p.id = q.id) : p = q := List.inj_on_of_nodup_map h.nodes hp hq hid

theorem Keyed.node_eq {t : Tables} (h : t.Keyed) {n m : NodeInstance} (hn : n ∈ t.nodes)
    (hm : m ∈ t.nodes) (hid : n.id = m.id) : n = m := by
  have hnodup : (t.nodes.map NodeInstance.id).Nodup := by
    have hnodes := h.nodes
    rw [Tables.places, List.map_map] at hnodes
    exact hnodes
  exact List.inj_on_of_nodup_map hnodup hn hm hid

theorem Keyed.flow_ids {t : Tables} (h : t.Keyed) : (t.flows.map WorkflowInstance.id).Nodup := by
  have hflows := h.flows
  rw [Tables.plans, List.map_map] at hflows
  exact hflows

theorem Keyed.plan_eq {t : Tables} (h : t.Keyed) {p q : Plan} (hp : p ∈ t.plans)
    (hq : q ∈ t.plans) (hid : p.id = q.id) : p = q := List.inj_on_of_nodup_map h.flows hp hq hid

theorem mem_places {t : Tables} {n : NodeInstance} (h : n ∈ t.nodes) : n.place ∈ t.places :=
  List.mem_map_of_mem h

theorem mem_plans {t : Tables} {f : WorkflowInstance} (h : f ∈ t.flows) : f.plan ∈ t.plans :=
  List.mem_map_of_mem h

end Tables

theorem mem_cells {nodes : List NodeInstance} {n : NodeInstance} (h : n ∈ nodes) :
    n.cell ∈ cells nodes := List.mem_map_of_mem h

theorem forall_cells {nodes : List NodeInstance} {P : Cell → Prop} :
    (∀ c ∈ cells nodes, P c) ↔ ∀ n ∈ nodes, P n.cell := List.forall_mem_map

theorem exists_cells {nodes : List NodeInstance} {P : Cell → Prop} :
    (∃ c ∈ cells nodes, P c) ↔ ∃ n ∈ nodes, P n.cell := by
  simp only [cells, List.mem_map, exists_exists_and_eq_and]

abbrev NodeMark := Uuid × NodeInstanceStatus

abbrev FlowMark := Uuid × WorkflowInstanceStatus

def overwrite (ms : List NodeMark) (id : Uuid) (status : NodeInstanceStatus) :
    NodeInstanceStatus := ms.foldl (fun s m => if m.1 = id then m.2 else s) status

theorem overwrite_append (ms ms' : List NodeMark) (x : Uuid) (status : NodeInstanceStatus) :
    overwrite (ms ++ ms') x status = overwrite ms' x (overwrite ms x status) := List.foldl_append

def settle (ms : List NodeMark) (c : Cell) : Cell := (c.1, overwrite ms c.1.id c.2)

@[simp] theorem settle_nil (c : Cell) : settle [] c = c := rfl

@[simp] theorem settle_fst (ms : List NodeMark) (c : Cell) : (settle ms c).1 = c.1 := rfl

theorem settle_append (ms ms' : List NodeMark) (c : Cell) :
    settle (ms ++ ms') c = settle ms' (settle ms c) := by
  rw [settle, overwrite_append]
  rfl

theorem settle_singleton (m : NodeMark) (c : Cell) :
    settle [m] c = if m.1 = c.1.id then (c.1, m.2) else c := by
  rw [settle, overwrite, List.foldl_cons, List.foldl_nil]
  split <;> rfl

theorem map_settle_nil (cs : List Cell) : cs.map (settle []) = cs := by
  have hid : settle [] = id := rfl
  rw [hid, List.map_id]

theorem map_settle_append (ms ms' : List NodeMark) (cs : List Cell) :
    cs.map (settle (ms ++ ms')) = (cs.map (settle ms)).map (settle ms') := by
  rw [List.map_map]
  exact List.map_congr_left fun c _ => settle_append ms ms' c

theorem overwrite_same (s : NodeInstanceStatus) (ids : List Uuid) (id : Uuid)
    (status : NodeInstanceStatus) :
    overwrite (ids.map (fun i => (i, s))) id status = if id ∈ ids then s else status := by
  unfold overwrite
  induction ids generalizing status with
  | nil => simp
  | cons i ids ih =>
    rw [List.map_cons, List.foldl_cons, ih]
    by_cases hi : i = id
    · simp [hi]
    · simp [hi, Ne.symm hi]

theorem overwrite_mem {ms : List NodeMark} {id : Uuid} {status : NodeInstanceStatus} :
    overwrite ms id status = status ∨ (id, overwrite ms id status) ∈ ms := by
  unfold overwrite
  induction ms generalizing status with
  | nil => exact .inl rfl
  | cons m ms ih =>
    rw [List.foldl_cons]
    by_cases hm : m.1 = id
    · rw [if_pos hm]
      rcases @ih m.2 with h | h
      · right
        rw [h, ← hm]
        exact List.mem_cons_self
      · exact .inr (List.mem_cons_of_mem m h)
    · rw [if_neg hm]
      rcases @ih status with h | h
      · exact .inl h
      · exact .inr (List.mem_cons_of_mem m h)

namespace Statement

def nodeMark : Statement → Option NodeMark
  | .updateNode n => some (n.id, n.status)
  | _ => none

def flowMark : Statement → Option FlowMark
  | .updateFlow f => some (f.id, f.status)
  | _ => none

def Fits (t : Tables) : Statement → Prop
  | .updateFlow f => f.plan ∈ t.plans
  | .updateNode n => n.place ∈ t.places
  | .insertNode _ => False

end Statement

def Moves (fs : List FlowMark) (flows flows' : List WorkflowInstance) : Prop :=
  ∀ f' ∈ flows', ∃ f ∈ flows, f'.plan = f.plan ∧ (f'.status = f.status ∨ (f.id, f'.status) ∈ fs)

theorem Moves.refl (fs : List FlowMark) (flows : List WorkflowInstance) : Moves fs flows flows :=
  fun f hf => ⟨f, hf, rfl, .inl rfl⟩

theorem Moves.mono {fs fs' : List FlowMark} {flows flows' : List WorkflowInstance}
    (h : Moves fs flows flows') (hsub : ∀ m ∈ fs, m ∈ fs') : Moves fs' flows flows' := by
  intro f' hf'
  obtain ⟨f, hf, hplan, hs | hs⟩ := h f' hf'
  · exact ⟨f, hf, hplan, .inl hs⟩
  · exact ⟨f, hf, hplan, .inr (hsub _ hs)⟩

theorem Moves.trans {fs fs' : List FlowMark} {a b c : List WorkflowInstance} (h : Moves fs a b)
    (h' : Moves fs' b c) : Moves (fs ++ fs') a c := by
  intro f'' hf''
  obtain ⟨f', hf', hplan', hs'⟩ := h' f'' hf''
  obtain ⟨f, hf, hplan, hs⟩ := h f' hf'
  have hid : f'.id = f.id := congrArg Plan.id hplan
  refine ⟨f, hf, hplan'.trans hplan, ?_⟩
  rcases hs' with hs' | hs'
  · rcases hs with hs | hs
    · exact .inl (hs'.trans hs)
    · rw [hs']
      exact .inr (List.mem_append_left _ hs)
  · rw [hid] at hs'
    exact .inr (List.mem_append_right _ hs')

structure Commit (ms : List NodeMark) (fs : List FlowMark) (t t' : Tables) : Prop where
  cells_eq : cells t'.nodes = (cells t.nodes).map (settle ms)
  plans_eq : t'.plans = t.plans
  moves : Moves fs t.flows t'.flows

namespace Commit

variable {ms ms' : List NodeMark} {fs fs' : List FlowMark} {t t' t'' : Tables}

theorem refl (t : Tables) : Commit [] [] t t := ⟨(map_settle_nil _).symm, rfl, .refl _ _⟩

theorem trans (h : Commit ms fs t t') (h' : Commit ms' fs' t' t'') :
    Commit (ms ++ ms') (fs ++ fs') t t'' :=
  ⟨by rw [h'.cells_eq, h.cells_eq, map_settle_append], h'.plans_eq.trans h.plans_eq, h.moves.trans h'.moves⟩

theorem mono (h : Commit ms fs t t') (hsub : ∀ m ∈ fs, m ∈ fs') : Commit ms fs' t t' :=
  ⟨h.cells_eq, h.plans_eq, h.moves.mono hsub⟩

theorem places (h : Commit ms fs t t') : t'.places = t.places := by
  rw [← Tables.cells_fst, ← Tables.cells_fst, h.cells_eq, List.map_map]
  rfl

theorem keyed (h : Commit ms fs t t') (hk : t.Keyed) : t'.Keyed :=
  ⟨by rw [h.places]; exact hk.nodes, by rw [h.plans_eq]; exact hk.flows⟩

theorem fits (h : Commit ms fs t t') {s : Statement} (hs : s.Fits t) : s.Fits t' := by
  cases s with
  | updateFlow f => simpa only [Statement.Fits, h.plans_eq] using hs
  | updateNode n => simpa only [Statement.Fits, h.places] using hs
  | insertNode n => exact hs

end Commit

theorem execute_updateNode {t t' : Tables} {stamp : Nat → Nat} {n : NodeInstance} (hk : t.Keyed)
    (hfit : n.place ∈ t.places) (h : t.execute stamp (.updateNode n) = some t') :
    Commit [(n.id, n.status)] [] t t' := by
  simp only [Tables.execute, Option.some.injEq] at h
  subst h
  refine ⟨?_, rfl, .refl _ _⟩
  rw [cells, cells, List.map_map, List.map_map]
  refine List.map_congr_left fun row hrow => ?_
  rw [Function.comp_apply, Function.comp_apply, settle_singleton]
  by_cases hid : row.id = n.id
  · have hplace : row.place = n.place := hk.place_eq (Tables.mem_places hrow) hfit hid
    have hmark : n.id = row.cell.1.id := hid.symm
    rw [if_pos hid, if_pos hmark, NodeInstance.cell, NodeInstance.cell, hplace]
  · have hmark : ¬n.id = row.cell.1.id := fun heq => hid heq.symm
    rw [if_neg hid, if_neg hmark]

theorem execute_updateFlow {t t' : Tables} {stamp : Nat → Nat} {f : WorkflowInstance}
    (hk : t.Keyed) (hfit : f.plan ∈ t.plans) (h : t.execute stamp (.updateFlow f) = some t') :
    Commit [] [(f.id, f.status)] t t' := by
  simp only [Tables.execute, Option.some.injEq] at h
  subst h
  have hplan : ∀ row ∈ t.flows, row.id = f.id → f.plan = row.plan := fun row hrow hid =>
    hk.plan_eq hfit (Tables.mem_plans hrow) hid.symm
  refine ⟨(map_settle_nil _).symm, ?_, ?_⟩
  · rw [Tables.plans, Tables.plans, List.map_map]
    refine List.map_congr_left fun row hrow => ?_
    rw [Function.comp_apply]
    split
    · next hmatch =>
      rw [← hplan row hrow hmatch.1, WorkflowInstance.plan, WorkflowInstance.plan, hmatch.1]
    · rfl
  · intro f' hf'
    obtain ⟨row, hrow, rfl⟩ := List.mem_map.mp hf'
    refine ⟨row, hrow, ?_⟩
    split
    · next hmatch =>
      refine ⟨?_, .inr ?_⟩
      · rw [← hplan row hrow hmatch.1, WorkflowInstance.plan, WorkflowInstance.plan, hmatch.1]
      · rw [hmatch.1]
        exact List.mem_singleton_self _
    · exact ⟨rfl, .inl rfl⟩

inductive Executes : Tables → List Statement → Tables → Prop where
  | nil (t : Tables) : Executes t [] t
  | cons {t t' t'' : Tables} {s : Statement} {ss : List Statement} (stamp : Nat → Nat)
      (h : t.execute stamp s = some t') (hs : Executes t' ss t'') : Executes t (s :: ss) t''

theorem Executes.split {t t' : Tables} {ss ss' : List Statement}
    (h : Executes t (ss ++ ss') t') : ∃ u, Executes t ss u ∧ Executes u ss' t' := by
  induction ss generalizing t with
  | nil => exact ⟨t, .nil t, h⟩
  | cons s ss ih =>
    cases h with
    | cons stamp hex hrest =>
      obtain ⟨u, hu, hu'⟩ := ih hrest
      exact ⟨u, .cons stamp hex hu, hu'⟩

theorem Executes.flows_eq {t t' : Tables} {ss : List Statement} (h : Executes t ss t')
    (hss : ss.filterMap Statement.flowMark = []) : t'.flows = t.flows := by
  induction h with
  | nil t => rfl
  | @cons t u v s ss stamp hex hrest ih =>
    cases s with
    | updateFlow f => exact absurd hss (List.cons_ne_nil _ _)
    | updateNode n =>
      simp only [Tables.execute, Option.some.injEq] at hex
      subst hex
      exact ih hss
    | insertNode n =>
      simp only [Tables.execute, Option.ite_none_left_eq_some, Option.some.injEq] at hex
      obtain ⟨-, rfl⟩ := hex
      exact ih hss

theorem execute_updateFlow_status {t t' : Tables} {stamp : Nat → Nat} {f row : WorkflowInstance}
    (hk : (t.flows.map WorkflowInstance.id).Nodup) (hrow : row ∈ t.flows) (hid : row.id = f.id)
    (htime : row.lastModifiedTime = f.lastModifiedTime)
    (h : t.execute stamp (.updateFlow f) = some t') :
    ∀ g ∈ t'.flows, g.id = f.id → g.status = f.status := by
  simp only [Tables.execute, Option.some.injEq] at h
  subst h
  intro g hg hgid
  obtain ⟨k, hkmem, rfl⟩ := List.mem_map.mp hg
  have hkid : k.id = f.id := by
    split at hgid
    · exact hgid
    · exact hgid
  have heq : k = row := List.inj_on_of_nodup_map hk hkmem hrow (hkid.trans hid.symm)
  rw [heq, if_pos ⟨hid, htime⟩]

def Pending (t : Tables) (ms : List NodeMark) (fs : List FlowMark) (ss : List Statement) : Prop :=
  (∀ s ∈ ss, s.Fits t) ∧ ss.filterMap Statement.nodeMark = ms ∧
    ss.filterMap Statement.flowMark = fs

theorem Pending.nil (t : Tables) : Pending t [] [] [] := ⟨by simp, rfl, rfl⟩

theorem Pending.eq_nil {t : Tables} {ss : List Statement} (h : Pending t [] [] ss) : ss = [] := by
  obtain ⟨hfit, hms, hfs⟩ := h
  cases ss with
  | nil => rfl
  | cons s ss =>
    cases s with
    | updateFlow f => exact absurd hfs (List.cons_ne_nil _ _)
    | updateNode n => exact absurd hms (List.cons_ne_nil _ _)
    | insertNode n => exact (hfit _ List.mem_cons_self).elim

theorem Pending.node {t : Tables} {ms : List NodeMark} {fs : List FlowMark} {ss : List Statement}
    (h : Pending t ms fs ss) {n : NodeInstance} (hn : n.place ∈ t.places) :
    Pending t (ms ++ [(n.id, n.status)]) fs (ss ++ [.updateNode n]) := by
  obtain ⟨hfit, rfl, rfl⟩ := h
  refine ⟨fun s hs => ?_, ?_, ?_⟩
  · rcases List.mem_append.mp hs with hs | hs
    · exact hfit s hs
    · rw [List.mem_singleton.mp hs]
      exact hn
  · rw [List.filterMap_append]
    rfl
  · rw [List.filterMap_append]
    exact List.append_nil _

theorem Pending.flow {t : Tables} {ms : List NodeMark} {fs : List FlowMark} {ss : List Statement}
    (h : Pending t ms fs ss) {f : WorkflowInstance} (hf : f.plan ∈ t.plans) :
    Pending t ms (fs ++ [(f.id, f.status)]) (ss ++ [.updateFlow f]) := by
  obtain ⟨hfit, rfl, rfl⟩ := h
  refine ⟨fun s hs => ?_, ?_, ?_⟩
  · rcases List.mem_append.mp hs with hs | hs
    · exact hfit s hs
    · rw [List.mem_singleton.mp hs]
      exact hf
  · rw [List.filterMap_append]
    exact List.append_nil _
  · rw [List.filterMap_append]
    rfl

theorem Executes.commit {t t' : Tables} {ss : List Statement} (h : Executes t ss t')
    (hk : t.Keyed) (hfit : ∀ s ∈ ss, s.Fits t) :
    Commit (ss.filterMap Statement.nodeMark) (ss.filterMap Statement.flowMark) t t' := by
  induction h with
  | nil t => exact .refl t
  | @cons t u v s ss stamp hex hrest ih =>
    have hs := hfit s List.mem_cons_self
    have hss : ∀ s' ∈ ss, s'.Fits t := fun s' hs' => hfit s' (List.mem_cons_of_mem s hs')
    cases s with
    | updateFlow f =>
      have hone := execute_updateFlow hk hs hex
      exact hone.trans (ih (hone.keyed hk) fun s' hs' => hone.fits (hss s' hs'))
    | updateNode n =>
      have hone := execute_updateNode hk hs hex
      exact hone.trans (ih (hone.keyed hk) fun s' hs' => hone.fits (hss s' hs'))
    | insertNode n => exact hs.elim

end Kuintessence

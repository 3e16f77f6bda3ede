import Kuintessence.Engine.State
import Kuintessence.Engine.Tables

namespace Kuintessence

open Effect

inductive Notice where
  | sent (id : Uuid) (cells : List Cell)
  | finished (flow : Uuid) (cells : List Cell)
  deriving DecidableEq, Repr

def Event.notice : Event → Option Notice
  | .sendUsecase spec nodes => some (.sent spec.id (cells nodes))
  | .finish flow nodes => some (.finished flow (cells nodes))
  | _ => none

def notices (trace : List Event) : List Notice := trace.filterMap Event.notice

structure Mid (ids : Nat → Uuid) (db : Tables) (ns : List Notice) (ms : List NodeMark)
    (fs : List FlowMark) (s : World) : Prop where
  db_eq : s.db = db
  notices_eq : notices s.trace = ns
  pending : Pending db ms fs s.statements
  canDrop : s.canDrop = true → s.statements = []
  ids : Tail ids s.ids

structure Left (ids : Nat → Uuid) (db : Tables) (ns : List Notice) (s : World) : Prop where
  db_eq : s.db = db
  notices_eq : notices s.trace = ns
  ids : Tail ids s.ids

variable {α : Type} {ids : Nat → Uuid} {db : Tables} {ns : List Notice} {ms : List NodeMark}
  {fs : List FlowMark} {s t : World} {env : Env}

theorem Mid.left (h : Mid ids db ns ms fs s) : Left ids db ns s := ⟨h.db_eq, h.notices_eq, h.ids⟩

theorem Mid.idle (h : s.statements = []) : Mid s.ids s.db (notices s.trace) [] [] s := by
  refine ⟨rfl, rfl, ?_, fun _ => h, .refl _⟩
  rw [h]
  exact .nil _

theorem Mid.rebase (h : Mid ids db ns ms fs s) : Mid s.ids db ns ms fs s :=
  ⟨h.db_eq, h.notices_eq, h.pending, h.canDrop, .refl _⟩

theorem Mid.since {iter : Nat → Uuid} (h : Mid iter db ns ms fs s) (ht : Tail ids iter) :
    Mid ids db ns ms fs s := ⟨h.db_eq, h.notices_eq, h.pending, h.canDrop, ht.trans h.ids⟩

theorem Mid.calm (h : Mid ids db ns ms fs s) (hc : Calm s t) : Mid ids db ns ms fs t :=
  ⟨hc.db.trans h.db_eq, by rw [hc.trace]; exact h.notices_eq, by rw [hc.statements]; exact h.pending,
    fun hd => by rw [hc.statements]; exact h.canDrop (hc.canDrop.symm.trans hd),
    h.ids.trans hc.ids⟩

theorem wp_calm {m : Svc α} (hm : Keeps calmFrame m) (h : Mid ids db ns ms fs s) :
    wp m env (fun _ t => Mid ids db ns ms fs t) (Left ids db ns) s :=
  wp_mono (hm.wp env s) (fun _ _ hc => h.calm hc) (fun _ hc => (h.calm hc).left)

theorem wp_call (h : Mid ids db ns ms fs s) :
    wp call env (fun _ t => Mid ids db ns ms fs t) (Left ids db ns) s := wp_calm keeps_call h

section Reads

theorem wp_getNodeById (h : Mid ids db ns ms fs s) (id : Uuid) :
    wp (getNodeById id) env
      (fun node t => Mid ids db ns ms fs t ∧ node ∈ db.nodes ∧ node.id = id)
      (Left ids db ns) s := by
  unfold getNodeById
  rw [wp_bind]
  refine wp_mono (wp_call h) (fun _ t ht => ?_) (fun _ he => he)
  rw [wp_bind, wp_get, ht.db_eq]
  split
  · next node hfind =>
    have hid := List.find?_some hfind
    exact ⟨ht, List.mem_of_find?_eq_some hfind, beq_iff_eq.mp hid⟩
  · exact ht.left

theorem wp_getFlowById (h : Mid ids db ns ms fs s) (id : Uuid) :
    wp (getFlowById id) env
      (fun flow t => Mid ids db ns ms fs t ∧ flow ∈ db.flows ∧ flow.id = id)
      (Left ids db ns) s := by
  unfold getFlowById
  rw [wp_bind]
  refine wp_mono (wp_call h) (fun _ t ht => ?_) (fun _ he => he)
  rw [wp_bind, wp_get, ht.db_eq]
  split
  · next flow hfind =>
    have hid := List.find?_some hfind
    exact ⟨ht, List.mem_of_find?_eq_some hfind, beq_iff_eq.mp hid⟩
  · exact ht.left

theorem wp_getFlowByNodeId (h : Mid ids db ns ms fs s) (id : Uuid) :
    wp (getFlowByNodeId id) env
      (fun flow t => Mid ids db ns ms fs t ∧ flow ∈ db.flows ∧
        ∃ node ∈ db.nodes, node.id = id ∧ flow.id = node.flowInstanceId)
      (Left ids db ns) s := by
  unfold getFlowByNodeId
  rw [wp_bind]
  refine wp_mono (wp_getNodeById h id) (fun node t ⟨ht, hnode, hid⟩ => ?_) (fun _ he => he)
  refine wp_mono (wp_getFlowById ht _) (fun flow u ⟨hu, hflow, hfid⟩ => ?_) (fun _ he => he)
  exact ⟨hu, hflow, node, hnode, hid, hfid⟩

theorem wp_selectNodes (h : Mid ids db ns ms fs s) (p : NodeInstance → Bool) :
    wp (selectNodes p) env
      (fun rows t => Mid ids db ns ms fs t ∧ rows.Perm (db.nodes.filter p))
      (Left ids db ns) s := by
  unfold selectNodes
  rw [wp_bind, wp_read, wp_bind]
  refine wp_mono (wp_call h) (fun k t ht => ?_) (fun _ he => he)
  rw [wp_bind, wp_get, wp_pure, ht.db_eq]
  exact ⟨ht, (env.rows k).perm _⟩

def GateOpen (cs : List Cell) (flow : Uuid) : Prop :=
  ∀ c ∈ cs, c.1.flow = flow → c.1.parent = none → c.2 = .finished ∨ c.2 = .standby

theorem wp_isAllSame (h : Mid ids db ns ms fs s) (id : Uuid) :
    wp (isAllSameEntrymentNodesSuccess id) env
      (fun success t => Mid ids db ns ms fs t ∧ ∃ node ∈ db.nodes, node.id = id ∧
        (success = true ↔ GateOpen (cells db.nodes) node.flowInstanceId))
      (Left ids db ns) s := by
  unfold isAllSameEntrymentNodesSuccess
  rw [wp_bind]
  refine wp_mono (wp_call h) (fun _ t ht => ?_) (fun _ he => he)
  rw [wp_bind, wp_get, ht.db_eq]
  split
  · exact ht.left
  · next node hfind =>
    have hid := List.find?_some hfind
    rw [wp_bind]
    refine wp_mono (wp_selectNodes ht _) (fun rows u ⟨hu, hperm⟩ => ?_) (fun _ he => he)
    refine ⟨hu, node, List.mem_of_find?_eq_some hfind, beq_iff_eq.mp hid, ?_⟩
    simp only [List.all_eq_true, hperm.mem_iff, List.mem_filter, Bool.and_eq_true, beq_iff_eq,
      Option.isNone_iff_eq_none, Bool.or_eq_true, GateOpen, forall_cells]
    constructor
    · exact fun hall row hrow hflow hroot => hall row ⟨hrow, hflow, hroot⟩
    · exact fun hgate row ⟨hrow, hflow, hroot⟩ => hgate row hrow hflow hroot

end Reads

section Writes

theorem wp_push {s' : Statement} {ms' : List NodeMark} {fs' : List FlowMark}
    (h : Mid ids db ns ms fs s) (hp : Pending db ms' fs' (s.statements ++ [s'])) :
    wp (push s') env (fun _ t => Mid ids db ns ms' fs' t) (Left ids db ns) s :=
  ⟨h.db_eq, h.notices_eq, hp, fun hd => absurd hd Bool.false_ne_true, h.ids⟩

theorem wp_updateNode (h : Mid ids db ns ms fs s) {node : NodeInstance}
    (hn : node.place ∈ db.places) :
    wp (updateNode node) env
      (fun _ t => Mid ids db ns (ms ++ [(node.id, node.status)]) fs t) (Left ids db ns) s := by
  unfold updateNode
  rw [wp_bind]
  exact wp_mono (wp_call h) (fun _ t ht => wp_push ht (ht.pending.node hn)) (fun _ he => he)

theorem wp_updateFlow (h : Mid ids db ns ms fs s) {flow : WorkflowInstance}
    (hf : flow.plan ∈ db.plans) :
    wp (updateFlow flow) env
      (fun _ t => Mid ids db ns ms (fs ++ [(flow.id, flow.status)]) t) (Left ids db ns) s := by
  unfold updateFlow
  rw [wp_bind]
  exact wp_mono (wp_call h) (fun _ t ht => wp_push ht (ht.pending.flow hf)) (fun _ he => he)

def Lasts (flow : WorkflowInstance) (s : World) : Prop :=
  ∃ ss, s.statements = ss ++ [.updateFlow flow] ∧ ss.filterMap Statement.flowMark = []

theorem wp_updateFlow_last (h : Mid ids db ns ms [] s) {flow : WorkflowInstance}
    (hf : flow.plan ∈ db.plans) :
    wp (updateFlow flow) env
      (fun _ t => Mid ids db ns ms [(flow.id, flow.status)] t ∧ Lasts flow t)
      (Left ids db ns) s := by
  unfold updateFlow
  rw [wp_bind]
  refine wp_mono (wp_call h) (fun _ t ht => ?_) (fun _ he => he)
  have hpush : wp (push (.updateFlow flow)) env _ _ t := wp_push ht (ht.pending.flow hf)
  exact ⟨hpush, t.statements, rfl, ht.pending.2.2⟩

theorem wp_note {E : World → Prop} (h : Mid ids db ns ms fs s) (e : List NodeInstance → Event) :
    wp (note e) env
      (fun _ t => Mid ids db (ns ++ (e db.nodes).notice.toList) ms fs t) E s := by
  refine ⟨h.db_eq, ?_, h.pending, h.canDrop, h.ids⟩
  change notices (s.trace ++ [e s.db.nodes]) = _
  rw [notices, List.filterMap_append, ← notices, h.notices_eq, h.db_eq]
  congr 1

theorem wp_quiet_note {E : World → Prop} (h : Mid ids db ns ms fs s)
    {e : List NodeInstance → Event} (he : ∀ nodes, (e nodes).notice = none) :
    wp (note e) env (fun _ t => Mid ids db ns ms fs t) E s := by
  refine wp_mono (wp_note h e) (fun _ t ht => ?_) (fun _ hl => hl)
  rw [he, Option.toList_none, List.append_nil] at ht
  exact ht

theorem wp_executeAll (ss : List Statement) (db : Tables) (s : World) :
    wp (executeAll db ss) env
      (fun out t => Calm s t ∧ ∀ db', out = some db' → Executes db ss db') (Calm s) s := by
  induction ss generalizing db s with
  | nil =>
    refine ⟨.refl s, fun db' h => ?_⟩
    rw [← Option.some.inj h]
    exact .nil db
  | cons st ss ih =>
    unfold executeAll
    rw [wp_bind, wp_read, wp_bind, wp_get, wp_bind]
    refine wp_mono (keeps_attempt.wp env s) (fun up t ht => ?_) (fun _ he => he)
    split
    · exact ⟨ht, fun db' h => Option.noConfusion rfl (heq_of_eq h)⟩
    · next db₁ hone =>
      have hup : up = true := by
        cases up with
        | true => rfl
        | false => simp at hone
      rw [if_pos hup] at hone
      refine wp_mono (ih db₁ t) (fun out u ⟨hu, hex⟩ => ?_) (fun u hu => ht.trans hu)
      exact ⟨ht.trans hu, fun db' h => .cons _ hone (hex db' h)⟩

structure Kept (s t : World) : Prop where
  db : t.db = s.db
  trace : t.trace = s.trace
  ids : Tail s.ids t.ids

structure Saved (s t : World) : Prop where
  executes : Executes s.db s.statements t.db
  trace : t.trace = s.trace
  statements : t.statements = []
  ids : Tail s.ids t.ids

theorem Calm.kept (h : Calm s t) : Kept s t := ⟨h.db, h.trace, h.ids⟩

theorem wp_save (hdrop : s.canDrop = true → s.statements = []) :
    wp saveChanged env (fun _ t => Saved s t) (Kept s) s := by
  unfold saveChanged
  rw [wp_bind, wp_get]
  split
  · next hd =>
    refine ⟨?_, rfl, hdrop hd, .refl _⟩
    rw [hdrop hd]
    exact .nil s.db
  · rw [wp_bind]
    refine wp_mono (keeps_call.wp env s) (fun _ t ht => ?_) (fun _ ht => ht.kept)
    rw [wp_bind]
    refine wp_mono (wp_executeAll s.statements s.db t) (fun out u ⟨hu, hex⟩ => ?_)
      (fun u hu => (ht.trans hu).kept)
    have hcalm : Calm s u := ht.trans hu
    cases out with
    | none =>
      rw [wp_bind]
      refine wp_mono (keeps_call.wp env u) (fun _ v hv => ?_) (fun _ hv => (hcalm.trans hv).kept)
      have hv' := hcalm.trans hv
      exact ⟨hv'.db, hv'.trace, hv'.ids⟩
    | some db' =>
      rw [wp_bind]
      refine wp_mono (keeps_call.wp env u) (fun _ v hv => ?_) (fun _ hv => (hcalm.trans hv).kept)
      have hv' := hcalm.trans hv
      exact ⟨hex db' rfl, hv'.trace, rfl, hv'.ids⟩

theorem Left.of_kept (h : Mid ids db ns ms fs s) (hk : Kept s t) : Left ids db ns t :=
  ⟨hk.db.trans h.db_eq, by rw [hk.trace]; exact h.notices_eq, h.ids.trans hk.ids⟩

theorem Saved.commit (hs : Saved s t) (h : Mid ids db ns ms fs s) (hk : db.Keyed) :
    Commit ms fs db t.db ∧ Mid ids t.db ns [] [] t := by
  obtain ⟨hfit, hms, hfs⟩ := h.pending
  refine ⟨?_, rfl, ?_, ?_, ?_, ?_⟩
  · have hexec := hs.executes
    rw [h.db_eq] at hexec
    rw [← hms, ← hfs]
    exact hexec.commit hk hfit
  · rw [hs.trace]
    exact h.notices_eq
  · rw [hs.statements]
    exact .nil t.db
  · exact fun _ => hs.statements
  · exact h.ids.trans hs.ids

theorem Saved.status_of_lasts (hs : Saved s t) {flow row : WorkflowInstance}
    (h : Lasts flow s) (hk : s.db.Keyed) (hrow : row ∈ s.db.flows) (hid : row.id = flow.id)
    (htime : row.lastModifiedTime = flow.lastModifiedTime) :
    ∀ f ∈ t.db.flows, f.id = flow.id → f.status = flow.status := by
  obtain ⟨ss, hss, hnone⟩ := h
  have hexec := hs.executes
  rw [hss] at hexec
  obtain ⟨db, hfirst, hlast⟩ := hexec.split
  have hids := hk.flow_ids
  rw [← hfirst.flows_eq hnone] at hids hrow
  cases hlast with
  | cons stamp hone hrest =>
    cases hrest
    exact execute_updateFlow_status hids hrow hid htime hone

def FlowIs (id : Uuid) (status : WorkflowInstanceStatus) (t : World) : Prop :=
  ∀ f ∈ t.db.flows, f.id = id → f.status = status

theorem Commit.flowIs {id : Uuid} {status : WorkflowInstanceStatus} (hc : Commit ms fs s.db t.db)
    (h : FlowIs id status s) (hfs : ∀ m ∈ fs, m.1 = id → m.2 = status) : FlowIs id status t := by
  intro f' hf' hid
  obtain ⟨f, hf, hplan, hsame | hmark⟩ := hc.moves f' hf'
  · rw [hsame]
    exact h f hf ((congrArg Plan.id hplan).symm.trans hid)
  · exact hfs _ hmark ((congrArg Plan.id hplan).symm.trans hid)

theorem wp_saveChanged (h : Mid ids db ns ms fs s) (hk : db.Keyed) :
    wp saveChanged env (fun _ t => ∃ db', Commit ms fs db db' ∧ Mid ids db' ns [] [] t)
      (Left ids db ns) s :=
  wp_mono (wp_save h.canDrop) (fun _ t ht => ⟨t.db, ht.commit h hk⟩) (fun _ ht => .of_kept h ht)

end Writes

end Kuintessence

import Kuintessence.Workflow.Batching
import Kuintessence.Workflow.Gathering

namespace Kuintessence

open Effect Outcome

variable {env : Env} {s t u w : World} {db db' : Tables} {f flow : WorkflowInstance}
  {ss : List Statement} {mode : ScheduleMode} {entries : List Uuid}

section Rows

def Flowless (ss : List Statement) : Prop := ∀ st ∈ ss, st.flow = none

def restamped (stamp : Nat → Nat) (f : WorkflowInstance) (rows : List WorkflowInstance) :
    List WorkflowInstance :=
  rows.map fun row =>
    if row.id = f.id ∧ row.lastModifiedTime = f.lastModifiedTime then
      { row with
        spec := f.spec
        status := f.status
        lastModifiedTime := stamp row.lastModifiedTime }
    else row

theorem execute_flowless {stamp : Nat → Nat} {st : Statement} (hst : st.flow = none)
    (h : db.execute stamp st = some db') : db'.flows = db.flows := by
  cases st with
  | updateFlow g => cases hst
  | updateNode node =>
    cases h
    rfl
  | insertNode node =>
    simp only [Tables.execute, Option.ite_none_left_eq_some, Option.some.injEq] at h
    obtain ⟨-, rfl⟩ := h
    rfl

theorem wp_executeAll_cons {st : Statement} {db : Tables} {Q : Option Tables → World → Prop}
    (hnone : ∀ t, Q none t) (hsome : ∀ db', db.execute (env.stamp w.calls) st = some db' →
      ∀ t, wp (executeAll db' ss) env Q (fun _ => True) t) :
    wp (executeAll db (st :: ss)) env Q (fun _ => True) w := by
  unfold executeAll
  rw [wp_bind, wp_read, wp_bind, wp_get]
  refine wp_bind_any fun up t => ?_
  cases up with
  | false => exact hnone t
  | true =>
    rw [if_pos rfl]
    split
    · exact hnone t
    · next db' hdb => exact hsome db' hdb t

theorem wp_executeAll_flowless (h : Flowless ss) (db : Tables) (w : World) :
    wp (executeAll db ss) env (fun out _ => ∀ db', out = some db' → db'.flows = db.flows)
      (fun _ => True) w := by
  induction ss generalizing db w with
  | nil =>
    rintro db' ⟨⟩
    rfl
  | cons st ss ih =>
    refine wp_executeAll_cons (fun _ => nofun) fun db' hdb t => ?_
    rw [← execute_flowless (h st List.mem_cons_self) hdb]
    exact ih (fun st hst => h st (List.mem_cons_of_mem _ hst)) db' t

theorem wp_executeAll_restamped (h : Flowless ss) (db : Tables) (w : World) :
    wp (executeAll db (ss ++ [.updateFlow f])) env
      (fun out _ => ∀ db', out = some db' → ∃ k, (ss = [] → k = w.calls) ∧
        db'.flows = restamped (env.stamp k) f db.flows) (fun _ => True) w := by
  induction ss generalizing db w with
  | nil =>
    refine wp_executeAll_cons (fun _ => nofun) fun db' hdb t => ?_
    rintro _ ⟨⟩
    cases hdb
    exact ⟨w.calls, fun _ => rfl, rfl⟩
  | cons st ss ih =>
    refine wp_executeAll_cons (fun _ => nofun) fun db' hdb t => ?_
    refine wp_mono (ih (fun st hst => h st (List.mem_cons_of_mem _ hst)) db' t)
      (fun out _ hout db'' heq => ?_) (fun _ he => he)
    obtain ⟨k, -, hflows⟩ := hout db'' heq
    exact ⟨k, nofun, by rw [hflows, execute_flowless (h st List.mem_cons_self) hdb]⟩

theorem flowless_nil : Flowless [] := fun _ h => absurd h List.not_mem_nil

-- What a save that gets through leaves, and one that does not.
theorem wp_save_tables {P : Tables → Prop} (hsame : w.canDrop = true → P w.db)
    (hexec : ∀ t, t.calls = w.calls + 1 → wp (executeAll w.db w.statements) env
      (fun out _ => ∀ db', out = some db' → P db') (fun _ => True) t) :
    wp saveChanged env (fun _ t => P t.db ∧ (w.canDrop = true ∧ t = w ∨ t.statements = []))
      (fun t => t.db = w.db ∧ (t.statements = w.statements ∨ t.statements = [])) w := by
  have hkept : ∀ t, Calm w t →
      t.db = w.db ∧ (t.statements = w.statements ∨ t.statements = []) :=
    fun t ht => ⟨ht.db, .inl ht.statements⟩
  unfold saveChanged
  rw [wp_bind, wp_get]
  split
  · next hdrop => exact ⟨hsame hdrop, .inl ⟨hdrop, rfl⟩⟩
  · rw [wp_bind]
    refine wp_mono (wp_and (wp_call_exact env w) (keeps_call.wp env w)) (fun k t ht => ?_)
      (fun t ht => hkept t ht.2)
    obtain ⟨⟨-, -, rfl⟩, hcalm⟩ := ht
    rw [wp_bind]
    refine wp_mono (wp_and (hexec w.called rfl) (wp_executeAll w.statements w.db w.called))
      (fun out u hu => ?_) (fun u hu => hkept u (hcalm.trans hu.2))
    obtain ⟨hout, hcalm', -⟩ := hu
    have hall := hcalm.trans hcalm'
    cases out with
    | none =>
      rw [wp_bind]
      refine wp_mono (keeps_call.wp env u) (fun _ v hv => ?_) (fun v hv => hkept v (hall.trans hv))
      exact ⟨(hall.trans hv).db, .inr rfl⟩
    | some db' =>
      rw [wp_bind]
      refine wp_mono (keeps_call.wp env u) (fun _ v hv => ?_) (fun v hv => hkept v (hall.trans hv))
      exact ⟨hout db' rfl, .inr rfl⟩

def flowsFrame : Frame World where
  rel s t := Flowless s.statements → t.db.flows = s.db.flows ∧ Flowless t.statements
  refl _ h := ⟨rfl, h⟩
  trans h h' hs := ⟨(h' (h hs).2).1.trans (h hs).1, (h' (h hs).2).2⟩

theorem keeps_push_flows {st : Statement} (hst : st.flow = none) : Keeps flowsFrame (push st) := by
  refine fun _ s hs => ⟨rfl, fun st' hmem => ?_⟩
  rcases List.mem_append.mp hmem with hmem | hmem
  · exact hs st' hmem
  · rw [List.mem_singleton.mp hmem]
    exact hst

theorem keeps_save_flows : Keeps flowsFrame saveChanged := by
  intro env s hs
  let P : World → Prop := fun t => t.db.flows = s.db.flows ∧ Flowless t.statements
  refine wp_final.mp (?_ : wp saveChanged env (fun _ t => P t) P s)
  refine wp_mono (wp_save_tables (P := fun db => db.flows = s.db.flows) (fun _ => rfl)
    fun t _ => wp_executeAll_flowless hs s.db t) ?_ ?_
  · rintro _ t ⟨hflows, ⟨-, rfl⟩ | hnil⟩
    · exact ⟨hflows, hs⟩
    · exact ⟨hflows, hnil ▸ flowless_nil⟩
  · rintro t ⟨hdb, hsame | hnil⟩
    · exact ⟨congrArg Tables.flows hdb, hsame ▸ hs⟩
    · exact ⟨congrArg Tables.flows hdb, hnil ▸ flowless_nil⟩

theorem keeps_note_flows (e : List NodeInstance → Event) : Keeps flowsFrame (note e) :=
  fun _ _ hs => ⟨rfl, hs⟩

theorem flowsFrame_inert : Inert flowsFrame where
  calm _ _ h hs := ⟨congrArg Tables.flows h.db, h.statements ▸ hs⟩
  node _ := keeps_push_flows rfl
  save := keeps_save_flows
  task _ _ _ := keeps_note_flows _
  status _ := keeps_note_flows _

-- An instance is written back behind the statements about nodes.
theorem wp_writeBack (env : Env) (hs : Flowless s.statements) (f : WorkflowInstance) :
    wp (updateFlow f >>= fun _ => saveChanged) env
      (fun _ t => t.statements = [] ∧ ∃ k, (s.statements = [] → k = s.calls + 2) ∧
        t.db.flows = restamped (env.stamp k) f s.db.flows) (fun _ => True) s := by
  unfold updateFlow
  rw [wp_bind, wp_bind]
  refine wp_mono (wp_call_exact env s) (fun k t ht => ?_) (fun _ _ => trivial)
  obtain ⟨-, -, rfl⟩ := ht
  have hpushed : wp (push (.updateFlow f)) env (fun _ t => t.db = s.db ∧ t.canDrop = false ∧
      t.calls = s.calls + 1 ∧ t.statements = s.statements ++ [.updateFlow f]) (fun _ => True)
      s.called := ⟨rfl, rfl, rfl, rfl⟩
  refine wp_mono hpushed (fun _ t ht => ?_) (fun _ _ => trivial)
  obtain ⟨hdb, hdrop, hcalls, hstatements⟩ := ht
  refine wp_mono (wp_save_tables (P := fun db => ∃ k, (s.statements = [] → k = s.calls + 2) ∧
    db.flows = restamped (env.stamp k) f s.db.flows) (fun htrue => ?_) fun u hu => ?_)
    (fun _ u hu => ?_) (fun _ _ => trivial)
  · rw [hdrop] at htrue
    cases htrue
  · rw [hstatements, hdb]
    refine wp_mono (wp_executeAll_restamped hs s.db u) (fun out _ hout db' heq => ?_) (fun _ he => he)
    obtain ⟨k, hk, hflows⟩ := hout db' heq
    exact ⟨k, fun hnil => by rw [hk hnil, hu, hcalls], hflows⟩
  · obtain ⟨hrows, ⟨htrue, -⟩ | hnil⟩ := hu
    · rw [hdrop] at htrue
      cases htrue
    · exact ⟨hnil, hrows⟩

end Rows

section Stages

-- The modification time that the row of the chosen instance has once its nodes are chosen: the
-- start of a workflow saves the instance first.
def chosenTime (env : Env) (s : World) (time : Nat) : ScheduleMode → Nat
  | .workflowInstanceId _ => env.stamp (s.calls + 3) time
  | .nodeInstanceId _ => time

structure Alike (spec : WorkflowInstanceSpec) (id : Uuid) (time : Nat)
    (rows : List WorkflowInstance) : Prop where
  present : ∃ row ∈ rows, row.id = id
  alike : ∀ row ∈ rows, row.id = id → row.spec = spec ∧ row.lastModifiedTime = time

structure Picked (env : Env) (mode : ScheduleMode) (s : World) (flow : WorkflowInstance)
    (t : World) : Prop where
  rows : Alike flow.spec flow.id (chosenTime env s flow.lastModifiedTime mode) t.db.flows
  flowless : Flowless t.statements

theorem alike_of_keyed (hk : (db.flows.map WorkflowInstance.id).Nodup) (hf : f ∈ db.flows) :
    Alike f.spec f.id f.lastModifiedTime db.flows := by
  refine ⟨⟨f, hf, rfl⟩, fun row hrow hid => ?_⟩
  rw [List.inj_on_of_nodup_map hk hrow hf hid]
  exact ⟨rfl, rfl⟩

theorem alike_restamped {rows : List WorkflowInstance} {spec : WorkflowInstanceSpec} {time : Nat}
    (stamp : Nat → Nat) (f : WorkflowInstance) (h : Alike spec f.id time rows) :
    Alike (if time = f.lastModifiedTime then f.spec else spec) f.id
      (if time = f.lastModifiedTime then stamp time else time) (restamped stamp f rows) := by
  obtain ⟨⟨row, hrow, hid⟩, halike⟩ := h
  refine ⟨⟨_, List.mem_map_of_mem hrow, ?_⟩, fun row' hrow' hid' => ?_⟩
  · split
    · exact hid
    · exact hid
  · obtain ⟨old, hold, rfl⟩ := List.mem_map.mp hrow'
    have holdId : old.id = f.id := by
      split at hid'
      · exact hid'
      · exact hid'
    obtain ⟨hspec, htime⟩ := halike old hold holdId
    by_cases hmatch : time = f.lastModifiedTime
    · rw [if_pos ⟨holdId, htime.trans hmatch⟩, if_pos hmatch, if_pos hmatch]
      exact ⟨rfl, congrArg stamp htime⟩
    · rw [if_neg fun hboth => hmatch (htime.symm.trans hboth.2), if_neg hmatch, if_neg hmatch]
      exact ⟨hspec, htime⟩

theorem wp_select_picked (hk : s.db.Keyed) (hs : s.statements = []) (mode : ScheduleMode) :
    wp (select mode) env (fun sel t => Picked env mode s sel.1 t) (fun _ => True) s := by
  have hnodup : (s.db.flows.map WorkflowInstance.id).Nodup := by
    have hflows := hk.flows
    rwa [Tables.plans, List.map_map] at hflows
  cases mode with
  | workflowInstanceId id =>
    change wp (selectFirst id) env _ _ s
    unfold selectFirst
    rw [wp_bind, wp_read, wp_bind]
    refine wp_mono (wp_result (getFlowById id) env s) (fun flow t hrun => ?_) (fun _ _ => trivial)
    obtain ⟨-, hfind, rfl⟩ := getFlowById_ok_iff.mp hrun
    have hrows := alike_of_keyed hnodup (List.mem_of_find?_eq_some hfind)
    have hback := wp_writeBack (s := s.called) env (hs ▸ flowless_nil) { flow with status := .running }
    rw [wp_bind] at hback ⊢
    refine wp_mono hback (fun _ t ht => ?_) (fun _ _ => trivial)
    rw [wp_bind]
    refine wp_mono ht (fun _ u hu => ?_) (fun _ _ => trivial)
    obtain ⟨hnil, k, hcalls, hflows⟩ := hu
    rw [wp_bind, wp_get, wp_bind]
    refine wp_mono ((Keeps.each (flowsFrame_inert.standByNode _) _).wp env u) (fun _ v hv => ?_)
      (fun _ _ => trivial)
    obtain ⟨hkept, hflowless⟩ := hv (hnil ▸ flowless_nil)
    refine ⟨?_, hflowless⟩
    rw [hkept, hflows, hcalls hs]
    have hmoved := alike_restamped (env.stamp (s.calls + 3)) { flow with status := .running } hrows
    rw [if_pos rfl, if_pos rfl] at hmoved
    exact hmoved
  | nodeInstanceId id =>
    change wp (selectNext id) env _ _ s
    unfold selectNext
    have hmid : Mid s.ids s.db (notices s.trace) [] [] s := .idle hs
    rw [wp_bind, wp_read, wp_bind]
    refine wp_mono ((keeps_isAllSame id).wp env s) (fun success t ht => ?_) (fun _ _ => trivial)
    cases success with
    | false => trivial
    | true =>
      rw [if_pos rfl, wp_bind]
      refine wp_mono (wp_and (wp_getFlowByNodeId (hmid.calm ht) id)
        ((keeps_getFlowByNodeId id).wp env t)) (fun flow u hu => ?_) (fun _ _ => trivial)
      obtain ⟨⟨-, hflow, -⟩, hcalm⟩ := hu
      rw [wp_bind]
      refine wp_mono ((keeps_selectNodes _).wp env u) (fun rows v hv => ?_) (fun _ _ => trivial)
      have hall : Calm s v := (Calm.trans ht hcalm).trans hv
      refine ⟨?_, ?_⟩
      · rw [hall.db]
        exact alike_of_keyed hnodup hflow
      · rw [hall.statements, hs]
        exact flowless_nil

theorem Picked.keep (h : Picked env mode s flow t) (hrel : flowsFrame.rel t u) :
    Picked env mode s flow u := by
  obtain ⟨hflows, hflowless⟩ := hrel h.flowless
  exact ⟨hflows ▸ h.rows, hflowless⟩

theorem wp_ready_picked (hk : s.db.Keyed) (hs : s.statements = []) (mode : ScheduleMode) :
    wp (ready mode) env (fun out t => ∀ p, out = some p → Picked env mode s p.1 t)
      (fun _ => True) s := by
  unfold ready
  rw [wp_bind]
  refine wp_mono (wp_select_picked hk hs mode) (fun sel t ht => ?_) (fun _ _ => trivial)
  split
  · exact wp_bind_any fun _ _ => nofun
  · rw [wp_bind]
    refine wp_mono ((flowsFrame_inert.keeps (Keeps.mapEach (keeps_prepareNode _ _) _)).wp env t)
      (fun outs u hu => ?_) (fun _ _ => trivial)
    have hmark : Keeps flowsFrame (Effect.each (fun (task : NodeSpec) => do
        let node ← getNodeById task.id
        updateNode { node with status := .running }) (outs.flatMap Prod.snd)) :=
      Keeps.each (fun _ => (flowsFrame_inert.keeps (keeps_getNodeById _)).bind fun _ =>
        flowsFrame_inert.updateNode _) _
    rw [wp_bind]
    refine wp_mono (hmark.wp env u) (fun _ v hv => ?_) (fun _ _ => trivial)
    rw [wp_bind]
    refine wp_mono (keeps_save_flows.wp env v) (fun _ x hx => ?_) (fun _ _ => trivial)
    rintro p ⟨⟩
    exact ((ht.keep hu).keep hv).keep hx

def Written (env : Env) (s : World) (mode : ScheduleMode) (flow : WorkflowInstance) : Prop :=
  chosenTime env s flow.lastModifiedTime mode = flow.lastModifiedTime

instance : Decidable (Written env s mode flow) := inferInstanceAs (Decidable (_ = _))

def kept (env : Env) (s : World) (mode : ScheduleMode) (flow : WorkflowInstance)
    (outs : List (NodeSpec × List NodeSpec)) : WorkflowInstanceSpec :=
  if Written env s mode flow then { flow.spec with nodeSpecs := outs.map Prod.fst } else flow.spec

theorem wp_sendAndStore_kept (h : Picked env mode s flow t)
    (outs : List (NodeSpec × List NodeSpec)) :
    wp (sendAndStore (some (flow, outs))) env (fun _ u => ∃ time,
      Alike (kept env s mode flow outs) flow.id time u.db.flows) (fun _ => True) t := by
  have hsend : Keeps flowsFrame (Effect.each sendUsecase (outs.flatMap Prod.snd)) :=
    Keeps.each (fun spec => flowsFrame_inert.sendUsecase (keeps_note_flows _)) _
  unfold sendAndStore
  rw [wp_bind]
  refine wp_mono (hsend.wp env t) (fun _ u hu => ?_) (fun _ _ => trivial)
  obtain ⟨hrows, hflowless⟩ := h.keep hu
  have hback := wp_writeBack env hflowless
    { flow with spec := { flow.spec with nodeSpecs := outs.map Prod.fst } }
  unfold store
  rw [wp_bind] at hback ⊢
  refine wp_mono hback (fun _ v hv => ?_) (fun _ _ => trivial)
  rw [wp_bind]
  refine wp_mono hv (fun _ x hx => ?_) (fun _ _ => trivial)
  obtain ⟨-, k, -, hflows⟩ := hx
  have hmoved := alike_restamped (env.stamp k)
    { flow with spec := { flow.spec with nodeSpecs := outs.map Prod.fst } } hrows
  rw [← hflows] at hmoved
  exact ⟨_, hmoved⟩

end Stages

section Listing

variable {n n' : NodeSpec} {tasks : List NodeSpec} {slot : NodeSpecOutputSlot} {i : Nat}
  {outs : List (NodeSpec × List NodeSpec)} {ids iter : Nat → Uuid} {relations : List NodeRelation}

def Lists (tasks : List NodeSpec) (slot : NodeSpecOutputSlot) : Prop :=
  List.Forall₂ (fun task id => ∃ own, task.outputSlot slot.descriptor = .ok own ∧
    own.prepared = [id]) tasks slot.prepared

-- The row of the instance holds, at the place of the node, the ids of the tasks.
def StoresIds (t : World) (flow : WorkflowInstance) (i : Nat) (tasks : List NodeSpec) : Prop :=
  ∃ row ∈ t.db.flows, row.id = flow.id ∧ ∃ m, row.spec.nodeSpecs[i]? = some m ∧
    ∀ slot ∈ m.outputSlots, Lists tasks slot

theorem Debatched.drawn (h : Debatched ids iter db relations n tasks) {task : NodeSpec}
    (htask : task ∈ tasks) :
    ∀ own ∈ task.outputSlots, ∃ id, own.prepared = [id] ∧ Drawn ids iter id :=
  (h.parent htask).2

theorem Debatched.lists (h : Debatched ids iter db relations n tasks) {descriptor : String}
    {news : List Uuid} (hnews : List.Forall₂ (Heads descriptor) tasks news) :
    List.Forall₂ (fun task id => ∃ own, task.outputSlot descriptor = .ok own ∧
      own.prepared = [id]) tasks news := by
  have hboth := (List.forall₂_and_left tasks news).mpr ⟨fun task htask => h.drawn htask, hnews⟩
  refine hboth.imp fun task id ⟨hdrawn, own, hown, hid⟩ => ⟨own, hown, ?_⟩
  obtain ⟨id', hsingle, -⟩ := hdrawn own (outputSlot_mem hown)
  rw [hsingle] at hid ⊢
  rw [Option.some.inj hid]

theorem lists_nil : Lists [] slot ↔ slot.prepared = [] := List.forall₂_nil_left_iff

theorem forall₂_getElem? {α β : Type} {R : α → β → Prop} {xs : List α} {ys : List β} {x : α} {y : β}
    (h : List.Forall₂ R xs ys) (hx : xs[i]? = some x) (hy : ys[i]? = some y) : R x y := by
  induction h generalizing i with
  | nil => simp at hx
  | cons hone _ ih =>
    cases i with
    | zero =>
      cases hx
      cases hy
      exact hone
    | succ i => exact ih hx hy

theorem Debatched.collected (h : Debatched ids iter db relations n tasks)
    {slots : List NodeSpecOutputSlot} (hcollect : collectPrepared true tasks n.outputSlots = .ok slots) :
    (∀ slot ∈ slots, Lists tasks slot) ↔ tasks = [] → ∀ slot ∈ n.outputSlots, slot.prepared = [] := by
  have hheads := collectPrepared_heads hcollect
  cases tasks with
  | nil =>
    cases hcollect
    simp only [lists_nil, true_imp_iff]
  | cons task tasks =>
    refine iff_of_true (fun slot hslot => ?_) nofun
    obtain ⟨old, -, hdescriptor, news, hnews, hprepared⟩ := exists_of_forall₂ hheads hslot
    have hlists := h.lists hnews
    rw [Lists, hdescriptor, hprepared]
    exact hlists

-- Ids drawn in the call are in no slot the instance had before.
theorem Debatched.unlisted (h : Debatched ids iter db relations n tasks)
    (hold : ∀ slot ∈ n.outputSlots, ∀ id ∈ slot.prepared, ¬Drawn ids iter id)
    (hlists : ∀ slot ∈ n.outputSlots, Lists tasks slot) : tasks = [] ∨ n.outputSlots = [] := by
  cases tasks with
  | nil => exact .inl rfl
  | cons task tasks =>
    refine .inr (List.eq_nil_iff_forall_not_mem.mpr fun slot hslot => ?_)
    obtain ⟨id, rest, ⟨own, hown, hid⟩, -, hprepared⟩ :=
      List.forall₂_cons_left_iff.mp (hlists slot hslot)
    obtain ⟨id', hsingle, hdrawn⟩ := h.drawn List.mem_cons_self own (outputSlot_mem hown)
    rw [hid] at hsingle
    cases hsingle
    exact hold slot hslot id (hprepared ▸ List.mem_cons_self) hdrawn

theorem wp_sendAndStore_handed {sent : List NodeSpec} (h : ∃ ns, Mid ids t.db ns [] [] t)
    (hk : t.db.Keyed) (hs : Still t.db.specs sent t) (hflow : (flow.id, flow.spec) ∈ t.db.specs) :
    wp (sendAndStore (some (flow, outs))) env
      (fun _ u => handed u = sent ++ outs.flatMap Prod.snd) (fun _ => True) t := by
  unfold sendAndStore
  rw [wp_bind]
  refine wp_mono (wp_sends h hk hs _) (fun _ u hu => ?_) (fun _ _ => trivial)
  obtain ⟨-, hmid, hsending⟩ := hu
  exact wp_mono (wp_store hmid hsending.still hk.specs hflow) (fun _ v hv => hv.2.1)
    (fun _ _ => trivial)

theorem storesIds_iff {spec : WorkflowInstanceSpec} {time : Nat} {m : NodeSpec}
    (h : Alike spec flow.id time t.db.flows) (hm : spec.nodeSpecs[i]? = some m) :
    StoresIds t flow i tasks ↔ ∀ slot ∈ m.outputSlots, Lists tasks slot := by
  constructor
  · rintro ⟨row, hrow, hid, m', hm', hlists⟩
    rw [(h.alike row hrow hid).1, hm] at hm'
    cases hm'
    exact hlists
  · intro hlists
    obtain ⟨row, hrow, hid⟩ := h.present
    refine ⟨row, hrow, hid, m, ?_, hlists⟩
    rw [(h.alike row hrow hid).1]
    exact hm

theorem Session.keyed (h : Session w s) (hs : Sound w) : s.db.Keyed := by
  have hkeyed := hs.keyed
  refine ⟨h.places ▸ hkeyed.nodes, ?_⟩
  have hids : s.db.specs.map Prod.fst = s.db.plans.map Plan.id := by
    rw [Tables.specs, Tables.plans, List.map_map, List.map_map]
    rfl
  rw [← hids, h.specs]
  exact hkeyed.specs

theorem Session.still (h : Session w s) : Still s.db.specs (handed s) s := by
  refine ⟨⟨rfl, fun f hf => ?_⟩, rfl⟩
  rw [h.statements] at hf
  exact absurd hf List.not_mem_nil

theorem Session.undrawn (h : Session w s) (hunspent : Unspent w) {id : Uuid}
    (hid : s.db.specs.Prepared id) : ¬Drawn s.ids iter id := by
  rintro ⟨k, -, -, -, rfl⟩
  obtain ⟨l, hl⟩ := h.ids
  rw [h.specs, hl] at hid
  exact hunspent (l + k) hid

theorem stored_ids_iff (hids : Function.Injective ids) (files : Files) (qs : List Request)
    (hw : run (step env) (World.start ids files) qs = w) (hsession : Session w s) {env' : Env}
    (hrun : scheduleNextNodes mode env' s = (.ok (), t))
    (hready : ready mode env' s = (.ok (some (flow, outs)), u))
    (hn : flow.spec.nodeSpecs[i]? = some n) (hbatch : n.batchStrategies ≠ [])
    (hout : outs[i]? = some (n', n :: tasks)) :
    newly s t = outs.flatMap Prod.snd ∧
      (StoresIds t flow i tasks ↔
        if tasks = [] then ∀ slot ∈ n.outputSlots, slot.prepared = []
        else Written env' s mode flow ∨ n.outputSlots = []) := by
  have hs : Sound w := hw ▸ run_sound (start_sound hids files) qs
  have hunspent : Unspent w := hw ▸ run_unspent hids files qs
  have hkeyed := hsession.keyed hs
  have hreadied : wp (ready mode) env' _ _ s :=
    wp_ready (.idle hsession.statements) hkeyed hsession.still mode
  rw [wp_of_eq hready] at hreadied
  obtain ⟨hstill, hgives⟩ := hreadied
  obtain ⟨⟨hspec, ⟨entries, db', -, -, houts⟩, -⟩, ⟨ms, fs, -, hcommit⟩, ns, hmid⟩ := hgives _ rfl
  have hspecs : u.db.specs = s.db.specs := hstill.steady.specs_eq
  have hpicked : wp (ready mode) env' _ _ s := wp_ready_picked hkeyed hsession.statements mode
  rw [wp_of_eq hready] at hpicked
  rw [scheduleNextNodes_eq, bind_of_ok hready] at hrun
  have hkept := wp_sendAndStore_kept (hpicked _ rfl) outs
  rw [wp_of_eq hrun] at hkept
  obtain ⟨time, halike⟩ := hkept
  refine ⟨?_, ?_⟩
  · have hhanded : wp (sendAndStore (some (flow, outs))) env' _ _ u := wp_sendAndStore_handed
      ⟨ns, hmid.rebase⟩ (hcommit.keyed hkeyed) (hspecs ▸ hstill) (hspecs ▸ hspec)
    rw [wp_of_eq hrun] at hhanded
    exact newly_of_append hhanded
  · cases forall₂_getElem? houts hn hout with
    | plain _ _ hplain _ => exact absurd hplain hbatch
    | batch _ slots _ _ htasks hcollect =>
      unfold kept at halike
      by_cases hwritten : Written env' s mode flow
      · rw [if_pos hwritten] at halike
        have hm : (outs.map Prod.fst)[i]? = some { n with outputSlots := slots } := by
          rw [List.getElem?_map, hout]
          rfl
        rw [storesIds_iff halike hm, htasks.collected hcollect]
        split
        · next hnil => exact ⟨fun h => h hnil, fun h _ => h⟩
        · next hsome => exact iff_of_true (fun hnil => absurd hnil hsome) (.inl hwritten)
      · rw [if_neg hwritten] at halike
        rw [storesIds_iff halike hn]
        split
        · next hnil =>
          subst hnil
          simp only [lists_nil]
        · next hsome =>
          have hn' : n ∈ flow.spec.nodeSpecs := List.mem_of_getElem? hn
          have hold : ∀ slot ∈ n.outputSlots, ∀ id ∈ slot.prepared, ¬Drawn s.ids u.ids id :=
            fun slot hslot id hid => hsession.undrawn hunspent ⟨_, hspec, n, hn', slot, hslot, hid⟩
          constructor
          · exact fun hlists => .inr ((htasks.unlisted hold hlists).resolve_left hsome)
          · intro h
            rw [h.resolve_left hwritten]
            exact fun _ hslot => absurd hslot List.not_mem_nil

end Listing

section Samples

instance (task : NodeSpec) (descriptor : String) (id : Uuid) :
    Decidable (∃ own, task.outputSlot descriptor = .ok own ∧ own.prepared = [id]) :=
  match task.outputSlot descriptor with
  | .ok own => decidable_of_iff (own.prepared = [id])
    ⟨fun hid => ⟨own, rfl, hid⟩, fun ⟨_, heq, hid⟩ => Outcome.ok.inj heq ▸ hid⟩
  | .err _ => .isFalse fun ⟨_, heq, _⟩ => nomatch heq
  | .panic => .isFalse fun ⟨_, heq, _⟩ => nomatch heq

instance (tasks : List NodeSpec) (slot : NodeSpecOutputSlot) : Decidable (Lists tasks slot) :=
  inferInstanceAs (Decidable (List.Forall₂ _ _ _))

def submittedIn (draft : WorkflowDraft) : World :=
  run (step (sameSecond draft)) (.start sampleIds sampleFiles) (sampleRequests draft [])

def readiedIn (draft : WorkflowDraft) :
    Anyhow (Option (WorkflowInstance × List (NodeSpec × List NodeSpec))) × World :=
  ready (.workflowInstanceId 100) (sameSecond draft) ((submittedIn draft).open none)

def readiedOutputs (draft : WorkflowDraft) :
    Option (WorkflowInstance × List (NodeSpec × List NodeSpec)) :=
  (readiedIn draft).1.toOption.join

def scheduledIn (draft : WorkflowDraft) : Anyhow Unit × World :=
  scheduleNextNodes (.workflowInstanceId 100) (sameSecond draft) ((submittedIn draft).open none)

theorem readied_of_outputs {draft : WorkflowDraft} {p : WorkflowInstance × List (NodeSpec × List NodeSpec)}
    (h : readiedOutputs draft = some p) : ∃ u, readiedIn draft = (.ok (some p), u) := by
  unfold readiedOutputs at h
  generalize readiedIn draft = out at h ⊢
  obtain ⟨o, u⟩ := out
  obtain ⟨x, hx, rfl⟩ : ∃ x, o.toOption = some x ∧ x = some p := by
    cases o with
    | ok x => exact ⟨x, rfl, h⟩
    | err e => cases h
    | panic => cases h
  exact ⟨u, by rw [Outcome.toOption_eq_some_iff.mp hx]⟩

theorem batched_ids_stored : ∃ flow tasks t, tasks.length = 3 ∧ scheduledIn batched = (.ok (), t) ∧
    tasks ⊆ newly ((submittedIn batched).open none) t ∧ StoresIds t flow 0 tasks := by
  have hreadied : ∃ p ∈ readiedOutputs batched, ∃ n ∈ p.1.spec.nodeSpecs[0]?, ∃ out ∈ p.2[0]?,
      n.batchStrategies ≠ [] ∧ out.2 = n :: out.2.tail ∧ out.2.tail.length = 3 := by decide +kernel
  have hok : (scheduledIn batched).1 = .ok () := by decide +kernel
  generalize batched = draft at hreadied hok ⊢
  obtain ⟨⟨flow, outs⟩, hp, n, hn, ⟨n', tasks⟩, hout, hbatch, htasks, hlen⟩ := hreadied
  obtain ⟨u, hready⟩ := readied_of_outputs hp
  have hrun : scheduledIn draft = (.ok (), (scheduledIn draft).2) := Prod.ext hok rfl
  have hsession : Session (submittedIn draft) ((submittedIn draft).open none) :=
    ⟨rfl, rfl, rfl, .refl _⟩
  change tasks = n :: tasks.tail at htasks
  rw [htasks] at hout
  obtain ⟨hnewly, hstored⟩ := stored_ids_iff sampleIds_injective sampleFiles _ rfl hsession hrun hready
    hn hbatch hout
  have hsome : tasks.tail ≠ [] := List.ne_nil_of_length_pos (by rw [hlen]; decide)
  rw [if_neg hsome] at hstored
  refine ⟨flow, tasks.tail, _, hlen, hrun, fun task htask => ?_, hstored.mpr (.inl rfl)⟩
  rw [hnewly]
  exact List.mem_flatMap.mpr ⟨_, List.mem_of_getElem? hout, List.mem_cons_of_mem n htask⟩

def unfilled : WorkflowDraft := sampleDraft
  [sampleNode 1 (filledSlot "t") (some (.matchRegex "#" 0 (.autoNumber 0 1))) "o"] []

theorem stale_id_stays :
    unfilled.spec.validateWorkflowDraft (fun _ => true) = .ok () ∧
      (handed (startSample unfilled)).map NodeSpec.id = [101] ∧
      (∃ f ∈ (startSample unfilled).db.flows, ∃ n ∈ f.spec.nodeSpecs, n.id = 101 ∧
        n.batchStrategies ≠ [] ∧ ∃ slot ∈ n.outputSlots, ¬Lists [] slot) ∧
      (handed (runSample batched started)).map NodeSpec.id = [101, 105, 106, 107] ∧
      ∃ f ∈ (runSample batched started).db.flows, ∃ n ∈ f.spec.nodeSpecs, n.id = 101 ∧
        ∃ slot ∈ n.outputSlots, ¬Lists ((handed (runSample batched started)).drop 1) slot := by
  decide +kernel

end Samples

end Kuintessence

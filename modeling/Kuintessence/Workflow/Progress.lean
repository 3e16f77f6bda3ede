import Kuintessence.Workflow.Agreement
import Kuintessence.Workflow.Starting

namespace Kuintessence

open EdgeList Effect StatusReceiver WorkflowService

variable {env : Env} {w w' s : World} {p : Plan} {n m : NodeInstance} {ms : List NodeMark}
  {fs : List FlowMark} {news : List Cell → List Notice} {entries tasks : List Uuid}
  {id flow x : Uuid}

section Heeded

variable {ids : Nat → Uuid} {db : Tables} {ns : List Notice}

theorem wp_finish_ends (h : Mid ids db ns [] [] s) (hk : db.Keyed) {f : WorkflowInstance}
    (hf : f ∈ db.flows) :
    wp (finish f) env (fun _ t => FlowIs f.id .finished t) (fun _ => True) s := by
  have hmem := Tables.mem_plans hf
  have hplan : ({ f with status := .finished } : WorkflowInstance).plan ∈ db.plans := hmem
  unfold finish
  rw [wp_bind]
  refine wp_mono (wp_updateFlow_last h hplan) (fun _ t hupdate => ?_) (fun _ _ => trivial)
  obtain ⟨ht, hlast⟩ := hupdate
  rw [wp_bind]
  refine wp_mono (wp_save ht.canDrop) (fun _ u hsaved => ?_) (fun _ _ => trivial)
  rw [← ht.db_eq] at hf hk
  exact hsaved.status_of_lasts hlast hk hf rfl rfl

theorem wp_scheduleAfter_ends (h : Mid ids db ns [] [] s) (hk : db.Keyed) (reported : Uuid) :
    wp (scheduleNextNodes (.nodeInstanceId reported)) env
      (fun _ t => ∃ f entries, Selected db reported f entries ∧
        ((entries = [] ∧ Finishing ids db ns [] [] f.id t ∧ FlowIs f.id .finished t) ∨
          (entries ≠ [] ∧ ∃ tasks, Tasks db.places f.plan entries tasks ∧
            Between ids db ns (running tasks) [(f.id, f.status)] (fun cs => sentAll cs tasks) t)))
      (fun _ => True) s := by
  unfold scheduleNextNodes
  rw [wp_bind]
  refine wp_mono (wp_selectNext h reported) (fun sel t hselect => ?_) (fun _ _ => trivial)
  obtain ⟨ht, hflow, hof, hgate, hfreed⟩ := hselect
  have hselected : Selected db reported sel.1 sel.2 := ⟨hflow, hof, hgate, hfreed⟩
  have hplan := Tables.mem_plans hflow
  split
  · next hnil =>
    rw [List.isEmpty_iff] at hnil
    exact wp_mono (wp_and (wp_finish ht hk hplan) (wp_finish_ends ht hk hflow))
      (fun _ u hu => ⟨_, _, hselected, .inl ⟨hnil, hu.1, hu.2⟩⟩) (fun _ _ => trivial)
  · next hne =>
    rw [List.isEmpty_iff] at hne
    exact wp_mono (wp_dispatch ht hk hplan sel.2)
      (fun _ u hu => ⟨_, _, hselected, .inr ⟨hne, hu⟩⟩) (fun _ _ => trivial)

inductive Heeded (w : World) (result : TaskResult) (w' : World) : Prop where
  | finished (p : Plan) (chosen : Chosen w result.id p []) (ends : FlowIs p.id .finished w')
      (turn : Turn [(result.id, .finished)] [(p.id, .finished)]
        (fun cs => [.finished p.id cs]) w w')
  | dispatched (f : WorkflowInstance) (entries tasks : List Uuid) (hf : f ∈ w.db.flows)
      (chosen : Chosen w result.id f.plan entries) (entered : entries ≠ [])
      (htasks : Tasks w.db.places f.plan entries tasks)
      (turn : Turn ((result.id, .finished) :: running tasks) [(f.id, f.status)]
        (fun cs => sentAll cs tasks) w w')

theorem wp_bill_save (h : Between ids db ns ms fs news s) (hk : db.Keyed) (id : Uuid) :
    wp (billNode id) env (fun _ t => wp saveChanged env
      (fun _ u => Between ids db ns ms fs news u) (fun _ => True) t) (fun _ => True) s :=
  wp_mono (wp_between h fun _ _ hs => wp_billNode hs id)
    (fun _ _ ht => wp_mono (wp_save_between ht hk) (fun _ _ hu => hu) (fun _ _ => trivial))
    (fun _ _ => trivial)

theorem wp_bill_save_ends (h : Mid ids db ns [] [] s) (hk : db.Keyed) (id : Uuid)
    {status : WorkflowInstanceStatus} (hends : FlowIs flow status s) :
    wp (billNode id) env (fun _ t => wp saveChanged env
      (fun _ u => FlowIs flow status u) (fun _ => True) t) (fun _ => True) s := by
  refine wp_mono (wp_billNode h id) (fun _ t ht => ?_) (fun _ _ => trivial)
  refine wp_mono (wp_saveChanged ht hk) (fun _ u hsaved => ?_) (fun _ _ => trivial)
  obtain ⟨db', hc, hu⟩ := hsaved
  rw [← h.db_eq, ← hu.db_eq] at hc
  exact hc.flowIs hends fun _ hm => absurd hm List.not_mem_nil

theorem wp_followUp_ends {result : TaskResult} (hs : result.status = .success) (hk : w.db.Keyed)
    (hc : Commit [(result.id, .finished)] [] w.db db)
    (h : Mid w.ids db (notices w.trace) [] [] s) (flow : Uuid) :
    wp (followUp result flow) env (fun _ t => wp saveChanged env
      (fun _ u => Heeded w result u) (fun _ => True) t) (fun _ => True) s := by
  have hkeyed := hc.keyed hk
  unfold followUp
  simp only [hs]
  rw [wp_bind]
  refine wp_mono (wp_scheduleAfter_ends h hkeyed result.id) (fun _ t hscheduled => ?_)
    (fun _ _ => trivial)
  obtain ⟨f, entries, hsel, ⟨rfl, ht, hends⟩ | ⟨hne, tasks, htasks, ht⟩⟩ := hscheduled
  · obtain ⟨db', hc', hmid⟩ := ht
    have hbetween : Finishing w.ids db (notices w.trace) [] [] f.id t := ⟨db', hc', hmid⟩
    refine wp_mono (wp_and (wp_bill_save hbetween hkeyed result.id)
      (wp_bill_save_ends hmid (hc'.keyed hkeyed) result.id hends)) (fun _ u hu => ?_)
      (fun _ _ => trivial)
    refine wp_mono (wp_and hu.1 hu.2) (fun _ v hv => ?_) (fun _ _ => trivial)
    exact .finished f.plan (hsel.chosen hk hc) hv.2 (hv.1.after.trans hc).turn
  · refine wp_mono (wp_bill_save ht hkeyed result.id) (fun _ u hu => ?_) (fun _ _ => trivial)
    refine wp_mono hu (fun _ v hv => ?_) (fun _ _ => trivial)
    have hchosen := hsel.chosen hk hc
    obtain ⟨g, hg, hplan, hstatus⟩ := hc.moves.status_mem hsel.flow_mem
    have hflow : g.id = f.id := congrArg Plan.id hplan
    have hturn := (hv.after.trans hc).turn
    rw [hc.places] at htasks
    rw [← hplan] at hchosen htasks
    rw [← hflow, ← hstatus] at hturn
    exact .dispatched g entries tasks hg hchosen hne htasks hturn

theorem handle_success (hk : w.db.Keyed) {result : TaskResult} (hs : result.status = .success)
    {u : Unit} (hok : (Request.handle env w (.receive result)).1 = .ok u) :
    Heeded w result (step env w (.receive result)) := by
  have hwp : wp (Request.receive result).serve env (fun _ t => Heeded w result t) (fun _ => True)
      (w.open none) := by
    change wp (receiveNodeStatus result) env _ _ _
    rw [wp_receiveNodeStatus_eq]
    refine wp_mono (wp_saveReport hk none result) (fun n t hsave => ?_) (fun _ _ => trivial)
    obtain ⟨-, -, db, hc, ht⟩ := hsave
    rw [hs] at hc
    exact wp_followUp_ends hs hk hc ht n.flowInstanceId
  exact handle_of_wp hwp hok

end Heeded

section Frames

def Clear (flow : Uuid) (w : World) (ms : List NodeMark) : Prop :=
  ∀ m ∈ w.db.nodes, m.flowInstanceId = flow → ∀ status, (m.id, status) ∉ ms

structure Untouched (flow : Uuid) (w w' : World) : Prop where
  forth : ∀ m ∈ w.db.nodes, m.flowInstanceId = flow →
    ∃ n ∈ w'.db.nodes, n.place = m.place ∧ n.status = m.status
  back : ∀ n ∈ w'.db.nodes, n.flowInstanceId = flow →
    ∃ m ∈ w.db.nodes, m.place = n.place ∧ n.status = m.status
  status : ∀ status, FlowIs flow status w → FlowIs flow status w'
  handed : handOvers w <+: handOvers w'

theorem Turn.node_after (h : Turn ms fs news w w') (hm : m ∈ w.db.nodes) :
    ∃ n ∈ w'.db.nodes, n.place = m.place ∧ n.status = overwrite ms m.id m.status := by
  have hcell : settle ms m.cell ∈ cells w'.db.nodes :=
    h.mem_cells.mpr ⟨m.cell, List.mem_map_of_mem hm, rfl⟩
  obtain ⟨n, hn, heq⟩ := List.mem_map.mp hcell
  exact ⟨n, hn, congrArg Prod.fst heq, congrArg Prod.snd heq⟩

theorem Turn.handed (h : Turn ms fs news w w') : handOvers w <+: handOvers w' := by
  rw [handOvers_append h.notices_eq]
  exact List.prefix_append _ _

theorem overwrite_eq_of_notMem {status : NodeInstanceStatus} (h : ∀ s, (x, s) ∉ ms) :
    overwrite ms x status = status := overwrite_mem.resolve_right (h _)

theorem Turn.untouched (h : Turn ms fs news w w') (hms : Clear flow w ms)
    (hfs : ∀ m ∈ fs, m.1 ≠ flow) : Untouched flow w w' := by
  refine ⟨fun m hm hflow => ?_, fun n hn hflow => ?_, fun status hw => ?_, h.handed⟩
  · obtain ⟨n, hn, hplace, hstatus⟩ := h.node_after hm
    rw [overwrite_eq_of_notMem (hms m hm hflow)] at hstatus
    exact ⟨n, hn, hplace, hstatus⟩
  · obtain ⟨m, hm, hplace, hstatus⟩ := h.exists_node hn
    rw [overwrite_eq_of_notMem (hms m hm ((congrArg Place.flow hplace).trans hflow))] at hstatus
    exact ⟨m, hm, hplace, hstatus⟩
  · exact h.flowIs hw fun m hm heq => absurd heq (hfs m hm)

theorem Clear.nil : Clear flow w [] := fun _ _ _ _ => List.not_mem_nil

theorem Clear.append {ms' : List NodeMark} (h : Clear flow w ms) (h' : Clear flow w ms') :
    Clear flow w (ms ++ ms') := fun m hm hflow status hmem =>
  (List.mem_append.mp hmem).elim (h m hm hflow status) (h' m hm hflow status)

theorem Turn.untouched_lost (h : Turn [] [] silent w w') : Untouched flow w w' :=
  h.untouched .nil fun _ hm => absurd hm List.not_mem_nil

theorem About.ids_ne {statuses : List WorkflowInstanceStatus} (h : About id statuses fs)
    (hne : id ≠ flow) : ∀ m ∈ fs, m.1 ≠ flow := fun m hm heq => hne ((h m hm).1.symm.trans heq)

theorem Tasks.clear (h : Tasks w.db.places p entries tasks) (hs : Sound w) (hp : p ∈ w.db.plans)
    (hne : p.id ≠ flow) : Clear flow w (running tasks) := fun _ hm hflow _ hmark =>
  h.notMem_elsewhere hs hp hne hm hflow (status_of_mem_running hmark).1

theorem AllOf.clear {rows : List Place} (h : AllOf w id rows) (hs : Sound w) (hne : id ≠ flow) :
    Clear flow w (pending rows) := by
  intro m hm hflow status hmark
  obtain ⟨c, hc, heq⟩ := List.mem_map.mp hmark
  have hrow := List.mem_filter.mp (h.mem_iff.mp hc)
  rw [beq_iff_eq, hs.layout.place_eq hrow.1 (Tables.mem_places hm) (congrArg Prod.fst heq)] at hrow
  exact hne (hrow.2.symm.trans hflow)

theorem Entering.clear {f : WorkflowInstance} {ls : List (List Uuid)}
    (h : Entering w.db id f entries ls) (hs : Sound w) (hne : id ≠ flow) :
    Clear flow w (standing ls) := by
  intro m hm hflow status hmark
  have hhome := h.standing_home hs.layout (Tables.mem_places hm) hmark
  exact hne (h.flow_id.symm.trans ((hs.layout.flow_of_home h.flow_plan (Tables.mem_places hm)
    hhome.1).symm.trans hflow))

theorem Started.untouched (h : Started w id w') (hs : Sound w) (hne : id ≠ flow) :
    Untouched flow w w' := by
  cases h with
  | lost turn => exact turn.untouched_lost
  | reset rows fs hrows hfs turn => exact turn.untouched (hrows.clear hs hne) (hfs.ids_ne hne)
  | carried h =>
    cases h with
    | finished rows f ls fs hrows entering hfs turn =>
      exact turn.untouched ((hrows.clear hs hne).append (entering.clear hs hne)) (hfs.ids_ne hne)
    | dispatched rows f entries ls tasks sent fs hrows entering entered htasks hsent hwhole hfs
        turn =>
      have hother : f.plan.id ≠ flow := fun heq => hne (entering.flow_id.symm.trans heq)
      have htouched := (entering.clear hs hne).append (htasks.clear hs entering.flow_plan hother)
      exact turn.untouched ((hrows.clear hs hne).append htouched) (hfs.ids_ne hne)

theorem Operated.untouched {flowStatus : WorkflowInstanceStatus} {status : NodeInstanceStatus}
    {affected : NodeInstanceStatus → Bool} (h : Operated w flowStatus status affected id w')
    (hs : Sound w) (hne : id ≠ flow) : Untouched flow w w' := by
  cases h with
  | lost turn => exact turn.untouched_lost
  | operated rows hrows turn =>
    refine turn.untouched (fun m hm hflow status hmark => ?_) fun m hm heq => ?_
    · obtain ⟨c, hc, heq⟩ := List.mem_map.mp hmark
      have hrow := List.mem_filter.mp (hrows.mem_iff.mp hc)
      rw [Bool.and_eq_true, beq_iff_eq, hs.layout.place_eq (mem_places_of_cells hrow.1)
        (Tables.mem_places hm) (congrArg Prod.fst heq)] at hrow
      exact hne (hrow.2.1.symm.trans hflow)
    · rw [List.mem_singleton.mp hm] at heq
      exact hne heq

theorem Received.untouched {result : TaskResult} (h : Received w result w') (hs : Sound w)
    (hother : ∀ n ∈ w.db.nodes, n.id = result.id → n.flowInstanceId ≠ flow) :
    Untouched flow w w' := by
  have hclear : ∀ status, Clear flow w [(result.id, status)] := fun _ m hm hflow _ hmark =>
    hother m hm (congrArg Prod.fst (List.mem_singleton.mp hmark)) hflow
  have hne : ∀ p entries, Chosen w result.id p entries → p.id ≠ flow := by
    intro p entries hchosen heq
    obtain ⟨n, hn, hid, hflow⟩ := hchosen.node
    exact hother n hn hid (hflow.trans heq)
  cases h with
  | lost turn => exact turn.untouched_lost
  | taken h =>
    cases h with
    | kept c hc hid fs hfs turn =>
      obtain ⟨n, hn, rfl⟩ := node_of_place hc
      exact turn.untouched (hclear _) (hfs.ids_ne (hother n hn hid))
    | finished p success chosen turn =>
      refine turn.untouched (hclear _) fun m hm heq => ?_
      rw [List.mem_singleton.mp hm] at heq
      exact hne p [] chosen heq
    | dispatched f entries tasks sent success hflow chosen entered htasks hsent turn =>
      have hfne := hne f.plan entries chosen
      refine turn.untouched ((hclear _).append (htasks.clear hs chosen.plan_mem hfne))
        fun m hm heq => ?_
      rw [List.mem_singleton.mp hm] at heq
      exact hfne heq

theorem Submission.untouched {draftId : Uuid} (h : Submission env w.db.used draftId w w')
    (hknown : ∃ p ∈ w.db.plans, p.id = flow) : Untouched flow w w' := by
  obtain ⟨p, hp, hid⟩ := hknown
  have hused : flow ∈ w.db.used := hid ▸ Tables.id_mem_used hp
  cases h with
  | lost turn => exact turn.untouched_lost
  | inserted draft k f rows kept hdraft entry hkept inserted =>
    refine ⟨fun m hm _ => ⟨m, ?_, rfl, rfl⟩, fun n hn hflow => ⟨n, ?_, rfl, rfl⟩,
      fun status hw => ?_, ?_⟩
    · rw [inserted.nodes]
      exact List.mem_append_left _ hm
    · rw [inserted.nodes] at hn
      refine (List.mem_append.mp hn).resolve_right fun hn => entry.fresh.1 ?_
      have hsame : f.plan.id = flow :=
        (entry.parsed.flow n (kept_subset hkept hn)).1.symm.trans hflow
      rw [hsame]
      exact hused
    · exact (Submission.inserted draft k f rows kept hdraft entry hkept inserted).flowIs hw hused
    · rw [handOvers_eq, handOvers_eq, inserted.notices_eq]

end Frames

def RootRuns (flow : Uuid) (w : World) : Prop :=
  ∃ n ∈ w.db.nodes, n.flowInstanceId = flow ∧ n.batchParentId = none ∧ n.status = .running

structure Driven (flow : Uuid) (w : World) : Prop where
  known : ∃ p ∈ w.db.plans, p.id = flow
  nodes : ∀ n ∈ w.db.nodes, n.flowInstanceId = flow →
    n.status = .running ∨ n.status = .standby ∨ n.status = .finished
  waits : ∀ n ∈ w.db.nodes, n.flowInstanceId = flow → ∀ m ∈ w.db.nodes, n.place.home = m.id →
    m.status = .standby → n.status = .standby
  handed : ∀ n ∈ w.db.nodes, n.flowInstanceId = flow → n.status = .running → n.id ∈ handOvers w
  phase : FlowIs flow .running w ∧ RootRuns flow w ∨ FlowIs flow .finished w ∧ ¬RootRuns flow w

def RowIds (flow : Uuid) (rows : List Uuid) (w : World) : Prop :=
  ∀ x, x ∈ rows ↔ ∃ n ∈ w.db.nodes, n.id = x ∧ n.flowInstanceId = flow

def Heard (flow : Uuid) (heard : List Uuid) (w : World) : Prop :=
  ∀ n ∈ w.db.nodes, n.flowInstanceId = flow → (n.status = .finished ↔ n.id ∈ heard)

structure Progress (flow : Uuid) (rows heard : List Uuid) (w : World) : Prop where
  driven : Driven flow w
  seats : RowIds flow rows w
  finished : Heard flow heard w
  nodup : heard.Nodup

variable {rows heard : List Uuid}

theorem RootRuns.untouched (h : Untouched flow w w') : RootRuns flow w ↔ RootRuns flow w' := by
  constructor
  · rintro ⟨m, hm, hflow, hroot, hrunning⟩
    obtain ⟨n, hn, hplace, hstatus⟩ := h.forth m hm hflow
    exact ⟨n, hn, (congrArg Place.flow hplace).trans hflow,
      (congrArg Place.parent hplace).trans hroot, hstatus.trans hrunning⟩
  · rintro ⟨n, hn, hflow, hroot, hrunning⟩
    obtain ⟨m, hm, hplace, hstatus⟩ := h.back n hn hflow
    exact ⟨m, hm, (congrArg Place.flow hplace).trans hflow,
      (congrArg Place.parent hplace).trans hroot, hstatus.symm.trans hrunning⟩

theorem RowIds.keep (hrows : RowIds flow rows w)
    (hforth : ∀ m ∈ w.db.nodes, m.flowInstanceId = flow → ∃ n ∈ w'.db.nodes, n.place = m.place)
    (hback : ∀ n ∈ w'.db.nodes, n.flowInstanceId = flow → ∃ m ∈ w.db.nodes, m.place = n.place) :
    RowIds flow rows w' := by
  intro x
  rw [hrows x]
  constructor
  · rintro ⟨m, hm, rfl, hflow⟩
    obtain ⟨n, hn, hplace⟩ := hforth m hm hflow
    exact ⟨n, hn, congrArg Place.id hplace, (congrArg Place.flow hplace).trans hflow⟩
  · rintro ⟨n, hn, rfl, hflow⟩
    obtain ⟨m, hm, hplace⟩ := hback n hn hflow
    exact ⟨m, hm, congrArg Place.id hplace, (congrArg Place.flow hplace).trans hflow⟩

theorem Driven.untouched (hw : Driven flow w) (h : Untouched flow w w')
    (hknown : ∃ p ∈ w'.db.plans, p.id = flow) (hs : Sound w') : Driven flow w' := by
  refine ⟨hknown, fun n hn hflow => ?_, fun n hn hflow m hm hhome hstandby => ?_,
    fun n hn hflow hrunning => ?_, ?_⟩
  · obtain ⟨k, hk, hplace, hstatus⟩ := h.back n hn hflow
    rw [hstatus]
    exact hw.nodes k hk ((congrArg Place.flow hplace).trans hflow)
  · have hmflow : m.flowInstanceId = flow := by
      obtain ⟨p, hp, rfl⟩ := hknown
      obtain ⟨r, hr, hid, hrflow, -⟩ := hs.layout.home_row hp (Tables.mem_places hn) hflow
      rw [hs.layout.place_eq hr (Tables.mem_places hm) (hid.trans hhome)] at hrflow
      exact hrflow
    obtain ⟨k, hk, hplace, hstatus⟩ := h.back n hn hflow
    obtain ⟨j, hj, hjplace, hjstatus⟩ := h.back m hm hmflow
    rw [hstatus]
    refine hw.waits k hk ((congrArg Place.flow hplace).trans hflow) j hj ?_
      (hjstatus.symm.trans hstandby)
    rw [hplace]
    exact hhome.trans (congrArg Place.id hjplace).symm
  · obtain ⟨k, hk, hplace, hstatus⟩ := h.back n hn hflow
    have hkid : k.id = n.id := congrArg Place.id hplace
    rw [← hkid]
    exact h.handed.mem (hw.handed k hk ((congrArg Place.flow hplace).trans hflow)
      (hstatus.symm.trans hrunning))
  · rw [← RootRuns.untouched h]
    exact hw.phase.imp (And.imp_left (h.status _)) (And.imp_left (h.status _))

theorem Progress.untouched (hw : Progress flow rows heard w) (h : Untouched flow w w')
    (hknown : ∃ p ∈ w'.db.plans, p.id = flow) (hs : Sound w') : Progress flow rows heard w' := by
  refine ⟨hw.driven.untouched h hknown hs, hw.seats.keep (fun m hm hflow => ?_)
    (fun n hn hflow => ?_), fun n hn hflow => ?_, hw.nodup⟩
  · obtain ⟨n, hn, hplace, -⟩ := h.forth m hm hflow
    exact ⟨n, hn, hplace⟩
  · obtain ⟨m, hm, hplace, -⟩ := h.back n hn hflow
    exact ⟨m, hm, hplace⟩
  · obtain ⟨m, hm, hplace, hstatus⟩ := h.back n hn hflow
    have hid : m.id = n.id := congrArg Place.id hplace
    rw [hstatus, ← hid]
    exact hw.finished m hm ((congrArg Place.flow hplace).trans hflow)

structure Advances (flow : Uuid) (n : NodeInstance) (tasks : List Uuid) (w w' : World) : Prop where
  turn : ∃ fs news, Turn ((n.id, .finished) :: running tasks) fs news w w'
  woken : ∀ m ∈ w.db.nodes, m.id ∈ tasks → m.status = .standby
  whole : ∀ m ∈ w.db.nodes, m.id ∈ tasks → m.place.home ∈ tasks
  sent : ∀ x ∈ tasks, x ∈ handOvers w'

theorem Advances.node_before (h : Advances flow n tasks w w') {k : NodeInstance}
    (hk : k ∈ w'.db.nodes) : ∃ m ∈ w.db.nodes, m.place = k.place ∧
      k.status = if m.id ∈ tasks then .running else if n.id = m.id then .finished else m.status := by
  obtain ⟨fs, news, turn⟩ := h.turn
  obtain ⟨m, hm, hplace, hstatus⟩ := turn.exists_node hk
  refine ⟨m, hm, hplace, hstatus.trans ?_⟩
  change overwrite (running tasks) m.id (if n.id = m.id then .finished else m.status) = _
  exact overwrite_same _ tasks m.id _

theorem Advances.node_after (h : Advances flow n tasks w w') (hm : m ∈ w.db.nodes) :
    ∃ k ∈ w'.db.nodes, k.place = m.place ∧
      k.status = if m.id ∈ tasks then .running else if n.id = m.id then .finished else m.status := by
  obtain ⟨fs, news, turn⟩ := h.turn
  obtain ⟨k, hk, hplace, hstatus⟩ := turn.node_after hm
  refine ⟨k, hk, hplace, hstatus.trans ?_⟩
  change overwrite (running tasks) m.id (if n.id = m.id then .finished else m.status) = _
  exact overwrite_same _ tasks m.id _

section Report

variable (h : Advances flow n tasks w w') (hn : n ∈ w.db.nodes) (hflow : n.flowInstanceId = flow)
  (hrunning : n.status = .running)

include h hn hrunning in
theorem Advances.reporter_notMem : n.id ∉ tasks := by
  intro hmem
  have hstandby := h.woken n hn hmem
  rw [hrunning] at hstandby
  cases hstandby

include h hn hrunning in
theorem Advances.marks (hheard : Heard flow heard w) :
    Heard flow (heard ++ [n.id]) w' := by
  intro k hk hkflow
  obtain ⟨m, hm, hplace, hstatus⟩ := h.node_before hk
  have hid : m.id = k.id := congrArg Place.id hplace
  rw [List.mem_append, List.mem_singleton, ← hid,
    ← hheard m hm ((congrArg Place.flow hplace).trans hkflow), hstatus]
  split_ifs with htask hself
  · refine iff_of_false not_false ?_
    rintro (hfinished | heq)
    · have hstandby := h.woken m hm htask
      rw [hfinished] at hstandby
      cases hstandby
    · rw [heq] at htask
      exact h.reporter_notMem hn hrunning htask
  · exact iff_of_true rfl (.inr hself.symm)
  · exact ⟨.inl, fun hor => hor.resolve_right fun heq => hself heq.symm⟩

include h hn hrunning in
theorem Advances.waits (hs : Sound w) (hw : Driven flow w) {k j : NodeInstance}
    (hk : k ∈ w'.db.nodes) (hkflow : k.flowInstanceId = flow) (hj : j ∈ w'.db.nodes)
    (hhome : k.place.home = j.id) (hstandby : j.status = .standby) : k.status = .standby := by
  obtain ⟨m, hm, hplace, hstatus⟩ := h.node_before hk
  obtain ⟨l, hl, hlplace, hlstatus⟩ := h.node_before hj
  have hlhome : m.place.home = l.id := by
    rw [hplace, hhome]
    exact (congrArg Place.id hlplace).symm
  rw [hstandby] at hlstatus
  have hout : l.id ∉ tasks := by
    intro hmem
    rw [if_pos hmem] at hlstatus
    cases hlstatus
  rw [if_neg hout] at hlstatus
  have hself : n.id ≠ l.id := by
    intro heq
    rw [if_pos heq] at hlstatus
    cases hlstatus
  rw [if_neg hself] at hlstatus
  have hwaiting := hw.waits m hm ((congrArg Place.flow hplace).trans hkflow) l hl hlhome
    hlstatus.symm
  have hmout : m.id ∉ tasks := by
    intro hmem
    have hroot := h.whole m hm hmem
    rw [hlhome] at hroot
    exact hout hroot
  have hmself : n.id ≠ m.id := by
    intro heq
    rw [← hs.keyed.node_eq hn hm heq, hrunning] at hwaiting
    cases hwaiting
  rw [hstatus, if_neg hmout, if_neg hmself, hwaiting]

include h hn hflow hrunning in
theorem Advances.progress (hs : Sound w) (hw : Progress flow rows heard w)
    (hknown : ∃ p ∈ w'.db.plans, p.id = flow)
    (hphase : FlowIs flow .running w' ∧ RootRuns flow w' ∨
      FlowIs flow .finished w' ∧ ¬RootRuns flow w') :
    Progress flow rows (heard ++ [n.id]) w' := by
  refine ⟨⟨hknown, fun k hk hkflow => ?_, fun k hk hkflow j hj hhome hstandby =>
    h.waits hn hrunning hs hw.driven hk hkflow hj hhome hstandby, fun k hk hkflow hkrunning => ?_,
    hphase⟩, hw.seats.keep (fun m hm _ => ?_) (fun k hk _ => ?_),
    h.marks hn hrunning hw.finished, ?_⟩
  · obtain ⟨m, hm, hplace, hstatus⟩ := h.node_before hk
    rw [hstatus]
    split_ifs
    · exact .inl rfl
    · exact .inr (.inr rfl)
    · exact hw.driven.nodes m hm ((congrArg Place.flow hplace).trans hkflow)
  · obtain ⟨m, hm, hplace, hstatus⟩ := h.node_before hk
    have hid : m.id = k.id := congrArg Place.id hplace
    rw [← hid]
    rw [hkrunning] at hstatus
    split_ifs at hstatus with htask
    · exact h.sent m.id htask
    · obtain ⟨fs, news, turn⟩ := h.turn
      exact turn.handed.mem
        (hw.driven.handed m hm ((congrArg Place.flow hplace).trans hkflow) hstatus.symm)
  · obtain ⟨k, hk, hplace, -⟩ := h.node_after hm
    exact ⟨k, hk, hplace⟩
  · obtain ⟨m, hm, hplace, -⟩ := h.node_before hk
    exact ⟨m, hm, hplace⟩
  · refine hw.nodup.append (List.nodup_singleton _) ?_
    rw [List.disjoint_singleton]
    intro hmem
    have hfinished := (hw.finished n hn hflow).mpr hmem
    rw [hrunning] at hfinished
    cases hfinished

end Report

def Drives (env : Env) (flow : Uuid) (w : World) : Request → Prop
  | .receive result => ∀ n ∈ w.db.nodes, n.id = result.id → n.flowInstanceId = flow →
      result.status = .success ∧ n.status = .running ∧
        (Held w n ∧ (∀ m ∈ (step env w (.receive result)).db.nodes, m.id = n.id →
            m.status = .finished) ∨
          (Request.handle env w (.receive result)).1 = .ok () ∧ ¬Idle w n)
  | .start _ id => id ≠ flow
  | .pause _ id => id ≠ flow
  | .continue _ id => id ≠ flow
  | .terminate _ id => id ≠ flow
  | .submit _ _ => True

theorem Chosen.flow_eq {reported : Uuid} (h : Chosen w reported p entries) (hs : Sound w)
    (hn : n ∈ w.db.nodes) (hid : n.id = reported) : p.id = n.flowInstanceId := by
  obtain ⟨m, hm, hmid, hflow⟩ := h.node
  rw [hs.keyed.node_eq hn hm (hid.trans hmid.symm)]
  exact hflow.symm

theorem Chosen.exists_opened (h : Chosen w n.id p entries) (hs : Sound w) (hentered : entries ≠ [])
    (hidle : ¬Idle w n) (hflow : n.flowInstanceId = p.id) :
    ∃ m ∈ others w p.id n.id, m.batchParentId = none ∧ m.status = .standby ∧
      DependsOnlyOn p n.id m.id := by
  by_contra hnone
  obtain ⟨x, hx⟩ := List.exists_mem_of_ne_nil _ hentered
  obtain ⟨⟨m, hm, rfl, hstandby⟩, honly⟩ := h.mem_entries_iff.mp hx
  have hsub : m.batchParentId ≠ none := fun hroot => hnone ⟨m, hm, hroot, hstandby, honly⟩
  rw [← hflow] at hm hnone
  refine hidle ⟨⟨m, hm, hsub, hstandby⟩, fun k hk hroot hwaiting f hf hid hdepends => ?_⟩
  rw [hs.layout.plan_eq (Tables.mem_plans hf) h.plan_mem (hid.trans hflow)] at hdepends
  exact hnone ⟨k, hk, hroot, hwaiting, hdepends⟩

theorem Sound.root_mem (hs : Sound w) (hp : p ∈ w.db.plans) (hm : m ∈ w.db.nodes)
    (hflow : m.flowInstanceId = p.id) (hroot : m.batchParentId = none) : m.id ∈ p.ids := by
  rcases hs.layout.seat_of hp (Tables.mem_places hm) hflow with
    ⟨-, hids⟩ | ⟨⟨x, bs, hparent, -⟩, -⟩
  · exact hids
  · have hnone : m.place.parent = none := hroot
    rw [hparent] at hnone
    cases hnone

theorem Sound.reporter_root (hs : Sound w) (hp : p ∈ w.db.plans) (hn : n ∈ w.db.nodes)
    (hm : m ∈ w.db.nodes) (hflow : m.flowInstanceId = p.id) (hroot : m.batchParentId = none)
    (hstandby : m.status = .standby) (honly : DependsOnlyOn p n.id m.id) :
    n.batchParentId = none := by
  -- A waiting root node has an incoming edge, and the edge starts at the reporter.
  obtain ⟨q, hq, e, he, hto⟩ := hs.waits m.cell (List.mem_map_of_mem hm) hstandby hroot
  obtain ⟨hfrom, hend⟩ := hs.layout.ends q hq e he
  rw [hto] at hend
  have hsame := hs.layout.apart p hp q hq m.id (hs.root_mem hp hm hflow hroot) hend
  rw [← hsame] at he hfrom
  rw [honly e he hto] at hfrom
  exact (hs.layout.root_of_id hp (Tables.mem_places hn) hfrom).1

section Reporter

variable {result : TaskResult} (hs : Sound w) (hw : Progress flow rows heard w)
  (hn : n ∈ w.db.nodes) (hid : n.id = result.id) (hflow : n.flowInstanceId = flow)
  (hrunning : n.status = .running)

include hs hn hrunning in
theorem Received.kept_of_held (h : Received w result w') (hid : n.id = result.id)
    (hsuccess : result.status = .success) (hheld : Held w n)
    (hrecorded : ∀ m ∈ w'.db.nodes, m.id = n.id → m.status = .finished) :
    Turn [(n.id, .finished)] [] silent w w' := by
  have hclosed : ∀ p entries, ¬Chosen w result.id p entries := by
    intro p entries hchosen
    have hsettled := hchosen.settled
    rw [hchosen.flow_eq hs hn hid, ← hid] at hsettled
    exact hheld.not_settled hsettled
  cases h with
  | lost turn =>
    obtain ⟨m, hm, hplace, hstatus⟩ := turn.node_after hn
    have hfinished := hrecorded m hm (congrArg Place.id hplace)
    rw [hstatus] at hfinished
    change n.status = .finished at hfinished
    rw [hrunning] at hfinished
    cases hfinished
  | taken h =>
    cases h with
    | kept c hc hcid fs hfs turn =>
      rw [hsuccess] at hfs turn
      have hnil : fs = [] := List.eq_nil_iff_forall_not_mem.mpr fun m hm =>
        absurd (hfs m hm).2 List.not_mem_nil
      rw [hnil, ← hid] at turn
      exact turn
    | finished p success chosen turn => exact absurd chosen (hclosed p [])
    | dispatched f entries tasks sent success hf chosen entered htasks hsent turn =>
      exact absurd chosen (hclosed f.plan entries)

theorem Advances.alone (turn : Turn [(n.id, .finished)] fs news w w') :
    Advances flow n [] w w' :=
  ⟨⟨fs, news, turn⟩, fun _ _ hm => absurd hm List.not_mem_nil,
    fun _ _ hm => absurd hm List.not_mem_nil, fun _ hm => absurd hm List.not_mem_nil⟩

include hs hw hn hflow hrunning in
theorem Held.progress (h : Held w n) (turn : Turn [(n.id, .finished)] [] silent w w')
    (hknown : ∃ p ∈ w'.db.plans, p.id = flow) : Progress flow rows (heard ++ [n.id]) w' := by
  have hadvances : Advances flow n [] w w' := .alone turn
  obtain ⟨m, hm, hroot, hfinished, hstandby⟩ := h
  obtain ⟨hmem, hmflow, hne⟩ := mem_others_iff.mp hm
  rw [hflow] at hmflow
  have hbusy : m.status = .running :=
    (hw.driven.nodes m hmem hmflow).resolve_right fun hor => hor.elim hstandby hfinished
  have hphase : FlowIs flow .running w := by
    rcases hw.driven.phase with ⟨hstatus, -⟩ | ⟨-, hnone⟩
    · exact hstatus
    · exact absurd ⟨m, hmem, hmflow, hroot, hbusy⟩ hnone
  obtain ⟨k, hk, hplace, hstatus⟩ := hadvances.node_after hmem
  rw [if_neg List.not_mem_nil, if_neg (Ne.symm hne), hbusy] at hstatus
  refine hadvances.progress hn hflow hrunning hs hw hknown (.inl ⟨?_, k, hk, ?_, ?_, hstatus⟩)
  · exact turn.flowIs hphase fun _ hm => absurd hm List.not_mem_nil
  · exact (congrArg Place.flow hplace).trans hmflow
  · exact (congrArg Place.parent hplace).trans hroot

include hs hw hn hflow hrunning in
theorem Progress.finished_by (chosen : Chosen w n.id p []) (ends : FlowIs p.id .finished w')
    (turn : Turn [(n.id, .finished)] [(p.id, .finished)] (fun cs => [.finished p.id cs]) w w')
    (hknown : ∃ p ∈ w'.db.plans, p.id = flow) : Progress flow rows (heard ++ [n.id]) w' := by
  have hadvances : Advances flow n [] w w' := .alone turn
  have hpflow := (chosen.flow_eq hs hn rfl).trans hflow
  refine hadvances.progress hn hflow hrunning hs hw hknown (.inr ⟨hpflow ▸ ends, ?_⟩)
  rintro ⟨k, hk, hkflow, hroot, hkrunning⟩
  obtain ⟨m, hm, hplace, hstatus⟩ := hadvances.node_before hk
  rw [if_neg List.not_mem_nil, hkrunning] at hstatus
  have hne : n.id ≠ m.id := by
    intro heq
    rw [if_pos heq] at hstatus
    cases hstatus
  rw [if_neg hne] at hstatus
  have hmflow : m.flowInstanceId = p.id :=
    (congrArg Place.flow hplace).trans (hkflow.trans hpflow.symm)
  have hother := mem_others_iff.mpr ⟨hm, hmflow, Ne.symm hne⟩
  rcases chosen.settled m hother ((congrArg Place.parent hplace).trans hroot) with hfin | hwait
  · rw [hfin] at hstatus
    cases hstatus
  · rw [hwait] at hstatus
    cases hstatus

include hs hw hn hflow hrunning in
theorem Progress.dispatched_by {f : WorkflowInstance} (hf : f ∈ w.db.flows)
    (chosen : Chosen w n.id f.plan entries) (entered : entries ≠ []) (hidle : ¬Idle w n)
    (htasks : Tasks w.db.places f.plan entries tasks)
    (turn : Turn ((n.id, .finished) :: running tasks) [(f.id, f.status)]
      (fun cs => sentAll cs tasks) w w')
    (hknown : ∃ p ∈ w'.db.plans, p.id = flow) : Progress flow rows (heard ++ [n.id]) w' := by
  have hfid : f.plan.id = flow := (chosen.flow_eq hs hn rfl).trans hflow
  have hl := hs.layout
  have hhome : ∀ m ∈ w.db.nodes, m.id ∈ tasks →
      m.place.home ∈ f.plan.ids ∧ m.place.home ∈ entries ∧ m.place.home ∈ tasks :=
    fun m hm hmem => htasks.home hl chosen.plan_mem (Tables.mem_places hm) hmem
  have hadvances : Advances flow n tasks w w' := by
    refine ⟨⟨_, _, turn⟩, fun m hm hmem => ?_, fun m hm hmem => (hhome m hm hmem).2.2, ?_⟩
    · obtain ⟨hids, hentry, -⟩ := hhome m hm hmem
      obtain ⟨⟨r, hr, hrid, hstandby⟩, -⟩ := chosen.mem_entries_iff.mp hentry
      have hmflow := hl.flow_of_home chosen.plan_mem (Tables.mem_places hm) hids
      exact hw.driven.waits m hm (hmflow.trans hfid) r (mem_others_iff.mp hr).1 hrid.symm hstandby
    · intro x hx
      rw [handOvers_append turn.notices_eq, handOvers_sentAll]
      exact List.mem_append_right _ hx
  obtain ⟨m, hm, hroot, hstandby, honly⟩ :=
    chosen.exists_opened hs entered hidle (hflow.trans hfid.symm)
  obtain ⟨hmem, hmflow, -⟩ := mem_others_iff.mp hm
  have hmids : m.id ∈ f.plan.ids := hs.root_mem chosen.plan_mem hmem hmflow hroot
  have hentry : m.id ∈ entries := chosen.mem_entries_iff.mpr ⟨⟨m, hm, rfl, hstandby⟩, honly⟩
  have hphase : FlowIs flow .running w := by
    rcases hw.driven.phase with ⟨hstatus, -⟩ | ⟨-, hnone⟩
    · exact hstatus
    · have hnroot := hs.reporter_root chosen.plan_mem hn hmem hmflow hroot hstandby honly
      exact absurd ⟨n, hn, hflow, hnroot, hrunning⟩ hnone
  obtain ⟨k, hk, hplace, hstatus⟩ := hadvances.node_after hmem
  rw [if_pos (htasks.mem_of_entry hmids hentry)] at hstatus
  refine hadvances.progress hn hflow hrunning hs hw hknown (.inl ⟨?_, k, hk, ?_, ?_, hstatus⟩)
  · refine turn.flowIs hphase fun x hx hxid => ?_
    rw [List.mem_singleton.mp hx] at hxid ⊢
    exact hphase f hf hxid
  · exact (congrArg Place.flow hplace).trans (hmflow.trans hfid)
  · exact (congrArg Place.parent hplace).trans hroot

end Reporter

def reports (rows : List Uuid) (qs : List Request) : List Uuid :=
  qs.filterMap fun
    | .receive result => if result.id ∈ rows then some result.id else none
    | _ => none

theorem reports_cons (rows : List Uuid) (q : Request) (qs : List Request) :
    reports rows (q :: qs) = reports rows [q] ++ reports rows qs :=
  List.filterMap_append (l := [q])

theorem reports_receive {result : TaskResult} :
    reports rows [.receive result] = if result.id ∈ rows then [result.id] else [] := by
  unfold reports
  split_ifs with hmem <;> simp [hmem]

def Reports (flow : Uuid) (w : World) (result : TaskResult) (n : NodeInstance) : Prop :=
  n ∈ w.db.nodes ∧ n.id = result.id ∧ n.flowInstanceId = flow

def Awaits (flow : Uuid) (w : World) : Request → Prop
  | .receive result => ∀ n ∈ w.db.nodes, n.id = result.id → n.flowInstanceId = flow →
      result.status = .success ∧ n.status = .running
  | .start _ id => id ≠ flow
  | .pause _ id => id ≠ flow
  | .continue _ id => id ≠ flow
  | .terminate _ id => id ≠ flow
  | .submit _ _ => True

theorem Drives.awaits {q : Request} (h : Drives env flow w q) : Awaits flow w q := by
  cases q with
  | receive result => exact fun n hn hid hflow => ⟨(h n hn hid hflow).1, (h n hn hid hflow).2.1⟩
  | submit user draftId => trivial
  | start user id => exact h
  | pause user id => exact h
  | «continue» user id => exact h
  | terminate user id => exact h

theorem Awaits.untouched {q : Request} (hs : Sound w) (hknown : ∃ p ∈ w.db.plans, p.id = flow)
    (hok : Awaits flow w q)
    (hother : ∀ result n, q = .receive result → ¬Reports flow w result n) :
    Untouched flow w (step env w q) := by
  have hk := hs.keyed
  cases q with
  | submit user draftId => exact (step_submit hs.supply user draftId).untouched hknown
  | start user id => exact (step_start hk user id).untouched hs hok
  | pause user id => exact (step_pause hk user id).untouched hs hok
  | «continue» user id => exact (step_continue hk user id).untouched hs hok
  | terminate user id => exact (step_terminate hk user id).untouched hs hok
  | receive result =>
    exact (step_receive hk result).untouched hs fun n hn hid hflow =>
      hother result n rfl ⟨hn, hid, hflow⟩

theorem flow_known (hs : Sound w) (q : Request) (hknown : ∃ p ∈ w.db.plans, p.id = flow) :
    ∃ p ∈ (step env w q).db.plans, p.id = flow := by
  obtain ⟨p, hp, hid⟩ := hknown
  have hstep : Stepped w (step env w q) := step_stepped hs q
  exact ⟨p, hstep.plan_mem p hp, hid⟩

theorem reports_elsewhere {q : Request} (hrows : RowIds flow rows w)
    (hother : ∀ result n, q = .receive result → ¬Reports flow w result n) :
    reports rows [q] = [] := by
  cases q with
  | receive result =>
    rw [reports_receive, if_neg]
    intro hmem
    obtain ⟨n, hn, hid, hflow⟩ := (hrows result.id).mp hmem
    exact hother result n rfl ⟨hn, hid, hflow⟩
  | submit user draftId => rfl
  | start user id => rfl
  | pause user id => rfl
  | «continue» user id => rfl
  | terminate user id => rfl

theorem step_reported {result : TaskResult} (hs : Sound w) (hw : Progress flow rows heard w)
    (hok : Drives env flow w (.receive result)) (hn : Reports flow w result n) :
    Progress flow rows (heard ++ [n.id]) (step env w (.receive result)) := by
  obtain ⟨hn, hid, hflow⟩ := hn
  obtain ⟨hsuccess, hrunning, hheeded⟩ := hok n hn hid hflow
  have hknown : ∃ p ∈ (step env w (.receive result)).db.plans, p.id = flow :=
    flow_known hs _ hw.driven.known
  rcases hheeded with ⟨hheld, hrecorded⟩ | ⟨hanswered, hidle⟩
  · have hreceived : Received w result (step env w (.receive result)) :=
      step_receive hs.keyed result
    exact hheld.progress hs hw hn hflow hrunning
      (hreceived.kept_of_held hs hn hrunning hid hsuccess hheld hrecorded) hknown
  · have hheeded : Heeded w result (step env w (.receive result)) :=
      handle_success hs.keyed hsuccess hanswered
    cases hheeded with
    | finished p chosen ends turn =>
      rw [← hid] at chosen turn
      exact Progress.finished_by hs hw hn hflow hrunning chosen ends turn hknown
    | dispatched f entries tasks hf chosen entered htasks turn =>
      rw [← hid] at chosen turn
      exact Progress.dispatched_by hs hw hn hflow hrunning hf chosen entered hidle htasks turn
        hknown

theorem step_progress {q : Request} (hs : Sound w) (hw : Progress flow rows heard w)
    (hok : Drives env flow w q) :
    Progress flow rows (heard ++ reports rows [q]) (step env w q) := by
  by_cases hours : ∃ result n, q = .receive result ∧ Reports flow w result n
  · obtain ⟨result, n, rfl, hn⟩ := hours
    rw [reports_receive, if_pos ((hw.seats result.id).mpr ⟨n, hn⟩), ← hn.2.1]
    exact step_reported hs hw hok hn
  · have hother : ∀ result n, q = .receive result → ¬Reports flow w result n :=
      fun result n hq hn => hours ⟨result, n, hq, hn⟩
    rw [reports_elsewhere hw.seats hother, List.append_nil]
    exact hw.untouched (hok.awaits.untouched hs hw.driven.known hother) (flow_known hs q hw.driven.known)
      (step_sound hs q)

theorem run_progress {qs : List Request} (hs : Sound w) (hw : Progress flow rows heard w)
    (h : Along (step env) (Drives env flow) w qs) :
    Progress flow rows (heard ++ reports rows qs) (run (step env) w qs) := by
  induction qs generalizing w heard with
  | nil =>
    rw [reports, List.filterMap_nil, List.append_nil]
    exact hw
  | cons q qs ih =>
    rw [reports_cons, ← List.append_assoc]
    exact ih (step_sound hs q) (step_progress hs hw h.1) h.2

def Whole (flow : Uuid) (w : World) : Prop :=
  FlowIs flow .finished w → ∀ n ∈ w.db.nodes, n.flowInstanceId = flow → n.status = .finished

theorem FlowIs.not_finished (h : FlowIs flow .running w) (hknown : ∃ p ∈ w.db.plans, p.id = flow) :
    ¬FlowIs flow .finished w := by
  intro hfinished
  obtain ⟨p, hp, hid⟩ := hknown
  obtain ⟨f, hf, rfl⟩ := flow_of_plan hp
  have hsame := hfinished f hf hid
  rw [h f hf hid] at hsame
  cases hsame

theorem Whole.untouched (hw : Driven flow w) (hwhole : Whole flow w) (h : Untouched flow w w')
    (hknown : ∃ p ∈ w'.db.plans, p.id = flow) : Whole flow w' := by
  intro hfinished n hn hflow
  rcases hw.phase with ⟨hrunning, -⟩ | ⟨hdone, -⟩
  · exact absurd hfinished ((h.status _ hrunning).not_finished hknown)
  · obtain ⟨m, hm, hplace, hstatus⟩ := h.back n hn hflow
    exact hstatus.trans (hwhole hdone m hm ((congrArg Place.flow hplace).trans hflow))

theorem reported_whole {result : TaskResult} (hs : Sound w) (hw : Driven flow w)
    (hwhole : Whole flow w) (hok : Drives env flow w (.receive result))
    (hcompletes : CompletesWhole w (.receive result)) (hn : Reports flow w result n) :
    Whole flow (step env w (.receive result)) := by
  obtain ⟨hn, hid, hflow⟩ := hn
  obtain ⟨hsuccess, hrunning, hheeded⟩ := hok n hn hid hflow
  have hknown : ∃ p ∈ (step env w (.receive result)).db.plans, p.id = flow :=
    flow_known hs _ hw.known
  have hphase : FlowIs flow .running w := by
    rcases hw.phase with ⟨hstatus, -⟩ | ⟨hstatus, -⟩
    · exact hstatus
    · have hfinished := hwhole hstatus n hn hflow
      rw [hrunning] at hfinished
      cases hfinished
  rcases hheeded with ⟨hheld, hrecorded⟩ | ⟨hanswered, hidle⟩
  · have hreceived : Received w result (step env w (.receive result)) :=
      step_receive hs.keyed result
    have turn := hreceived.kept_of_held hs hn hrunning hid hsuccess hheld hrecorded
    have hstays := turn.flowIs hphase fun _ hm => absurd hm List.not_mem_nil
    exact fun hfinished => absurd hfinished (hstays.not_finished hknown)
  · have hheeded : Heeded w result (step env w (.receive result)) :=
      handle_success hs.keyed hsuccess hanswered
    cases hheeded with
    | finished p chosen ends turn =>
      intro _ k hk hkflow
      have hpflow := (chosen.flow_eq hs hn hid).trans hflow
      exact hcompletes.finished hsuccess chosen turn k.cell (List.mem_map_of_mem hk)
        (hkflow.trans hpflow.symm)
    | dispatched f entries tasks hf chosen entered htasks turn =>
      have hstays := turn.flowIs hphase fun x hx hxid => by
        rw [List.mem_singleton.mp hx] at hxid ⊢
        exact hphase f hf hxid
      exact fun hfinished => absurd hfinished (hstays.not_finished hknown)

theorem run_whole {qs : List Request} (hs : Sound w) (hw : Progress flow rows heard w)
    (hwhole : Whole flow w) (h : Along (step env) (Drives env flow) w qs)
    (hcompletes : Along (step env) CompletesWhole w qs) : Whole flow (run (step env) w qs) := by
  induction qs generalizing w heard with
  | nil => exact hwhole
  | cons q qs ih =>
    refine ih (step_sound hs q) (step_progress hs hw h.1) ?_ h.2 hcompletes.2
    by_cases hours : ∃ result n, q = .receive result ∧ Reports flow w result n
    · obtain ⟨result, n, rfl, hn⟩ := hours
      exact reported_whole hs hw.driven hwhole h.1 hcompletes.1 hn
    · have hother : ∀ result n, q = .receive result → ¬Reports flow w result n :=
        fun result n hq hn => hours ⟨result, n, hq, hn⟩
      exact hwhole.untouched hw.driven (h.1.awaits.untouched hs hw.driven.known hother)
        (flow_known hs q hw.driven.known)

section Launch

theorem Carried.opened {w : World} (h : Carried w id True w') (hstart : Startable id p w)
    (hl : Layout w.db.plans w.db.places) : ∃ rows f entries ls tasks fs,
      AllOf w id rows ∧ Entering w.db id f entries ls ∧ Tasks w.db.places f.plan entries tasks ∧
        FlowIs id .running w' ∧ Turn (pending rows ++ (standing ls ++ running tasks)) fs
          (fun cs => sentAll cs tasks) w w' := by
  cases h with
  | finished rows f ls fs hrows entering hfs turn =>
    obtain ⟨x, -, hx⟩ := hstart.exists_entry hl entering
    exact absurd hx List.not_mem_nil
  | dispatched rows f entries ls tasks sent fs hrows entering entered htasks hsent hwhole hfs
      turn =>
    obtain ⟨rfl, hrunning⟩ := hwhole trivial
    exact ⟨rows, f, entries, ls, sent, fs, hrows, entering, htasks, hrunning, turn⟩

theorem Startable.driven (h : Startable id p w) (hs : Sound w) (hstock : Stocked w)
    (hstart : Carried w id True w') (hs' : Sound w') : Driven id w' := by
  have hl := hs.layout
  have hlaunched := h.launched hl hstock hstart
  obtain ⟨rows, f, entries, ls, tasks, fs, hrows, entering, htasks, hrunning, turn⟩ :=
    hstart.opened h hl
  have hplan : p ∈ w'.db.plans := by
    rw [turn.commit.plans_eq]
    exact h.plan_mem
  obtain ⟨g, hg, hgplan⟩ := flow_of_plan hplan
  have hgid : g.id = id := (congrArg Plan.id hgplan).trans h.plan_id
  have hnodes := hlaunched.nodes g hg hgid
  refine ⟨⟨p, hplan, h.plan_id⟩, fun n hn hflow => ?_, fun n hn hflow m hm hhome hstandby => ?_,
    fun n hn hflow hbusy => ?_, .inl ⟨hrunning, ?_⟩⟩
  · by_cases hbegins : Begins g n
    · exact .inl ((hnodes n hn hflow).1.mpr hbegins)
    · exact .inr (.inl ((hnodes n hn hflow).2.mpr hbegins))
  · have hnflow : n.place.flow = p.id := hflow.trans h.plan_id.symm
    have hmids : m.place.id ∈ p.ids := by
      change n.place.home = m.place.id at hhome
      rw [← hhome]
      exact hs'.layout.home_mem hplan (Tables.mem_places hn) hnflow
    obtain ⟨hmroot, hmflow⟩ := hs'.layout.root_of_id hplan (Tables.mem_places hm) hmids
    have hsame : n.place.home = m.place.home := by
      rw [Layout.home_of_root hmroot]
      exact hhome
    have hwaits := (hnodes m hm (hmflow.trans h.plan_id)).2.mp hstandby
    rw [Begins, ← hsame] at hwaits
    exact (hnodes n hn hflow).2.mpr hwaits
  · obtain ⟨m, hm, hplace, hstatus⟩ := turn.exists_node hn
    have hid : m.id = n.id := congrArg Place.id hplace
    have hmrow : m.id ∈ rows.map Place.id := by
      refine List.mem_map.mpr ⟨m.place, hrows.mem_iff.mpr ?_, rfl⟩
      rw [List.mem_filter, beq_iff_eq]
      exact ⟨Tables.mem_places hm, (congrArg Place.flow hplace).trans hflow⟩
    have hpending : pending rows = (rows.map Place.id).map (fun i => (i, .pending)) := by
      rw [List.map_map]
      rfl
    rw [overwrite_append, overwrite_append, hpending, standing, running, overwrite_same,
      overwrite_same, overwrite_same, if_pos hmrow, hbusy, hid] at hstatus
    rw [handOvers_append turn.notices_eq, handOvers_sentAll]
    refine List.mem_append_right _ ?_
    by_contra hout
    rw [if_neg hout] at hstatus
    split_ifs at hstatus
  · obtain ⟨x, hx, hentry⟩ := h.exists_entry hl entering
    rw [← h.plan_eq hl entering] at hx
    have htask := htasks.mem_of_entry hx hentry
    obtain ⟨c, hc, rfl⟩ := htasks.seated x htask
    obtain ⟨hroot, hcflow⟩ := hl.root_of_id entering.flow_plan hc hx
    obtain ⟨m, hm, rfl⟩ := node_of_place hc
    obtain ⟨n, hn, hplace, hstatus⟩ := turn.node_after hm
    have hmid : m.id ∈ tasks := htask
    rw [overwrite_append, overwrite_append, running, overwrite_same, if_pos hmid] at hstatus
    exact ⟨n, hn, (congrArg Place.flow hplace).trans (hcflow.trans entering.flow_id),
      (congrArg Place.parent hplace).trans hroot, hstatus⟩

end Launch

def nodesOf (id : Uuid) (w : World) : List Uuid :=
  (w.db.nodes.filter (fun n => n.flowInstanceId == id)).map NodeInstance.id

theorem rowIds_nodesOf : RowIds id (nodesOf id w) w := by
  intro x
  rw [nodesOf, List.mem_map]
  constructor
  · rintro ⟨n, hn, rfl⟩
    rw [List.mem_filter, beq_iff_eq] at hn
    exact ⟨n, hn.1, rfl, hn.2⟩
  · rintro ⟨n, hn, rfl, hflow⟩
    refine ⟨n, ?_, rfl⟩
    rw [List.mem_filter, beq_iff_eq]
    exact ⟨hn, hflow⟩

structure Underway (id : Uuid) (reported : List Uuid) (w : World) : Prop where
  status : ∀ f ∈ w.db.flows, f.id = id →
    (f.status = .running ∧ ∃ n ∈ w.db.nodes, n.flowInstanceId = id ∧ n.status = .running ∧
      n.id ∈ handOvers w) ∨ f.status = .finished
  finished : ∀ n ∈ w.db.nodes, n.flowInstanceId = id → (n.status = .finished ↔ n.id ∈ reported)
  once : reported.Nodup

theorem Progress.underway (h : Progress flow rows heard w) : Underway flow heard w := by
  refine ⟨fun f hf hid => ?_, h.finished, h.nodup⟩
  rcases h.driven.phase with ⟨hstatus, n, hn, hflow, -, hrunning⟩ | ⟨hstatus, -⟩
  · exact .inl ⟨hstatus f hf hid, n, hn, hflow, hrunning, h.driven.handed n hn hflow hrunning⟩
  · exact .inr (hstatus f hf hid)

theorem Driven.finished_iff (h : Driven flow w) (hwhole : Whole flow w) {f : WorkflowInstance}
    (hf : f ∈ w.db.flows) (hid : f.id = flow) : f.status = .finished ↔
      ∀ n ∈ w.db.nodes, n.flowInstanceId = flow → n.status = .finished := by
  rcases h.phase with ⟨hstatus, n, hn, hflow, -, hrunning⟩ | ⟨hstatus, -⟩
  · rw [hstatus f hf hid]
    refine iff_of_false WorkflowInstanceStatus.noConfusion fun hall => ?_
    have hfinished := hall n hn hflow
    rw [hrunning] at hfinished
    cases hfinished
  · exact iff_of_true (hstatus f hf hid) (hwhole hstatus)

theorem driven_to_its_end {ids : Nat → Uuid} (hids : Function.Injective ids) (files : Files)
    {draft : WorkflowDraft} {draftId id : Uuid} {user starter : Option Uuid}
    {before after qs : List Request} {w w' started : World}
    (hw : run (step env) (World.start ids files) before = w)
    (hdraft : ∀ k, env.draft k draftId = some draft)
    (hfresh : ∀ n ∈ draft.spec.nodeDrafts, ∀ k, ids k ≠ n.externalId)
    (hsubmit : (submitWorkflow draftId env (w.open user)).1 = .ok id)
    (hacyclic : Acyclic draft.spec.edges) (hne : draft.spec.nodeDrafts ≠ [])
    (hw' : run (step env) (step env w (.submit user draftId)) after = w')
    (hok : (Request.handle env w' (.start starter id)).1 = .ok ())
    (hstarted : step env w' (.start starter id) = started)
    (h : Along (step env) (Drives env id) started qs) :
    Underway id (reports (nodesOf id started) qs) (run (step env) started qs) ∧
      (Along (step env) CompletesWhole started qs →
        ∀ f ∈ (run (step env) started qs).db.flows, f.id = id → (f.status = .finished ↔
          ∀ n ∈ (run (step env) started qs).db.nodes, n.flowInstanceId = id →
            n.status = .finished)) := by
  have hs : Sound w := hw ▸ run_sound (start_sound hids files) before
  have htail : Tail ids w.ids := hw ▸ (run_stepped (start_sound hids files) before).2.2
  have hfresh' : ∀ n ∈ draft.spec.nodeDrafts, ∀ k, w.ids k ≠ n.externalId := by
    obtain ⟨k, hk⟩ := htail
    intro n hn j
    rw [hk]
    exact hfresh n hn (k + j)
  obtain ⟨p, hp⟩ := submitted_startable hs hdraft hfresh' hsubmit hacyclic hne
  have hrun : w' = run (step env) (World.start ids files)
      (before ++ .submit user draftId :: after) := by
    rw [run_append, hw, ← hw']
    rfl
  have hlater : Sound w' := hrun ▸ run_sound (start_sound hids files) _
  have hstock : Stocked w' := hrun ▸ run_stocked hids files _
  have hready : Startable id p w' := hw' ▸ hp.run (step_sound hs _) after
  have hlast : Sound started := hstarted ▸ step_sound hlater _
  have hcarried : Carried w' id True started := hstarted ▸ handle_start hlater.keyed starter id hok
  have hdriven : Driven id started := hready.driven hlater hstock hcarried hlast
  have hlaunched := hready.launched hlater.layout hstock hcarried
  have hunheard : Heard id [] started := by
    intro n hn hflow
    refine iff_of_false (fun hfinished => ?_) List.not_mem_nil
    obtain ⟨q, hq, hqid⟩ := hdriven.known
    obtain ⟨f, hf, rfl⟩ := flow_of_plan hq
    obtain ⟨hruns, hstands⟩ := hlaunched.nodes f hf hqid n hn hflow
    rw [hfinished] at hruns hstands
    by_cases hbegins : Begins f n
    · exact NodeInstanceStatus.noConfusion (hruns.mpr hbegins)
    · exact NodeInstanceStatus.noConfusion (hstands.mpr hbegins)
  have hprogress : Progress id (nodesOf id started) [] started :=
    ⟨hdriven, rowIds_nodesOf, hunheard, List.nodup_nil⟩
  have hfinal := run_progress hlast hprogress h
  rw [List.nil_append] at hfinal
  refine ⟨hfinal.underway, fun hcompletes f hf hid => ?_⟩
  have hwhole : Whole id started := by
    have hrunning : FlowIs id .running started := hlaunched.flow
    exact fun hfinished => absurd hfinished (hrunning.not_finished hdriven.known)
  exact hfinal.driven.finished_iff (run_whole hlast hprogress hwhole h hcompletes) hf hid

section Samples

instance (env : Env) (flow : Uuid) (w : World) (q : Request) : Decidable (Drives env flow w q) :=
  match q with
  | .receive result => inferInstanceAs (Decidable (∀ n ∈ w.db.nodes, n.id = result.id →
      n.flowInstanceId = flow → result.status = .success ∧ n.status = .running ∧
        (Held w n ∧ (∀ m ∈ (step env w (.receive result)).db.nodes, m.id = n.id →
            m.status = .finished) ∨
          (Request.handle env w (.receive result)).1 = .ok () ∧ ¬Idle w n)))
  | .start _ id => inferInstanceAs (Decidable (id ≠ flow))
  | .pause _ id => inferInstanceAs (Decidable (id ≠ flow))
  | .continue _ id => inferInstanceAs (Decidable (id ≠ flow))
  | .terminate _ id => inferInstanceAs (Decidable (id ≠ flow))
  | .submit _ _ => .isTrue trivial

def batchedStarted : World :=
  step (sampleEnv [batched]) (submittedSample batched) (.start (some 5) 100)

def batchedReports : List Request :=
  [105, 101, 107, 106, 103].map (fun id => report id .success)

theorem batched_driven_to_its_end :
    Underway 100 [105, 101, 107, 106, 103]
        (run (step (sampleEnv [batched])) batchedStarted batchedReports) ∧
      ∀ f ∈ (run (step (sampleEnv [batched])) batchedStarted batchedReports).db.flows,
        f.id = 100 → f.status = .finished := by
  have hsubmit : (submitWorkflow 900 (sampleEnv [batched]) (newborn.open (some 5))).1 =
      .ok 100 := by decide +kernel
  have hincreasing : ∀ e ∈ batched.spec.edges, e.1 < e.2 ∧ e.2 < 200 := by decide
  have hok : (Request.handle (sampleEnv [batched]) (submittedSample batched)
      (.start (some 5) 100)).1 = .ok () := by decide +kernel
  have hguard : Along (step (sampleEnv [batched])) (Drives (sampleEnv [batched]) 100)
      batchedStarted batchedReports := by decide +kernel
  have hcompletes : Along (step (sampleEnv [batched])) CompletesWhole batchedStarted
      batchedReports := by decide +kernel
  have hreports : reports (nodesOf 100 batchedStarted) batchedReports =
      [105, 101, 107, 106, 103] := by decide +kernel
  have hall : ∀ n ∈ (run (step (sampleEnv [batched])) batchedStarted batchedReports).db.nodes,
      n.flowInstanceId = 100 → n.status = .finished := by decide +kernel
  have hbefore : run (step (sampleEnv [batched])) (.start sampleIds sampleFiles) [] = newborn := rfl
  have hafter : run (step (sampleEnv [batched])) (submittedSample batched) [] =
      submittedSample batched := rfl
  have hstarted : step (sampleEnv [batched]) (submittedSample batched) (.start (some 5) 100) =
      batchedStarted := rfl
  obtain ⟨hunderway, hfinished⟩ := driven_to_its_end sampleIds_injective sampleFiles hbefore
    (fun _ => rfl) (sampleIds_fresh (by decide)) hsubmit (acyclic_of_increasing hincreasing)
    (List.cons_ne_nil _ _) hafter hok hstarted hguard
  rw [hreports] at hunderway
  exact ⟨hunderway, fun f hf hid => (hfinished hcompletes f hf hid).mpr hall⟩

end Samples

end Kuintessence

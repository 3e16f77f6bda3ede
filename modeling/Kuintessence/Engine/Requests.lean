import Kuintessence.Engine.Turns

namespace Kuintessence

open Effect

variable {ids : Nat → Uuid} {db db' : Tables} {ns : List Notice} {ms ms' : List NodeMark}
  {fs fs' : List FlowMark} {news : List Cell → List Notice} {s t w w' : World} {env : Env}

structure Turn (ms : List NodeMark) (fs : List FlowMark) (news : List Cell → List Notice)
    (w w' : World) : Prop where
  commit : Commit ms fs w.db w'.db
  notices_eq : notices w'.trace = notices w.trace ++ news (cells w'.db.nodes)
  ids : Tail w.ids w'.ids

theorem After.turn (h : After w.ids w.db (notices w.trace) ms fs news w') :
    Turn ms fs news w w' := by
  obtain ⟨db', hc, rfl, hnotices, hids⟩ := h
  exact ⟨hc, hnotices, hids⟩

theorem World.mid_open (w : World) (user : Option Uuid) :
    Mid w.ids w.db (notices w.trace) [] [] (w.open user) :=
  ⟨rfl, rfl, .nil _, fun _ => rfl, .refl _⟩

theorem step_of_wp {q : Request} {R : World → Prop}
    (h : wp q.serve env (fun _ t => R t) R (w.open q.user)) : R (step env w q) := by
  rcases wp_run h with ⟨_, _, hr⟩ | ⟨_, hr⟩
  · exact hr
  · exact hr

theorem handle_of_wp {q : Request} {Q : Unit → World → Prop} {E : World → Prop} {u : Unit}
    (h : wp q.serve env Q E (w.open q.user)) (hok : (q.handle env w).1 = .ok u) :
    Q u (step env w q) := by
  rcases wp_run h with ⟨_, _, hr⟩ | ⟨hne, _⟩
  · exact hr
  · exact absurd hok (hne u)

section Receive

open StatusReceiver

def About (flow : Uuid) (statuses : List WorkflowInstanceStatus) (fs : List FlowMark) : Prop :=
  ∀ m ∈ fs, m.1 = flow ∧ m.2 ∈ statuses

def quiet : List WorkflowInstanceStatus := [.error, .paused, .stopped]

def opening : List WorkflowInstanceStatus := [.pending, .running]

def reported : TaskResultStatus → List WorkflowInstanceStatus
  | .failed => [.error]
  | .paused => [.paused]
  | .deleted => [.stopped]
  | .success => []
  | .continued => []

theorem About.nil (flow : Uuid) (statuses : List WorkflowInstanceStatus) :
    About flow statuses [] := fun _ hm => absurd hm List.not_mem_nil

theorem About.cons {flow : Uuid} {status : WorkflowInstanceStatus}
    {statuses : List WorkflowInstanceStatus} (h : About flow statuses fs)
    (hs : status ∈ statuses) : About flow statuses ((flow, status) :: fs) := by
  intro m hm
  rcases List.mem_cons.mp hm with rfl | hm
  · exact ⟨rfl, hs⟩
  · exact h m hm

theorem reported_quiet (status : TaskResultStatus) : ∀ s ∈ reported status, s ∈ quiet := by
  cases status <;> decide

theorem About.quiet {flow : Uuid} {status : TaskResultStatus} (h : About flow (reported status) fs) :
    About flow quiet fs := fun m hm => ⟨(h m hm).1, reported_quiet status _ (h m hm).2⟩

theorem About.single {flow : Uuid} {status : WorkflowInstanceStatus}
    {statuses : List WorkflowInstanceStatus} (hs : status ∈ statuses) :
    About flow statuses [(flow, status)] := (About.nil flow statuses).cons hs

def marked (w : World) (id : Uuid) : List Cell :=
  (cells w.db.nodes).map (settle [(id, .finished)])

structure Chosen (w : World) (reported : Uuid) (p : Plan) (entries : List Uuid) : Prop where
  plan_mem : p ∈ w.db.plans
  reporter : ∃ c ∈ w.db.places, c.id = reported ∧ c.flow = p.id
  gate : GateOpen (marked w reported) p.id
  freed : ∀ id, id ∈ entries ↔ Freed (marked w reported) p reported id

theorem Selected.chosen {reported : Uuid} {flow : WorkflowInstance} {entries : List Uuid}
    (h : Selected db' reported flow entries) (hk : w.db.Keyed)
    (hc : Commit [(reported, .finished)] [] w.db db') :
    Chosen w reported flow.plan entries := by
  obtain ⟨node, hnode, hid, hflow⟩ := h.reporter
  obtain ⟨node', hnode', hid', hgate⟩ := h.gate
  have hplace := Tables.mem_places hnode
  have hsame : node'.place = node.place :=
    (hc.keyed hk).place_eq (Tables.mem_places hnode') hplace (hid'.trans hid.symm)
  have hflow' : node'.flowInstanceId = flow.plan.id :=
    (congrArg Place.flow hsame).trans hflow.symm
  rw [hc.places] at hplace
  rw [hc.cells_eq, hflow'] at hgate
  have hmem := Tables.mem_plans h.flow_mem
  rw [hc.plans_eq] at hmem
  have hfreed := h.freed
  rw [hc.cells_eq] at hfreed
  exact ⟨hmem, ⟨node.place, hplace, hid, hflow.symm⟩, hgate, hfreed⟩

theorem Moves.status_mem {flows flows' : List WorkflowInstance} (h : Moves [] flows flows')
    {f' : WorkflowInstance} (hf : f' ∈ flows') :
    ∃ f ∈ flows, f.plan = f'.plan ∧ f.status = f'.status := by
  obtain ⟨f, hmem, hplan, hs | hs⟩ := h f' hf
  · exact ⟨f, hmem, hplan.symm, hs.symm⟩
  · exact absurd hs List.not_mem_nil

inductive Taken (w : World) (result : TaskResult) (w' : World) : Prop where
  | kept (c : Place) (hc : c ∈ w.db.places) (hid : c.id = result.id) (fs : List FlowMark)
      (hfs : About c.flow (reported result.status) fs)
      (turn : Turn [(result.id, nodeStatus result.status)] fs silent w w')
  | finished (p : Plan) (success : result.status = .success) (chosen : Chosen w result.id p [])
      (turn : Turn [(result.id, .finished)] [(p.id, .finished)]
        (fun cs => [.finished p.id cs]) w w')
  | dispatched (flow : WorkflowInstance) (entries tasks sent : List Uuid)
      (success : result.status = .success) (hflow : flow ∈ w.db.flows)
      (chosen : Chosen w result.id flow.plan entries) (entered : entries ≠ [])
      (htasks : Tasks w.db.places flow.plan entries tasks) (hsent : sent <+: tasks)
      (turn : Turn ((result.id, .finished) :: running tasks) [(flow.id, flow.status)]
        (fun cs => sentAll cs sent) w w')

inductive Received (w : World) (result : TaskResult) (w' : World) : Prop where
  | lost (turn : Turn [] [] silent w w')
  | taken (h : Taken w result w')

theorem wp_setFlowUnless (h : Mid ids db ns ms [] s) (awaited : NodeInstanceStatus)
    (status : WorkflowInstanceStatus) (flow : Uuid) :
    wp (setFlowUnless awaited status flow) env
      (fun _ t => ∃ fs, About flow [status] fs ∧ Mid ids db ns ms fs t) (Left ids db ns) s := by
  unfold setFlowUnless
  rw [wp_bind]
  refine wp_mono (wp_getFlowById h flow) (fun f t ⟨ht, hflow, hid⟩ => ?_) (fun _ he => he)
  have hplan := Tables.mem_plans hflow
  rw [wp_bind]
  refine wp_mono (wp_selectNodes ht _) (fun rows u ⟨hu, _⟩ => ?_) (fun _ he => he)
  split
  · refine wp_mono (wp_updateFlow hu hplan) (fun _ v hv => ⟨_, ?_, hv⟩) (fun _ he => he)
    rw [List.nil_append, hid]
    exact .single (List.mem_singleton_self _)
  · exact ⟨[], .nil flow _, hu⟩

theorem wp_followUp_quiet (h : Mid ids db ns ms [] s) {result : TaskResult}
    (hne : result.status ≠ .success) (flow : Uuid) :
    wp (followUp result flow) env
      (fun _ t => ∃ fs, About flow (reported result.status) fs ∧ Mid ids db ns ms fs t)
      (Left ids db ns) s := by
  unfold followUp
  cases hs : result.status with
  | success => exact absurd hs hne
  | failed =>
    change wp (getFlowById flow >>= fun f => updateFlow { f with status := .error }) env _ _ s
    rw [wp_bind]
    refine wp_mono (wp_getFlowById h flow) (fun f t ⟨ht, hflow, hid⟩ => ?_) (fun _ he => he)
    have hplan := Tables.mem_plans hflow
    refine wp_mono (wp_updateFlow ht hplan) (fun _ u hu => ⟨_, ?_, hu⟩) (fun _ he => he)
    rw [List.nil_append, hid]
    exact .single List.mem_cons_self
  | paused => exact wp_setFlowUnless h .pausing .paused flow
  | continued => exact ⟨[], .nil flow _, h⟩
  | deleted => exact wp_setFlowUnless h .stopping .stopped flow

theorem wp_billNode (h : Mid ids db ns ms fs s) (id : Uuid) :
    wp (billNode id) env (fun _ t => Mid ids db ns ms fs t) (Left ids db ns) s := by
  unfold billNode
  rw [wp_bind]
  exact wp_mono (wp_call h) (fun _ t ht => wp_quiet_note ht fun _ => rfl) (fun _ he => he)

theorem wp_closing {R : World → Prop} (h : Between ids db ns ms fs news s) (hk : db.Keyed)
    (id : Uuid) (hR : ∀ t, After ids db ns ms fs news t → R t) :
    wp (billNode id) env (fun _ t => wp saveChanged env (fun _ u => R u) R t) R s := by
  refine wp_mono (wp_between h fun _ _ hs => wp_billNode hs id) (fun _ t ht => ?_) hR
  exact wp_mono (wp_save_between ht hk) (fun _ u hu => hR u hu.after) hR

theorem wp_followUp_success {result : TaskResult} (hs : result.status = .success) (hk : w.db.Keyed)
    (hc : Commit [(result.id, .finished)] [] w.db db)
    (h : Mid w.ids db (notices w.trace) [] [] s) {c : Place} (hplace : c ∈ w.db.places)
    (hid : c.id = result.id) (flow : Uuid) :
    wp (followUp result flow >>= fun _ => saveChanged) env
      (fun _ t => Taken w result t) (Taken w result) s := by
  have hkept : ∀ t, Left w.ids db (notices w.trace) t → Taken w result t := by
    intro t ht
    refine .kept c hplace hid [] (.nil _ _) ?_
    rw [hs]
    exact (ht.commit hc).turn
  have hdispatched : ∀ t flow entries, Selected db result.id flow entries → entries ≠ [] →
      ∀ tasks, Tasks db.places flow.plan entries tasks → ∀ sent, sent <+: tasks →
      After w.ids db (notices w.trace) (running tasks) [(flow.id, flow.status)]
        (fun cs => sentAll cs sent) t → Taken w result t := by
    intro t flow entries hsel hne tasks htasks sent hsent ht
    have hchosen := hsel.chosen hk hc
    obtain ⟨f, hf, hplan, hstatus⟩ := hc.moves.status_mem hsel.flow_mem
    have hflow : f.id = flow.id := congrArg Plan.id hplan
    rw [hc.places] at htasks
    rw [← hplan] at hchosen htasks
    rw [← hflow, ← hstatus] at ht
    exact .dispatched f entries tasks sent hs hf hchosen hne htasks hsent (ht.trans hc).turn
  have hfinished : ∀ t flow, Selected db result.id flow [] →
      After w.ids db (notices w.trace) [] [(flow.id, .finished)]
        (fun cs => [.finished flow.id cs]) t → Taken w result t := by
    intro t flow hsel ht
    exact .finished flow.plan hs (hsel.chosen hk hc) (ht.trans hc).turn
  unfold followUp
  simp only [hs]
  rw [wp_bind, wp_bind]
  refine wp_mono (wp_scheduleAfter h (hc.keyed hk) result.id) ?_ ?_
  · rintro _ t ⟨f, entries, hsel, ⟨rfl, ht⟩ | ⟨hne, tasks, htasks, ht⟩⟩
    · exact wp_closing ht (hc.keyed hk) result.id fun u hu => hfinished u f hsel hu
    · exact wp_closing ht (hc.keyed hk) result.id fun u hu =>
        hdispatched u f entries hsel hne tasks htasks tasks List.prefix_rfl hu
  · rintro t (ht | ⟨f, entries, hsel, hne, tasks, htasks, sent, hsent, ht⟩)
    · exact hkept t ht
    · exact hdispatched t f entries hsel hne tasks htasks sent hsent ht

def saveReport (result : TaskResult) : Svc NodeInstance := do
  let node ← getNodeById result.id
  updateNode { node with
    log := some result.message
    resourceMeter := result.usedResources
    status := nodeStatus result.status }
  let _ ← saveChanged
  pure node

theorem wp_receiveNodeStatus_eq {Q : Unit → World → Prop} {E : World → Prop}
    (result : TaskResult) :
    wp (receiveNodeStatus result) env Q E s ↔
      wp (saveReport result) env (fun node t =>
        wp (followUp result node.flowInstanceId) env (fun _ u =>
          wp saveChanged env (fun _ v => Q () v) E u) E t) E s := by
  simp only [receiveNodeStatus, saveReport, wp_bind, wp_pure]

theorem wp_saveReport (hk : w.db.Keyed) (user : Option Uuid) (result : TaskResult) :
    wp (saveReport result) env
      (fun node t => node ∈ w.db.nodes ∧ node.id = result.id ∧ ∃ db,
        Commit [(result.id, nodeStatus result.status)] [] w.db db ∧
          Mid w.ids db (notices w.trace) [] [] t)
      (Left w.ids w.db (notices w.trace)) (w.open user) := by
  unfold saveReport
  rw [wp_bind]
  refine wp_mono (wp_getNodeById (w.mid_open user) result.id) (fun node s ⟨hs, hnode, hid⟩ => ?_)
    (fun _ he => he)
  have hplace := Tables.mem_places hnode
  rw [wp_bind]
  refine wp_mono (wp_updateNode hs hplace) (fun _ t ht => ?_) (fun _ he => he)
  rw [wp_bind]
  refine wp_mono (wp_saveChanged ht hk) (fun _ u ⟨db, hc, hu⟩ => ?_) (fun _ he => he)
  rw [wp_pure]
  change Commit [(node.id, nodeStatus result.status)] [] w.db db at hc
  rw [hid] at hc
  exact ⟨hnode, hid, db, hc, hu⟩

theorem wp_afterReport (hk : w.db.Keyed) {result : TaskResult} {node : NodeInstance}
    (hnode : node ∈ w.db.nodes) (hid : node.id = result.id)
    (hc : Commit [(result.id, nodeStatus result.status)] [] w.db db)
    (h : Mid w.ids db (notices w.trace) [] [] s) :
    wp (followUp result node.flowInstanceId) env (fun _ t =>
      wp saveChanged env (fun _ u => Taken w result u) (Taken w result) t) (Taken w result) s := by
  have hplace := Tables.mem_places hnode
  by_cases hsucc : result.status = .success
  · rw [hsucc] at hc
    have hfollow : wp _ env _ _ s :=
      wp_followUp_success hsucc hk hc h hplace hid node.flowInstanceId
    rw [wp_bind] at hfollow
    exact hfollow
  · have hkept : ∀ v fs, About node.flowInstanceId (reported result.status) fs →
        After w.ids db (notices w.trace) [] fs silent v → Taken w result v :=
      fun v fs hfs hv => .kept node.place hplace hid fs hfs (hv.trans hc).turn
    refine wp_mono (wp_followUp_quiet h hsucc node.flowInstanceId) ?_
      (fun v hv => hkept v [] (.nil _ _) hv.after)
    rintro _ v ⟨fs, hfs, hv⟩
    refine wp_mono (wp_saveChanged hv (hc.keyed hk)) (fun _ x ⟨db', hc', hx⟩ => ?_)
      (fun x hx => hkept x [] (.nil _ _) hx.after)
    exact hkept x fs hfs (hx.left.commit hc')

theorem wp_receiveNodeStatus (hk : w.db.Keyed) (user : Option Uuid) (result : TaskResult) :
    wp (receiveNodeStatus result) env (fun _ t => Received w result t) (Received w result)
      (w.open user) := by
  rw [wp_receiveNodeStatus_eq]
  refine wp_mono (wp_saveReport hk user result) (fun node t ⟨hnode, hid, db, hc, ht⟩ => ?_)
    (fun _ he => .lost he.after.turn)
  refine wp_mono (wp_afterReport hk hnode hid hc ht) (fun _ u hu => ?_) (fun _ he => .taken he)
  exact wp_mono hu (fun _ _ h => .taken h) (fun _ h => .taken h)

theorem step_receive (hk : w.db.Keyed) (result : TaskResult) :
    Received w result (step env w (.receive result)) :=
  step_of_wp (wp_receiveNodeStatus hk none result)

theorem step_taken (hk : w.db.Keyed) {result : TaskResult} {node : NodeInstance}
    (hsave : saveReport result env (w.open none) = (.ok node, s)) :
    Taken w result (step env w (.receive result)) := by
  refine step_of_wp ?_
  change wp (receiveNodeStatus result) env _ _ (w.open none)
  obtain ⟨hnode, hid, db, hc, hs⟩ := (wp_of_eq hsave).mp (wp_saveReport hk none result)
  rw [wp_receiveNodeStatus_eq, wp_of_eq hsave]
  exact wp_afterReport hk hnode hid hc hs

end Receive

section Start

def pending (rows : List Place) : List NodeMark := rows.map (fun c => (c.id, .pending))

def AllOf (w : World) (id : Uuid) (rows : List Place) : Prop :=
  rows.Perm (w.db.places.filter (fun c => c.flow == id))

inductive Carried (w : World) (id : Uuid) (whole : Prop) (w' : World) : Prop where
  | finished (rows : List Place) (flow : WorkflowInstance) (ls : List (List Uuid))
      (fs : List FlowMark) (hrows : AllOf w id rows) (entering : Entering w.db id flow [] ls)
      (hfs : About id (.finished :: opening) fs)
      (turn : Turn (pending rows ++ standing ls) fs (fun cs => [.finished id cs]) w w')
  | dispatched (rows : List Place) (flow : WorkflowInstance) (entries : List Uuid)
      (ls : List (List Uuid)) (tasks sent : List Uuid) (fs : List FlowMark)
      (hrows : AllOf w id rows) (entering : Entering w.db id flow entries ls)
      (entered : entries ≠ []) (htasks : Tasks w.db.places flow.plan entries tasks)
      (hsent : sent <+: tasks) (hwhole : whole → sent = tasks ∧ FlowIs id .running w')
      (hfs : About id opening fs)
      (turn : Turn (pending rows ++ (standing ls ++ running tasks)) fs
        (fun cs => sentAll cs sent) w w')

inductive Started (w : World) (id : Uuid) (w' : World) : Prop where
  | lost (turn : Turn [] [] silent w w')
  | reset (rows : List Place) (fs : List FlowMark) (hrows : AllOf w id rows)
      (hfs : About id opening fs) (turn : Turn (pending rows) fs silent w w')
  | carried (h : Carried w id False w')

theorem Entering.of_commit {id : Uuid} {flow : WorkflowInstance} {entries : List Uuid}
    {ls : List (List Uuid)} (h : Entering db' id flow entries ls) (hc : Commit ms fs db db') :
    Entering db id flow entries ls := by
  refine ⟨?_, h.flow_id, h.status, h.unfed, ?_⟩
  · rw [← hc.plans_eq]
    exact h.flow_plan
  · rw [← hc.places]
    exact h.stands

-- Starting a workflow, up to the save of the `Pending` statuses.
def resetWorkflow (id : Uuid) : Svc Unit := do
  let flow ← getFlowById id
  let nodes ← getAllWorkflowInstanceNodes flow.id
  updateFlow { flow with status := .pending }
  Effect.each (fun node => updateNode { node with status := .pending }) nodes
  let _ ← saveChanged
  pure ()

theorem startWorkflow_eq (id : Uuid) : WorkflowService.startWorkflow id =
    resetWorkflow id >>= fun _ => scheduleNextNodes (.workflowInstanceId id) := by
  simp only [WorkflowService.startWorkflow, resetWorkflow, bind_assoc, pure_bind]

theorem wp_resetWorkflow (hk : w.db.Keyed) (user : Option Uuid) (id : Uuid) :
    wp (resetWorkflow id) env
      (fun _ t => ∃ rows db, AllOf w id rows ∧ Commit (pending rows) [(id, .pending)] w.db db ∧
        Mid w.ids db (notices w.trace) [] [] t)
      (Left w.ids w.db (notices w.trace)) (w.open user) := by
  unfold resetWorkflow
  rw [wp_bind]
  refine wp_mono (wp_getFlowById (w.mid_open user) id) (fun flow s ⟨hs, hflow, hid⟩ => ?_)
    (fun _ he => he)
  have hplan := Tables.mem_plans hflow
  rw [wp_bind]
  refine wp_mono (wp_selectNodes hs _) (fun rows t ⟨ht, hperm⟩ => ?_) (fun _ he => he)
  have hrows : AllOf w id (rows.map NodeInstance.place) := by
    have hmap := hperm.map NodeInstance.place
    rw [hid] at hmap
    rw [AllOf, Tables.places, List.filter_map]
    exact hmap
  rw [wp_bind]
  refine wp_mono (wp_updateFlow ht hplan) (fun _ u hu => ?_) (fun _ he => he)
  rw [wp_bind]
  refine wp_mono (wp_setAll .pending (fun row hrow => ?_) hu) (fun _ v hv => ?_) (fun _ he => he)
  · exact (List.mem_filter.mp (hperm.mem_iff.mp hrow)).1
  rw [List.nil_append, List.nil_append, List.map_map, hid] at hv
  rw [wp_bind]
  refine wp_mono (wp_saveChanged hv hk) ?_ (fun _ he => he)
  rintro _ x ⟨db, hc, hx⟩
  change Commit (rows.map fun row => (row.place.id, .pending)) _ w.db db at hc
  have hpending : rows.map (fun row => (row.place.id, NodeInstanceStatus.pending)) =
      pending (rows.map NodeInstance.place) := by
    rw [pending, List.map_map]
    rfl
  rw [hpending] at hc
  exact ⟨_, db, hrows, hc, hx⟩

theorem wp_startWorkflow (hk : w.db.Keyed) (user : Option Uuid) (id : Uuid) :
    wp (WorkflowService.startWorkflow id) env (fun _ t => Carried w id True t) (Started w id)
      (w.open user) := by
  rw [startWorkflow_eq, wp_bind]
  refine wp_mono (wp_resetWorkflow hk user id) (fun _ x ⟨rows, db, hrows, hc, hx⟩ => ?_)
    (fun t ht => .lost ht.after.turn)
  have hopening : About id opening [(id, .pending), (id, .running)] :=
    (About.single (by decide)).cons (by decide)
  have hagain : About id opening [(id, .pending), (id, .running), (id, .running)] :=
    ((About.single (by decide)).cons (by decide)).cons (by decide)
  have hfinished : About id (.finished :: opening)
      [(id, .pending), (id, .running), (id, .finished)] :=
    ((About.single (by decide)).cons (by decide)).cons (by decide)
  refine wp_mono (wp_scheduleFrom hx (hc.keyed hk) id) ?_ ?_
  · rintro _ y ⟨f, entries, ls, hent, ⟨rfl, hy⟩ | ⟨hne, tasks, htasks, hy, hrunning⟩⟩
    · exact .finished _ f ls _ hrows (hent.of_commit hc) hfinished (hy.trans hc).turn
    · rw [hc.places] at htasks
      refine .dispatched _ f entries ls tasks tasks _ hrows (hent.of_commit hc) hne htasks
        List.prefix_rfl (fun _ => ⟨rfl, hrunning⟩) ?_ (hy.trans hc).turn
      rw [hent.status]
      exact hagain
  · rintro y (hy | ⟨f, entries, ls, hent, hne, tasks, htasks, sent, hsent, hy⟩)
    · have hturn := (hy.trans hc).turn
      rw [List.append_nil] at hturn
      exact .reset _ _ hrows hopening hturn
    · rw [hc.places] at htasks
      refine .carried (.dispatched _ f entries ls tasks sent _ hrows (hent.of_commit hc) hne htasks
        hsent False.elim ?_ (hy.trans hc).turn)
      rw [hent.status]
      exact hagain

theorem Carried.weaken {id : Uuid} {whole : Prop} (h : Carried w id whole w') :
    Carried w id False w' := by
  cases h with
  | finished rows flow ls fs hrows entering hfs turn =>
    exact .finished rows flow ls fs hrows entering hfs turn
  | dispatched rows flow entries ls tasks sent fs hrows entering entered htasks hsent _ hfs turn =>
    exact .dispatched rows flow entries ls tasks sent fs hrows entering entered htasks hsent
      False.elim hfs turn

theorem step_start (hk : w.db.Keyed) (user : Option Uuid) (id : Uuid) :
    Started w id (step env w (.start user id)) :=
  step_of_wp (wp_mono (wp_startWorkflow hk user id) (fun _ _ h => .carried h.weaken)
    (fun _ h => h))

theorem handle_start (hk : w.db.Keyed) (user : Option Uuid) (id : Uuid) {u : Unit}
    (h : (Request.handle env w (.start user id)).1 = .ok u) :
    Carried w id True (step env w (.start user id)) := by
  have hwp : wp (Request.start user id).serve env _ _ (w.open user) := wp_startWorkflow hk user id
  exact handle_of_wp hwp h

end Start

section Operate

inductive Operated (w : World) (flowStatus : WorkflowInstanceStatus) (status : NodeInstanceStatus)
    (affected : NodeInstanceStatus → Bool) (id : Uuid) (w' : World) : Prop where
  | lost (turn : Turn [] [] silent w w')
  | operated (rows : List Cell)
      (hrows : rows.Perm ((cells w.db.nodes).filter (fun c => c.1.flow == id && affected c.2)))
      (turn : Turn (rows.map (fun c => (c.1.id, status))) [(id, flowStatus)] silent w w')

structure Accomplished (w : World) (flowStatus : WorkflowInstanceStatus) (status : NodeInstanceStatus)
    (affected : NodeInstanceStatus → Bool) (id : Uuid) (w' : World) : Prop where
  turned : ∃ rows : List Cell,
    rows.Perm ((cells w.db.nodes).filter (fun c => c.1.flow == id && affected c.2)) ∧
      Turn (rows.map (fun c => (c.1.id, status))) [(id, flowStatus)] silent w w'
  flow : FlowIs id flowStatus w'

theorem wp_commandTask (h : Mid ids db ns ms fs s) (taskId : Uuid) (command : TaskCommand) :
    wp (commandTask taskId command) env (fun _ t => Mid ids db ns ms fs t) (Left ids db ns) s := by
  unfold commandTask
  rw [wp_bind]
  refine wp_mono (wp_getNodeById h taskId) (fun node t ⟨ht, _, _⟩ => ?_) (fun _ he => he)
  cases node.clusterId with
  | some cluster => exact wp_sendTask ht taskId command cluster
  | none => exact ht.left

theorem wp_operateTask (h : Mid ids db ns ms fs s) (task : OperateTask) :
    wp (operateTask task) env (fun _ t => Mid ids db ns ms fs t) (Left ids db ns) s := by
  unfold operateTask
  rw [wp_bind]
  refine wp_mono (wp_quiet_note h fun _ => rfl) (fun _ t ht => ?_) (fun _ he => he)
  cases task.kind with
  | noAction => exact wp_sendNodeStatus ht task.taskId _
  | softwareUsecaseComputing => exact wp_commandTask ht task.taskId task.command
  | script => exact wp_commandTask ht task.taskId task.command
  | milestone => exact ht.left

theorem wp_setAndOperate (h : Mid ids db ns ms fs s) (status : NodeInstanceStatus)
    (command : TaskCommand) {node : NodeInstance} (hnode : node ∈ db.nodes) :
    wp (setAndOperate status command node) env
      (fun _ t => Mid ids db ns (ms ++ [(node.id, status)]) fs t) (Left ids db ns) s := by
  have hplace := Tables.mem_places hnode
  unfold setAndOperate
  rw [wp_bind]
  exact wp_mono (wp_updateNode h hplace) (fun _ t ht => wp_operateTask ht _) (fun _ he => he)

theorem wp_operateWorkflow (hk : w.db.Keyed) (user : Option Uuid)
    (flowStatus : WorkflowInstanceStatus) (status : NodeInstanceStatus) (command : TaskCommand)
    (affected : NodeInstanceStatus → Bool) (id : Uuid) :
    wp (operateWorkflow flowStatus status command affected id) env
      (fun _ t => Accomplished w flowStatus status affected id t) (Turn [] [] silent w)
      (w.open user) := by
  unfold operateWorkflow
  have hlost : ∀ t, Left w.ids w.db (notices w.trace) t → Turn [] [] silent w t :=
    fun t ht => ht.after.turn
  rw [wp_bind]
  refine wp_mono (wp_getFlowById (w.mid_open user) id) (fun flow s hread => ?_) hlost
  obtain ⟨hs, hflow, hid⟩ := hread
  have hplan := Tables.mem_plans hflow
  rw [wp_bind]
  refine wp_mono (wp_selectNodes hs _) (fun nodes t hselect => ?_) hlost
  obtain ⟨ht, hperm⟩ := hselect
  generalize hrows : nodes.filter (fun el => affected el.status) = rows
  have hmem : ∀ row ∈ rows, row ∈ w.db.nodes := by
    intro row hrow
    rw [← hrows, List.mem_filter, hperm.mem_iff, List.mem_filter] at hrow
    exact hrow.1.1
  have hcells : (rows.map NodeInstance.cell).Perm
      ((cells w.db.nodes).filter (fun c => c.1.flow == id && affected c.2)) := by
    have hmap := (hperm.filter (fun el => affected el.status)).map NodeInstance.cell
    rw [hrows, List.filter_filter, hid] at hmap
    rw [cells, List.filter_map]
    refine hmap.trans (List.Perm.of_eq ?_)
    congr 2
    funext row
    exact Bool.and_comm _ _
  rw [wp_bind]
  refine wp_mono (wp_eachStatus (R := fun row l => l = [row.id]) status rows
    (fun row hrow ms t ht => ?_) ht) (fun _ u heach => ?_) hlost
  · exact wp_mono (wp_setAndOperate ht status command (hmem row hrow))
      (fun _ v hv => ⟨[row.id], rfl, hv⟩) (fun _ he => he)
  obtain ⟨ls, hls, hu⟩ := heach
  rw [flatten_of_forall₂_singleton hls, List.nil_append, List.map_map] at hu
  rw [wp_bind]
  refine wp_mono (wp_updateFlow_last hu hplan) (fun _ v hupdate => ?_) hlost
  obtain ⟨hv, hlast⟩ := hupdate
  rw [wp_bind]
  refine wp_mono (wp_save hv.canDrop) (fun _ x hsaved => ?_) (fun x hx => hlost x (.of_kept hv hx))
  obtain ⟨hc, hx⟩ := hsaved.commit hv hk
  constructor
  · refine ⟨rows.map NodeInstance.cell, hcells, ?_⟩
    rw [List.map_map, ← hid]
    exact (hx.left.commit hc).turn
  · have hkeyed := hk
    rw [← hv.db_eq] at hflow hkeyed
    have hstatus := hsaved.status_of_lasts hlast hkeyed hflow rfl rfl
    rw [FlowIs, ← hid]
    exact hstatus

theorem step_operate {q : Request} {user : Option Uuid} {flowStatus : WorkflowInstanceStatus}
    {status : NodeInstanceStatus} {command : TaskCommand} {affected : NodeInstanceStatus → Bool}
    {id : Uuid} (hk : w.db.Keyed) (hq : q.serve = operateWorkflow flowStatus status command affected id)
    (huser : q.user = user) :
    Turn [] [] silent w (step env w q) ∨
      Accomplished w flowStatus status affected id (step env w q) := by
  have hwp : wp q.serve env _ _ (w.open user) :=
    hq ▸ wp_operateWorkflow hk user flowStatus status command affected id
  rw [← huser] at hwp
  rcases wp_run hwp with ⟨_, _, h⟩ | ⟨_, h⟩
  · exact .inr h
  · exact .inl h

theorem Operated.of_step {flowStatus : WorkflowInstanceStatus} {status : NodeInstanceStatus}
    {affected : NodeInstanceStatus → Bool} {id : Uuid}
    (h : Turn [] [] silent w w' ∨ Accomplished w flowStatus status affected id w') :
    Operated w flowStatus status affected id w' := by
  rcases h with h | h
  · exact .lost h
  · obtain ⟨rows, hrows, turn⟩ := h.turned
    exact .operated rows hrows turn

theorem step_pause (hk : w.db.Keyed) (user : Option Uuid) (id : Uuid) :
    Operated w .paused .paused (fun s => s == .running) id (step env w (.pause user id)) :=
  .of_step (step_operate hk rfl rfl)

theorem step_continue (hk : w.db.Keyed) (user : Option Uuid) (id : Uuid) :
    Operated w .running .running (fun s => s == .paused) id (step env w (.continue user id)) :=
  .of_step (step_operate hk rfl rfl)

theorem step_terminate (hk : w.db.Keyed) (user : Option Uuid) (id : Uuid) :
    Operated w .stopped .stopped (fun s => s == .running || s == .paused) id
      (step env w (.terminate user id)) :=
  .of_step (step_operate hk rfl rfl)

theorem handle_operate {q : Request} {user : Option Uuid} {flowStatus : WorkflowInstanceStatus}
    {status : NodeInstanceStatus} {command : TaskCommand} {affected : NodeInstanceStatus → Bool}
    {id : Uuid} {u : Unit} (hk : w.db.Keyed)
    (hq : q.serve = operateWorkflow flowStatus status command affected id) (huser : q.user = user)
    (h : (q.handle env w).1 = .ok u) :
    Accomplished w flowStatus status affected id (step env w q) := by
  have hwp : wp q.serve env _ _ (w.open user) :=
    hq ▸ wp_operateWorkflow hk user flowStatus status command affected id
  rw [← huser] at hwp
  exact handle_of_wp hwp h

theorem handle_pause (hk : w.db.Keyed) (user : Option Uuid) (id : Uuid) {u : Unit}
    (h : (Request.handle env w (.pause user id)).1 = .ok u) :
    Accomplished w .paused .paused (fun s => s == .running) id (step env w (.pause user id)) :=
  handle_operate hk rfl rfl h

theorem handle_continue (hk : w.db.Keyed) (user : Option Uuid) (id : Uuid) {u : Unit}
    (h : (Request.handle env w (.continue user id)).1 = .ok u) :
    Accomplished w .running .running (fun s => s == .paused) id (step env w (.continue user id)) :=
  handle_operate hk rfl rfl h

theorem handle_terminate (hk : w.db.Keyed) (user : Option Uuid) (id : Uuid) {u : Unit}
    (h : (Request.handle env w (.terminate user id)).1 = .ok u) :
    Accomplished w .stopped .stopped (fun s => s == .running || s == .paused) id
      (step env w (.terminate user id)) := handle_operate hk rfl rfl h

end Operate

end Kuintessence

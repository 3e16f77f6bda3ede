import Kuintessence.Engine.Specs
import Kuintessence.Workflow.Agreement

namespace Kuintessence

open Effect StatusReceiver WorkflowService

variable {α β : Type} {env : Env} {w w' s t : World} {id x : Uuid}

def Event.billed : Event → Option Uuid
  | .bill id => some id
  | _ => none

def billings (w : World) : List Uuid := w.trace.filterMap Event.billed

def billFrame : Frame World :=
  ⟨fun s t => billings t = billings s, fun _ => rfl, fun h h' => h'.trans h⟩

section Frame

theorem unbilled : Inert billFrame := viewFrame_inert (fun _ _ _ => rfl) fun _ => rfl

theorem unbilled_select (mode : ScheduleMode) : Keeps billFrame (select mode) := by
  cases mode with
  | nodeInstanceId id => exact unbilled.keeps (keeps_selectNext id)
  | workflowInstanceId id =>
    exact keeps_read.bind fun _ => (unbilled.keeps (keeps_getFlowById id)).bind fun _ =>
      (unbilled.updateFlow _).bind fun _ => unbilled.save.bind fun _ => keeps_get.bind
        fun _ => (Keeps.each (unbilled.standByNode _) _).bind fun _ => keeps_pure _

theorem unbilled_runTasks (tasks : List NodeSpec) : Keeps billFrame (runTasks tasks) := by
  have hsend : ∀ spec, Keeps billFrame (sendUsecase spec) := fun spec =>
    unbilled.sendUsecase (keeps_view_note fun _ => rfl)
  exact (Keeps.each (fun _ => (unbilled.keeps (keeps_getNodeById _)).bind
    fun _ => unbilled.updateNode _) _).bind fun _ => unbilled.save.bind fun _ => Keeps.each hsend _

theorem unbilled_scheduleNextNodes (mode : ScheduleMode) :
    Keeps billFrame (scheduleNextNodes mode) := by
  refine (unbilled_select mode).bind fun selected => ?_
  split
  · exact (unbilled.updateFlow _).bind fun _ => unbilled.save.bind fun _ => keeps_view_note fun _ => rfl
  · exact (unbilled.keeps (Keeps.mapEach (keeps_prepareNode _ _) _)).bind fun _ =>
      (unbilled_runTasks _).bind fun _ => (unbilled.updateFlow _).bind fun _ =>
        unbilled.save.bind fun _ => keeps_pure _

theorem unbilled_operateWorkflow (flowStatus : WorkflowInstanceStatus) (status : NodeInstanceStatus)
    (command : TaskCommand) (affected : NodeInstanceStatus → Bool) (id : Uuid) :
    Keeps billFrame (operateWorkflow flowStatus status command affected id) := by
  have hoperate : ∀ node, Keeps billFrame (setAndOperate status command node) := fun node =>
    (unbilled.updateNode _).bind fun _ => unbilled.operateTask (keeps_view_note fun _ => rfl)
  exact (unbilled.keeps (keeps_getFlowById id)).bind fun _ => (unbilled.keeps (keeps_selectNodes _)).bind
    fun _ => (Keeps.each hoperate _).bind fun _ => (unbilled.updateFlow _).bind fun _ =>
      unbilled.save.bind fun _ => keeps_pure _

theorem unbilled_startWorkflow (id : Uuid) : Keeps billFrame (startWorkflow id) :=
  (unbilled.keeps (keeps_getFlowById id)).bind fun _ => (unbilled.keeps (keeps_selectNodes _)).bind fun _ =>
    (unbilled.updateFlow _).bind fun _ => (Keeps.each (fun _ => unbilled.updateNode _) _).bind
      fun _ => unbilled.save.bind fun _ => unbilled_scheduleNextNodes _

theorem unbilled_saveReport (result : TaskResult) : Keeps billFrame (saveReport result) :=
  (unbilled.keeps (keeps_getNodeById _)).bind fun _ => (unbilled.updateNode _).bind fun _ =>
    unbilled.save.bind fun _ => keeps_pure _

theorem unbilled_setFlowUnless (awaited : NodeInstanceStatus) (status : WorkflowInstanceStatus)
    (flow : Uuid) : Keeps billFrame (setFlowUnless awaited status flow) := by
  refine (unbilled.keeps (keeps_getFlowById flow)).bind fun _ =>
    (unbilled.keeps (keeps_selectNodes _)).bind fun _ => ?_
  split
  · exact unbilled.updateFlow _
  · exact keeps_pure _

theorem unbilled_followUp {result : TaskResult} (hne : result.status ≠ .success) (flow : Uuid) :
    Keeps billFrame (followUp result flow) := by
  unfold followUp
  cases hs : result.status with
  | success => exact absurd hs hne
  | failed =>
    exact (unbilled.keeps (keeps_getFlowById flow)).bind fun _ => unbilled.updateFlow _
  | paused => exact unbilled_setFlowUnless .pausing .paused flow
  | continued => exact keeps_pure _
  | deleted => exact unbilled_setFlowUnless .stopping .stopped flow

end Frame

theorem step_unbilled {q : Request} (h : Keeps billFrame q.serve) :
    billings (step env w q) = billings w :=
  h env (w.open q.user)

def chargeUp (result : TaskResult) : Svc Nat := do
  let _ ← saveReport result
  scheduleNextNodes (.nodeInstanceId result.id)
  call

theorem unbilled_chargeUp (result : TaskResult) : Keeps billFrame (chargeUp result) :=
  (unbilled_saveReport result).bind fun _ => (unbilled_scheduleNextNodes _).bind
    fun _ => unbilled.keeps keeps_call

theorem wp_receive_success {result : TaskResult} (hs : result.status = .success)
    {Q : Unit → World → Prop} {E : World → Prop} :
    wp (receiveNodeStatus result) env Q E s ↔
      wp (chargeUp result) env (fun _ t => wp (note fun _ => .bill result.id) env (fun _ u =>
        wp saveChanged env (fun _ v => Q () v) E u) E t) E s := by
  rw [wp_receiveNodeStatus_eq, chargeUp]
  simp only [followUp, hs, billNode, wp_bind]

def GetsThrough (env : Env) (w : World) (result : TaskResult) : Prop :=
  ∃ k, (chargeUp result env (w.open none)).1 = .ok k

structure Charges (env : Env) (w : World) (result : TaskResult) : Prop where
  success : result.status = .success
  settled : ∀ n ∈ w.db.nodes, n.id = result.id → OthersSettled w n.flowInstanceId n.id
  through : GetsThrough env w result

theorem GetsThrough.settled {result : TaskResult} (hs : Sound w) (hsuccess : result.status = .success)
    (h : GetsThrough env w result) :
    ∀ n ∈ w.db.nodes, n.id = result.id → OthersSettled w n.flowInstanceId n.id := by
  have hk := hs.keyed
  have hgate : wp (chargeUp result) env
      (fun _ _ => ∃ flow entries, Chosen w result.id (WorkflowInstance.plan flow) entries)
      (fun _ => True) (w.open none) := by
    unfold chargeUp
    rw [wp_bind]
    refine wp_mono (wp_saveReport hk none result) (fun node t ⟨hnode, hid, db, hc, ht⟩ => ?_)
      (fun _ _ => trivial)
    rw [hsuccess] at hc
    rw [wp_bind]
    refine wp_mono (wp_scheduleAfter ht (hc.keyed hk) result.id) (fun _ u hu => ?_)
      (fun _ _ => trivial)
    obtain ⟨flow, entries, hselected, -⟩ := hu
    exact wp_mono (wp_true call) (fun _ _ _ => ⟨flow, entries, hselected.chosen hk hc⟩)
      (fun _ _ => trivial)
  obtain ⟨k, hk'⟩ := h
  rcases wp_run hgate with ⟨_, _, flow, entries, hchosen⟩ | ⟨hne, -⟩
  · intro n hn hid
    obtain ⟨m, hm, hmid, hflow⟩ := hchosen.node
    rw [hk.node_eq hn hm (hid.trans hmid.symm), hflow, hmid]
    exact hchosen.settled
  · exact absurd hk' (hne k)

theorem charges_iff {result : TaskResult} (hs : Sound w) :
    Charges env w result ↔ result.status = .success ∧ GetsThrough env w result :=
  ⟨fun h => ⟨h.success, h.through⟩, fun ⟨hsuccess, h⟩ => ⟨hsuccess, h.settled hs hsuccess, h⟩⟩

theorem billings_bill {id : Uuid} (h : billings s = billings w) :
    wp (note fun _ => .bill id) env (fun _ t => billings t = billings w ++ [id])
      (fun _ => False) s := by
  change (s.trace ++ [Event.bill id]).filterMap Event.billed = _
  rw [List.filterMap_append, ← billings, h]
  rfl

theorem billings_success {result : TaskResult} (hsuccess : result.status = .success) :
    (GetsThrough env w result →
        billings (step env w (.receive result)) = billings w ++ [result.id]) ∧
      (¬GetsThrough env w result → billings (step env w (.receive result)) = billings w) := by
  refine step_of_wp (R := fun u => (GetsThrough env w result → billings u = billings w ++ [result.id]) ∧
    (¬GetsThrough env w result → billings u = billings w)) ?_
  change wp (receiveNodeStatus result) env _ _ (w.open none)
  rw [wp_receive_success hsuccess]
  refine wp_mono (wp_and ((unbilled_chargeUp result).wp env (w.open none))
    (wp_result (chargeUp result) env (w.open none))) ?_ ?_
  · rintro k t ⟨hsame, hout⟩
    have hthrough : GetsThrough env w result := ⟨k, by rw [hout]⟩
    refine wp_mono (billings_bill hsame) (fun _ u hu => ?_) (fun _ he => he.elim)
    have hkept : ∀ v, billings v = billings u →
        (GetsThrough env w result → billings v = billings w ++ [result.id]) ∧
          (¬GetsThrough env w result → billings v = billings w) :=
      fun v hv => ⟨fun _ => hv.trans hu, fun hnot => absurd hthrough hnot⟩
    exact wp_mono (unbilled.save.wp env u) (fun _ => hkept) hkept
  · rintro t ⟨hsame, hnone⟩
    exact ⟨fun ⟨k, hk⟩ => absurd hk (hnone k), fun _ => hsame⟩

theorem unbilled_receive {result : TaskResult} (hne : result.status ≠ .success) :
    Keeps billFrame (receiveNodeStatus result) :=
  (unbilled.keeps (keeps_getNodeById _)).bind fun _ => (unbilled.updateNode _).bind fun _ =>
    unbilled.save.bind fun _ => (unbilled_followUp hne _).bind fun _ =>
      unbilled.save.bind fun _ => keeps_pure _

def ReportsSuccess (q : Request) : Prop := ∃ result, q = .receive result ∧ result.status = .success

theorem unbilled_serve {q : Request} (h : ¬ReportsSuccess q) : Keeps billFrame q.serve := by
  cases q with
  | submit user draftId => exact (unbilled.submitWorkflow draftId).bind fun _ => keeps_pure _
  | start user id => exact unbilled_startWorkflow id
  | pause user id => exact unbilled_operateWorkflow _ _ _ _ id
  | «continue» user id => exact unbilled_operateWorkflow _ _ _ _ id
  | terminate user id => exact unbilled_operateWorkflow _ _ _ _ id
  | receive result => exact unbilled_receive fun hsuccess => h ⟨result, rfl, hsuccess⟩

def ChargesNode (env : Env) (x : Uuid) (w : World) (q : Request) : Prop :=
  ∃ result, q = .receive result ∧ result.id = x ∧ Charges env w result

theorem step_charges {q : Request} (h : ChargesNode env x w q) :
    billings (step env w q) = billings w ++ [x] := by
  obtain ⟨result, rfl, rfl, hcharges⟩ := h
  exact (billings_success hcharges.success).1 hcharges.through

theorem step_spares (hs : Sound w) {q : Request} (h : ¬ChargesNode env x w q) :
    (billings (step env w q)).count x = (billings w).count x := by
  by_cases hq : ReportsSuccess q
  · obtain ⟨result, rfl, hsuccess⟩ := hq
    by_cases hthrough : GetsThrough env w result
    · have hne : result.id ≠ x := fun hid =>
        h ⟨result, rfl, hid, (charges_iff hs).mpr ⟨hsuccess, hthrough⟩⟩
      rw [(billings_success hsuccess).1 hthrough, List.count_append, List.count_singleton,
        if_neg (by simpa using hne), Nat.add_zero]
    · rw [(billings_success hsuccess).2 hthrough]
  · rw [step_unbilled (unbilled_serve hq)]

theorem counts_bills (env : Env) (x : Uuid) :
    Counts (step env) Sound (ChargesNode env x) (fun w => (billings w).count x) := by
  refine ⟨fun w q hs => step_sound hs q, fun w q _ hcharges => ?_, fun w q hs => step_spares hs⟩
  rw [step_charges hcharges, List.count_append, List.count_singleton_self]

section Samples

instance (env : Env) (w : World) (result : TaskResult) : Decidable (GetsThrough env w result) :=
  match h : (chargeUp result env (w.open none)).1 with
  | .ok k => .isTrue ⟨k, h⟩
  | .err e => .isFalse fun ⟨k, hk⟩ => by rw [h] at hk; cases hk
  | .panic => .isFalse fun ⟨k, hk⟩ => by rw [h] at hk; cases hk

instance (env : Env) (w : World) (result : TaskResult) : Decidable (Charges env w result) :=
  decidable_of_iff (result.status = .success ∧
    (∀ n ∈ w.db.nodes, n.id = result.id → OthersSettled w n.flowInstanceId n.id) ∧
      GetsThrough env w result)
    ⟨fun ⟨h, h', h''⟩ => ⟨h, h', h''⟩, fun h => ⟨h.success, h.settled, h.through⟩⟩

instance (env : Env) (x : Uuid) (w : World) (q : Request) : Decidable (ChargesNode env x w q) :=
  match q with
  | .receive result => decidable_of_iff (result.id = x ∧ Charges env w result)
      ⟨fun h => ⟨result, rfl, h⟩, fun ⟨_, heq, h⟩ => by cases heq; exact h⟩
  | .submit _ _ => .isFalse fun ⟨_, heq, _⟩ => nomatch heq
  | .start _ _ => .isFalse fun ⟨_, heq, _⟩ => nomatch heq
  | .pause _ _ => .isFalse fun ⟨_, heq, _⟩ => nomatch heq
  | .continue _ _ => .isFalse fun ⟨_, heq, _⟩ => nomatch heq
  | .terminate _ _ => .isFalse fun ⟨_, heq, _⟩ => nomatch heq

def joinReports : List Request :=
  [.start (some 5) 100, report 101 .success, report 103 .success]

end Samples

end Kuintessence

import Kuintessence.Engine.Handing

namespace Kuintessence

open Effect

variable {env : Env} {s t u : World} {x : Uuid}

def Event.about : Event → Option Uuid
  | .sendTask taskId _ _ => some taskId
  | .nodeStatus result => some result.id
  | _ => none

def Grows (s t : World) : Prop := s.trace <+: t.trace

def Notified (s t : World) (x : Uuid) : Prop :=
  ∃ news, t.trace = s.trace ++ news ∧ ∃ e ∈ news, e.about = some x

theorem Notified.after (h : Notified t u x) (hgrows : Grows s t) : Notified s u x := by
  obtain ⟨news, htrace, e, he, habout⟩ := h
  obtain ⟨before, hbefore⟩ := hgrows
  refine ⟨before ++ news, ?_, e, List.mem_append_right _ he, habout⟩
  rw [htrace, ← hbefore, List.append_assoc]

theorem Notified.later (h : Notified s t x) (hgrows : Grows t u) : Notified s u x := by
  obtain ⟨news, htrace, e, he, habout⟩ := h
  obtain ⟨after, hafter⟩ := hgrows
  refine ⟨news ++ after, ?_, e, List.mem_append_left _ he, habout⟩
  rw [← hafter, htrace, List.append_assoc]

theorem Notified.grows (h : Notified s t x) : Grows s t := by
  obtain ⟨news, htrace, -⟩ := h
  exact ⟨news, htrace.symm⟩

section Growing

def growFrame : Frame World := ⟨Grows, fun _ => List.prefix_rfl, fun h h' => h.trans h'⟩

theorem Grows.of_eq (h : t.trace = s.trace) : Grows s t := ⟨[], by rw [List.append_nil, h]⟩

theorem keeps_note_grow (e : List NodeInstance → Event) : Keeps growFrame (note e) :=
  fun _ _ => List.prefix_append _ _

theorem growFrame_inert : Inert growFrame where
  calm _ _ h := .of_eq h.trace
  node _ _ _ := .of_eq rfl
  save := keeps_saveChanged_trace.mono fun _ _ h => .of_eq h.1
  task _ _ _ := keeps_note_grow _
  status _ := keeps_note_grow _

theorem keeps_updateFlow_grow (flow : WorkflowInstance) : Keeps growFrame (updateFlow flow) :=
  (growFrame_inert.keeps keeps_call).bind fun _ => fun _ _ => .of_eq rfl

theorem keeps_select_grow (mode : ScheduleMode) : Keeps growFrame (select mode) := by
  have hinert := growFrame_inert
  cases mode with
  | nodeInstanceId id => exact hinert.keeps (keeps_selectNext id)
  | workflowInstanceId id =>
    exact keeps_read.bind fun _ => (hinert.keeps (keeps_getFlowById id)).bind fun _ =>
      (keeps_updateFlow_grow _).bind fun _ => hinert.save.bind fun _ => keeps_get.bind
        fun _ => (Keeps.each (hinert.standByNode _) _).bind fun _ => keeps_pure _

theorem keeps_finish_grow (flow : WorkflowInstance) : Keeps growFrame (finish flow) :=
  (keeps_updateFlow_grow _).bind fun _ => growFrame_inert.save.bind fun _ => keeps_note_grow _

theorem keeps_ready_grow (mode : ScheduleMode) : Keeps growFrame (ready mode) := by
  have hinert := growFrame_inert
  refine (keeps_select_grow mode).bind fun selected => ?_
  split
  · exact (keeps_finish_grow _).bind fun _ => keeps_pure _
  · exact (hinert.keeps (Keeps.mapEach (keeps_prepareNode _ _) _)).bind fun _ =>
      (Keeps.each (fun _ => (hinert.keeps (keeps_getNodeById _)).bind fun _ =>
        hinert.updateNode _) _).bind fun _ => hinert.save.bind fun _ => keeps_pure _

theorem keeps_store_grow (flow : WorkflowInstance) (outs : List (NodeSpec × List NodeSpec)) :
    Keeps growFrame (store flow outs) :=
  (keeps_updateFlow_grow _).bind fun _ => growFrame_inert.save.bind fun _ => keeps_pure _

end Growing

-- Where `m` returns, an event about `x` has gone out.
def Tells (x : Uuid) (m : Svc Unit) : Prop :=
  ∀ env s, wp m env (fun _ t => Notified s t x) (Grows s) s

section Telling

variable {α : Type}

theorem tells_note {e : List NodeInstance → Event} (he : ∀ nodes, (e nodes).about = some x) :
    Tells x (note e) := by
  intro env s
  exact ⟨[e s.db.nodes], rfl, e s.db.nodes, List.mem_singleton_self _, he _⟩

theorem tells_fail (message : String) : Tells x (fail message) := fun _ _ => List.prefix_rfl

theorem Tells.bind {m : Svc α} {f : α → Svc Unit} (hm : Keeps growFrame m)
    (hf : ∀ a, Tells x (f a)) : Tells x (m >>= f) := by
  intro env s
  rw [wp_bind]
  refine wp_mono (hm.wp env s) (fun a t ht => ?_) (fun _ ht => ht)
  exact wp_mono (hf a env t) (fun _ u hu => hu.after ht) (fun u hu => ht.trans hu)

theorem tells_sendTask (taskId : Uuid) (command : TaskCommand) (clusterId : Uuid) :
    Tells taskId (sendTask taskId command clusterId) :=
  Tells.bind (growFrame_inert.keeps keeps_call) fun _ => tells_note fun _ => rfl

theorem tells_sendNodeStatus (id : Uuid) (status : TaskResultStatus) :
    Tells id (sendNodeStatus id status) :=
  Tells.bind (growFrame_inert.keeps keeps_call) fun _ => tells_note fun _ => rfl

theorem tells_assignAndSend (taskId : Uuid) : Tells taskId (assignAndSend taskId) := by
  have hinert := growFrame_inert
  exact Tells.bind (hinert.keeps keeps_getRandomCluster) fun _ =>
    Tells.bind (hinert.keeps (keeps_getNodeById _)) fun _ => Tells.bind (hinert.updateNode _)
      fun _ => Tells.bind hinert.save fun _ => tells_sendTask taskId .start _

theorem tells_commandTask (taskId : Uuid) (command : TaskCommand) :
    Tells taskId (commandTask taskId command) := by
  refine Tells.bind (growFrame_inert.keeps (keeps_getNodeById taskId)) fun node => ?_
  split
  · exact tells_sendTask taskId command _
  · exact tells_fail _

theorem tells_softwareComputing (spec : NodeSpec) :
    Tells spec.id (SoftwareComputing.handleUsecase spec) :=
  Tells.bind keeps_read fun _ => Tells.bind (growFrame_inert.keeps keeps_call) fun _ =>
    Tells.bind (keeps_lift _) fun _ => tells_assignAndSend _

theorem tells_handleUsecase (spec : NodeSpec) : Tells spec.id (handleUsecase spec) := by
  unfold handleUsecase
  cases NodeInstanceKind.from spec.kind with
  | noAction => exact tells_sendNodeStatus _ _
  | softwareUsecaseComputing => exact tells_softwareComputing spec
  | script => exact tells_assignAndSend _
  | milestone => exact tells_fail _

theorem tells_sendUsecase (spec : NodeSpec) : Tells spec.id (sendUsecase spec) :=
  Tells.bind (keeps_note_grow _) fun _ => tells_handleUsecase spec

theorem tells_operateTask (task : OperateTask) : Tells task.taskId (operateTask task) := by
  refine Tells.bind (keeps_note_grow _) fun _ => ?_
  cases task.kind with
  | noAction => exact tells_sendNodeStatus _ _
  | softwareUsecaseComputing => exact tells_commandTask _ _
  | script => exact tells_commandTask _ _
  | milestone => exact tells_fail _

theorem tells_setAndOperate (status : NodeInstanceStatus) (command : TaskCommand)
    (node : NodeInstance) : Tells node.id (setAndOperate status command node) :=
  Tells.bind (growFrame_inert.updateNode _) fun _ => tells_operateTask ⟨node.id, command, node.kind⟩

theorem wp_tellEach {f : α → Svc Unit} {g : α → Uuid} (h : ∀ a, Tells (g a) (f a)) (as : List α) :
    wp (each f as) env (fun _ t => Grows s t ∧ ∀ a ∈ as, Notified s t (g a)) (Grows s) s := by
  refine wp_each (fun pre t => Grows s t ∧ ∀ a ∈ pre, Notified s t (g a)) as ?_
    ⟨List.prefix_rfl, fun _ ha => absurd ha List.not_mem_nil⟩
  rintro pre a post - t ⟨hgrows, hnotified⟩
  refine wp_mono (h a env t) (fun _ u hu => ⟨hgrows.trans hu.grows, fun b hb => ?_⟩)
    (fun u hu => hgrows.trans hu)
  rcases List.mem_append.mp hb with hb | hb
  · exact (hnotified b hb).later hu.grows
  · rw [List.mem_singleton.mp hb]
    exact hu.after hgrows

theorem wp_sends_notified (tasks : List NodeSpec) (s : World) :
    wp (each sendUsecase tasks) env (fun _ t => Grows s t ∧ ∀ task ∈ tasks, Notified s t task.id)
      (fun t => Grows s t ∧ ∀ task ∈ (sendUntil env tasks s).1, Notified s t task.id) s := by
  induction tasks generalizing s with
  | nil => exact ⟨List.prefix_rfl, fun _ htask => absurd htask List.not_mem_nil⟩
  | cons task tasks ih =>
    unfold Effect.each
    rw [wp_bind]
    refine wp_mono (wp_and (wp_result (sendUsecase task) env s) (tells_sendUsecase task env s)) ?_ ?_
    · rintro _ t ⟨hrun, hnotified⟩
      have hcut : sendUntil env (task :: tasks) s =
          (task :: (sendUntil env tasks t).1, (sendUntil env tasks t).2) := outcome_ok hrun
      rw [hcut]
      have hboth : ∀ {ts : List NodeSpec} {v : World}, Grows t v → (∀ n ∈ ts, Notified t v n.id) →
          Grows s v ∧ ∀ n ∈ task :: ts, Notified s v n.id := by
        intro ts v hgrows hall
        refine ⟨hnotified.grows.trans hgrows, fun n hn => ?_⟩
        rcases List.mem_cons.mp hn with rfl | hn
        · exact hnotified.later hgrows
        · exact (hall n hn).after hnotified.grows
      refine wp_mono (ih t) ?_ ?_
      · rintro _ v ⟨hgrows, hall⟩
        exact hboth hgrows hall
      · rintro v ⟨hgrows, hall⟩
        exact hboth hgrows hall
    · rintro t ⟨hfail, hgrows⟩
      have hcut : sendUntil env (task :: tasks) s = ([], task :: tasks) := outcome_lost hfail
      rw [hcut]
      exact ⟨hgrows, fun _ htask => absurd htask List.not_mem_nil⟩

end Telling

section Services

variable {urlParses : String → Bool} {kind : NodeInstanceKind}

-- The service never returns with a task handled or operated and nothing sent about it.
def UsecaseService.Reports (service : UsecaseService) : Prop :=
  (∀ spec, Tells spec.id (service.handleUsecase spec)) ∧
    ∀ id command, Tells id (service.operateTask id command)

theorem not_tells_pure (env : Env) (s : World) : ¬Tells x (pure ()) := by
  intro h
  have hnotified : Notified s s x := h env s
  obtain ⟨news, htrace, e, he, -⟩ := hnotified
  rw [List.self_eq_append_right.mp htrace] at he
  exact absurd he List.not_mem_nil

theorem usecaseService_reports_iff (env : Env) (s : World) :
    (usecaseService urlParses kind).Reports ↔ kind ≠ .milestone := by
  cases kind with
  | noAction =>
    exact iff_of_true ⟨fun _ => tells_sendNodeStatus _ _, fun _ _ => tells_sendNodeStatus _ _⟩ nofun
  | softwareUsecaseComputing =>
    exact iff_of_true ⟨tells_softwareComputing, fun _ _ => tells_commandTask _ _⟩ nofun
  | script => exact iff_of_true ⟨fun _ => tells_assignAndSend _, fun _ _ => tells_commandTask _ _⟩ nofun
  | milestone => exact iff_of_false (fun h => not_tells_pure env s (h.2 0 .start)) fun h => h rfl

def UsecaseService.Mute (service : UsecaseService) : Prop := ∀ env s,
  (∀ spec, (service.handleUsecase spec env s).2.trace = s.trace) ∧
    ∀ id command, (service.operateTask id command env s).2.trace = s.trace

theorem milestone_mute : (usecaseService urlParses .milestone).Mute := by
  intro env s
  refine ⟨fun spec => ?_, fun _ _ => rfl⟩
  have hkeeps : Keeps calmFrame (Milestone.handleUsecase urlParses spec) := by
    unfold Milestone.handleUsecase
    split
    · exact (keeps_lift _).bind fun _ => (keeps_getNodeById _).bind fun _ =>
        keeps_call.bind fun _ => keeps_pure _
    · exact keeps_fail _
  exact (hkeeps env s).trace

end Services

end Kuintessence

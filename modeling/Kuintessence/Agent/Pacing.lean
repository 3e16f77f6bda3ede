import Kuintessence.Agent.Counting

namespace Kuintessence.Agent

open Prog

section Services

variable {m : Nat}

theorem steady_saveChanged : Steady m (op saveChanged) := steady_call _ (by simp)

theorem steady_env {α : Type} (f : Env → α) : Steady m (op (do let env ← .read; pure (f env))) :=
  steady_read fun _ _ => rfl

theorem steady_getFile (id : Uuid) : Steady m (op (TaskFiles.getById id)) :=
  steady_read fun _ _ => rfl

theorem steady_findFiles (id : Uuid) : Steady m (op (TaskFiles.findFilesByTask id)) :=
  steady_read fun _ _ => rfl

theorem steady_updateFileStatus (id : Uuid) (status : FileStatus) :
    Steady m (updateTaskFileStatus id status) :=
  (steady_getFile id).bind fun _ => steady_updateFile _

namespace RunJob

theorem steady_failToLoad (task : SubTask) (reason : String) :
    Steady m (failToLoad task reason) :=
  (steady_updateSubTask _).bind fun _ => steady_saveChanged.bind fun _ => steady_send rfl

theorem steady_submitJob (task : SubTask) (load : String) (mpi : Bool) :
    Steady m (submitJob task load mpi) := by
  unfold submitJob
  split
  · exact (steady_call _ (by simp [Event.isAccounted])).bind fun _ => steady_updateSubTask _
  · exact steady_done _

theorem steady_loadAndSubmit (task : SubTask) (deployer : DeployerType) (mpi : Bool) :
    Steady m (loadAndSubmit task deployer mpi) := by
  refine (steady_env _).bind fun deployers => Steady.ite ?_ (steady_failToLoad _ _)
  refine (steady_call _ (by simp)).bind fun hash => ?_
  cases hash with
  | some hash =>
    exact (steady_env _).bind fun _ => (steady_submitJob _ _ _).bind fun _ => steady_saveChanged
  | none => exact steady_failToLoad _ _

theorem steady_internalRunJob (id : Uuid) : Steady m (internalRunJob id) := by
  refine (steady_findFiles id).bind fun files => Steady.ite ?_ steady_saveChanged
  refine (steady_getSubTask id).bind fun task => ?_
  cases task.facilityKind with
  | spack _ _ => exact steady_loadAndSubmit _ _ _
  | singularity _ _ => exact steady_loadAndSubmit _ _ _
  | unknown => exact (steady_submitJob _ _ _).bind fun _ => steady_saveChanged

theorem steady_internalCompleteJob (id : Uuid) : Steady m (internalCompleteJob id) :=
  (steady_findFiles id).bind fun _ => Steady.ite (steady_send rfl) (steady_pure ())

theorem steady_enqueueSubTask (id : Uuid) : Steady m (enqueueSubTask id) := by
  refine (steady_getSubTask id).bind fun task => (steady_findFiles id).bind fun files => ?_
  refine Steady.ite ?_ ?_
  · exact (steady_updateSubTask _).bind fun _ => steady_saveChanged.bind fun _ =>
      steady_internalRunJob id
  · have hfiles : Steady m (Prog.each (fun file : File => do
        updateTaskFileStatus file.id .downloading
        send (.download ⟨file.id, task.parentId, .start, some file⟩))
        (files.filter fun x => x.fileType = .IN)) :=
      Steady.each (fun _ => (steady_updateFileStatus _ _).bind fun _ => steady_send rfl) _
    exact hfiles.bind fun _ => (steady_updateSubTask _).bind fun _ => steady_saveChanged

theorem steady_job {job : String} {event : Event} (h : event.isAccounted = false) :
    Steady m (Prog.when (job ≠ "") (op (call (fun _ _ => ()) [event]))) :=
  (steady_call _ (by simpa using h)).when

theorem steady_tryUpdate (task : SubTask) : Steady m (tryUpdate task) :=
  (steady_updateSubTask task).attempt.bind fun _ => steady_pure ()

theorem steady_transfer (task : SubTask) (status : TaskStatus) (command : FileTransferStatus) :
    Steady m (transfer task status command) := by
  refine Steady.bind (Steady.when ?_) fun _ => steady_saveChanged
  exact (steady_tryUpdate _).bind fun _ => (steady_findFiles _).bind fun files =>
    Steady.each (fun _ => (steady_send rfl).when) files

theorem steady_deleteSubTask (id : Uuid) : Steady m (RunJob.deleteSubTask id) :=
  (steady_getSubTask id).bind fun _ => (steady_job rfl).bind fun _ =>
    (Agent.steady_deleteSubTask id).bind fun _ => steady_saveChanged

theorem steady_pauseSubTask (id : Uuid) : Steady m (pauseSubTask id) :=
  (steady_getSubTask id).bind fun _ => (steady_job rfl).bind fun _ => steady_transfer _ _ _

theorem steady_continueSubTask (id : Uuid) : Steady m (continueSubTask id) :=
  (steady_getSubTask id).bind fun _ => (steady_job rfl).bind fun _ => steady_transfer _ _ _

theorem steady_refreshStatus (id : Uuid) : Steady m (refreshStatus id) := by
  refine (steady_getSubTask id).bind fun task => (steady_call _ (by simp)).bind fun job => ?_
  refine Steady.ite (steady_pure ()) (Steady.ite ?_ ?_)
  · exact (steady_updateSubTask _).bind fun _ => steady_saveChanged.bind fun _ => steady_send rfl
  · refine (steady_updateSubTask _).bind fun _ => steady_saveChanged.bind fun _ => ?_
    refine (steady_findFiles id).bind fun files => ?_
    refine Steady.ite (steady_internalCompleteJob id) ?_
    have hfiles : Steady m (Prog.each (fun file : File => do
        send (.upload ⟨file.id, task.parentId, .start, some file⟩)
        op (TaskFiles.update { file with status := .uploading }))
        (files.filter fun x => x.fileType = .OUT)) :=
      Steady.each (fun _ => (steady_send rfl).bind fun _ => steady_updateFile _) _
    exact hfiles.bind fun _ => steady_saveChanged

theorem steady_refreshAllStatus : Steady m refreshAllStatus :=
  (steady_read fun _ _ => rfl).bind fun _ => Steady.each (fun _ => steady_refreshStatus _) _

theorem steady_runJob (id : Uuid) : Steady m (runJob id) :=
  (steady_getFile id).bind fun _ => (steady_updateFileStatus _ _).bind fun _ =>
    steady_saveChanged.bind fun _ => steady_internalRunJob _

theorem steady_completeJob (id : Uuid) : Steady m (completeJob id) :=
  (steady_getFile id).bind fun _ => (steady_updateFileStatus _ _).bind fun _ =>
    steady_saveChanged.bind fun _ => steady_internalCompleteJob _

theorem steady_failJob (id : Uuid) (reason : String) : Steady m (failJob id reason) :=
  (steady_getSubTask id).bind fun _ => (steady_updateSubTask _).bind fun _ =>
    steady_saveChanged.bind fun _ => steady_send rfl

end RunJob

namespace DeploySoftware

theorem steady_enqueueSubTask (id : Uuid) : Steady m (enqueueSubTask id) :=
  (steady_getSubTask id).bind fun _ => (steady_send rfl).bind fun _ =>
    (steady_updateSubTask _).bind fun _ => steady_saveChanged

theorem steady_deleteSubTask (id : Uuid) : Steady m (DeploySoftware.deleteSubTask id) :=
  (steady_getSubTask id).bind fun _ => (steady_send rfl).bind fun _ =>
    (Agent.steady_deleteSubTask id).bind fun _ => steady_saveChanged

theorem steady_pauseSubTask (id : Uuid) : Steady m (pauseSubTask id) :=
  (steady_getSubTask id).bind fun _ => (steady_send rfl).bind fun _ =>
    (steady_updateSubTask _).bind fun _ => steady_saveChanged

theorem steady_completeSubTask (id : Uuid) : Steady m (completeSubTask id) :=
  (steady_getSubTask id).bind fun _ => (steady_updateSubTask _).bind fun _ =>
    steady_saveChanged.bind fun _ => steady_send rfl

theorem steady_failSubTask (id : Uuid) : Steady m (failSubTask id) :=
  (steady_getSubTask id).bind fun _ => (steady_updateSubTask _).bind fun _ =>
    steady_saveChanged.bind fun _ => steady_send rfl

theorem steady_giveUp (subTask : SubTask) (reason : String) : Steady m (giveUp subTask reason) :=
  (steady_updateSubTask _).bind fun _ => steady_saveChanged.bind fun _ => steady_send rfl

theorem steady_installWith (deployer : DeployerType) (subTask : SubTask) (name : String)
    (parameters : List String) : Steady m (installWith deployer subTask name parameters) := by
  refine (steady_env _).bind fun deployers => Steady.ite ?_ (steady_giveUp _ _)
  refine (steady_call _ (by simp)).attempt.bind fun found => ?_
  split
  · exact steady_send rfl
  · refine (steady_call _ (by simp [Event.isAccounted])).attempt.bind fun result => ?_
    cases result with
    | ok _ => exact steady_send rfl
    | error e => exact steady_giveUp _ _

theorem steady_runSubTask (id : Uuid) : Steady m (runSubTask id) := by
  refine (steady_getSubTask id).bind fun subTask => ?_
  cases subTask.facilityKind with
  | spack name argumentList => exact steady_installWith _ _ _ _
  | singularity image tag => exact steady_installWith _ _ _ _
  | unknown => exact steady_giveUp _ _

end DeploySoftware

namespace Collection

theorem steady_innerRunSubTask (subTask : SubTask) : Steady m (innerRunSubTask subTask) := by
  unfold innerRunSubTask
  split
  · refine (steady_call _ (by simp)).attempt.bind fun input => ?_
    cases input with
    | ok input =>
      exact (steady_env _).bind fun _ => (steady_done _).bind fun _ =>
        steady_call _ (by simp [Event.isAccounted])
    | error e => exact Steady.ite (steady_pure ()) (steady_done _)
  · exact steady_done _

theorem steady_enqueueSubTask (id : Uuid) : Steady m (enqueueSubTask id) := by
  refine (steady_getSubTask id).bind fun subTask => ?_
  refine (steady_innerRunSubTask subTask).attempt.bind fun result => ?_
  cases result with
  | ok _ =>
    exact (steady_updateSubTask _).bind fun _ => steady_saveChanged.bind fun _ => steady_send rfl
  | error e =>
    exact (steady_updateSubTask _).bind fun _ => steady_saveChanged.bind fun _ =>
      (steady_send rfl).bind fun _ => steady_done _

end Collection

structure SubTaskService.Steady (m : Nat) (service : SubTaskService) : Prop where
  enqueueSubTask : ∀ id, Agent.Steady m (service.enqueueSubTask id)
  deleteSubTask : ∀ id, Agent.Steady m (service.deleteSubTask id)
  pauseSubTask : ∀ id, Agent.Steady m (service.pauseSubTask id)
  continueSubTask : ∀ id, Agent.Steady m (service.continueSubTask id)

theorem steady_service {type : TaskDisplayType} {service : SubTaskService}
    (h : subTaskServices type = some service) : service.Steady m := by
  cases type with
  | softwareDeployment =>
    cases h
    exact ⟨DeploySoftware.steady_enqueueSubTask, DeploySoftware.steady_deleteSubTask,
      DeploySoftware.steady_pauseSubTask, DeploySoftware.steady_enqueueSubTask⟩
  | usecaseExecution =>
    cases h
    exact ⟨RunJob.steady_enqueueSubTask, RunJob.steady_deleteSubTask, RunJob.steady_pauseSubTask,
      RunJob.steady_continueSubTask⟩
  | collectedOut =>
    cases h
    exact ⟨Collection.steady_enqueueSubTask, fun _ => steady_pure (), fun _ => steady_pure (),
      fun _ => steady_pure ()⟩
  | unknown => cases h

end Services

section Scheduler

variable {m : Nat}

namespace TaskScheduler

theorem steady_releaseTasksCount {event : Event}
    (h : ∀ count, 0 < count → event.Counts m count (count - 1)) :
    Steady m (releaseTasksCount event) := by
  intro l
  refine Paced.bind (Q := fun c l => l = some c) ?_ fun count l hl => ?_
  · exact ⟨fun _ _ => rfl, fun env s _ a ha => by cases ha; rfl⟩
  · subst hl
    refine Paced.bind (Q := fun next l => l = some count ∧ event.Counts m count next) ?_ ?_
    · intro next hnext
      rw [checkedSub] at hnext
      split at hnext
      · next hpos =>
        cases hnext
        exact ⟨rfl, h count hpos⟩
      · cases hnext
    · rintro next l ⟨rfl, hcounts⟩
      exact ⟨⟨count, rfl, hcounts⟩, fun _ _ => rfl, fun _ _ _ _ _ => trivial⟩

theorem steady_noteLeft (event : Event) : Steady m (noteLeft event) :=
  fun _ => ⟨fun _ _ => rfl, fun _ _ _ _ _ => trivial⟩

theorem steady_startSubTask (subTask : SubTask) {service : SubTaskService}
    (h : service.Steady m) : Steady m (startSubTask subTask service) := by
  have hnote : Steady m (op (.modify fun s =>
      { s with trace := s.trace ++ [.started subTask.id s.subTasks] })) :=
    steady_op fun _ s => ⟨rfl, rfl, outstanding_append_plain s.trace (by simp [Event.isAccounted])⟩
  refine hnote.bind fun _ => ?_
  split
  · exact h.enqueueSubTask _
  · exact h.continueSubTask _
  · exact steady_done _

theorem steady_dispatch (subTask : SubTask) : Steady m (dispatch subTask) := by
  intro l
  refine Paced.bind (Q := fun limit _ => limit = m) ?_ fun limit _ hlimit => ?_
  · exact ⟨fun _ s => .refl s, fun env s hs a ha => by cases ha; exact hs⟩
  subst hlimit
  refine Paced.bind (Q := fun c l => l = some c) ?_ fun count l hl => ?_
  · exact ⟨fun _ _ => rfl, fun env s _ a ha => by cases ha; rfl⟩
  subst hl
  split
  · exact steady_pure () _
  · next hfull =>
    refine Paced.bind (Q := fun next l => l = some count ∧ next = count + 1) ?_ ?_
    · intro next hnext
      rw [checkedAdd] at hnext
      split at hnext
      · cases hnext
        exact ⟨rfl, rfl⟩
      · cases hnext
    rintro next l ⟨rfl, rfl⟩
    have hcounts : (Event.dispatched subTask.id).Counts limit count (count + 1) :=
      ⟨rfl, by
        obtain hzero | hne := Classical.or_iff_not_imp_left.mpr fun h0 hc => hfull ⟨h0, hc⟩
        · exact .inl hzero
        · exact .inr hne⟩
    let e := "No such sub task service called " ++ (TaskDisplayType.from subTask.taskType).text
    have hstart : Paced limit Anyhow none (do
        let service ← Prog.done (.okOr e (subTaskServices (.from subTask.taskType)))
        startSubTask subTask service : Op Unit) := by
      refine Paced.bind (Q := fun service _ => service.Steady limit) ?_ fun service l h =>
        steady_startSubTask subTask h l
      exact fun service hservice => steady_service (Outcome.okOr_ok_iff.mp hservice)
    exact ⟨⟨count, rfl, hcounts⟩, fun _ _ => rfl, fun _ _ _ => hstart⟩

theorem steady_makeRunning (task : Task) : Steady m (makeRunning task) :=
  Steady.ite ((steady_updateTask _).bind fun _ => steady_saveChanged)
    (Steady.ite (steady_pure ()) (steady_done _))

theorem steady_report (status : Dto.TaskResultStatus) (id : Uuid) (message : String)
    (usedResources : Option Dto.TaskUsedResource) :
    Steady m (op (call (fun _ _ => ()) [.reported status id message usedResources])) :=
  steady_call _ (by simp [Event.isAccounted])

theorem steady_scheduleNextTaskById (id : Uuid) : Steady m (scheduleNextTaskById id) :=
  (steady_getTask id).bind fun _ => (steady_makeRunning _).bind fun _ =>
    (steady_report _ _ _ _).bind fun _ => Steady.ite (steady_pure ())
      ((steady_done _).bind fun _ => steady_dispatch _)

theorem steady_scheduleNextTask : Steady m scheduleNextTask := by
  refine (steady_read fun _ _ => rfl).bind fun id => ?_
  cases id with
  | some id => exact steady_scheduleNextTaskById id
  | none => exact steady_pure ()

theorem foldl_insert_uncounted (body : List SubTask) (s : State) :
    Uncounted s (body.foldl SubTasks.insert s) := by
  induction body generalizing s with
  | nil => exact .refl s
  | cons row body ih =>
    obtain ⟨hcount, hmax, hout⟩ := ih (SubTasks.insert s row)
    exact ⟨hcount, hmax, hout⟩

theorem steady_enqueueTask (task : Task) : Steady m (enqueueTask task) := by
  have hinsert (row : Task) : Steady m (op (do
      Tasks.insert row
      Agent.note (.submitted row.id (row.body.map SubTask.id)))) := by
    refine steady_op fun env s => ?_
    obtain ⟨hcount, hmax, hout⟩ := foldl_insert_uncounted row.body s
    exact ⟨hcount, hmax,
      (outstanding_append_plain _ (by simp [Event.isAccounted])).trans hout⟩
  exact (hinsert _).bind fun _ => steady_saveChanged.bind fun _ => steady_scheduleNextTaskById _

theorem steady_pauseSubTasks (body : List SubTask) : Steady m (pauseSubTasks body) := by
  refine Steady.each (fun row => ?_) body
  split
  · next hservice => exact (steady_noteLeft _).bind fun _ => (steady_service hservice).pauseSubTask _
  · exact steady_pure ()

theorem steady_deleteSubTasks (body : List SubTask) : Steady m (deleteSubTasks body) := by
  refine Steady.each (fun row => ?_) body
  split
  · next hservice =>
    exact (steady_noteLeft _).bind fun _ => (steady_service hservice).deleteSubTask _
  · exact steady_pure ()

theorem counts_sub_one {event : Event} (h : ∀ c n, event.Counts m c n = (n + 1 = c)) :
    ∀ count, 0 < count → event.Counts m count (count - 1) := by
  intro count hpos
  rw [h]
  omega

theorem steady_release {event : Event} (h : ∀ c n, event.Counts m c n = (n + 1 = c)) :
    Steady m (releaseTasksCount event) := steady_releaseTasksCount (counts_sub_one h)

theorem steady_pauseTask (id : Uuid) : Steady m (pauseTask id) := by
  refine (steady_getTask id).bind fun task => ?_
  split
  · exact (steady_pauseSubTasks _).bind fun _ => (steady_updateTask _).bind fun _ =>
      (steady_report _ _ _ _).bind fun _ => steady_saveChanged
  · exact (steady_release fun _ _ => rfl).bind fun _ => (steady_pauseSubTasks _).bind fun _ =>
      (steady_updateTask _).bind fun _ => steady_saveChanged.bind fun _ =>
        (steady_report _ _ _ _).bind fun _ => steady_scheduleNextTask
  · exact steady_done _

theorem steady_suspendRunning (task : Task) : Steady m (suspendRunning task) :=
  Steady.when ((steady_release fun _ _ => rfl).bind fun _ => (steady_pauseSubTasks _).bind fun _ =>
    (steady_updateTask _).bind fun _ => steady_saveChanged.bind fun _ => steady_scheduleNextTask)

theorem steady_deleteTask (id : Uuid) (isInternal : Bool) :
    Steady m (TaskScheduler.deleteTask id isInternal) :=
  (steady_getTask id).bind fun task => (steady_suspendRunning task).bind fun _ =>
    (steady_deleteSubTasks _).bind fun _ => (Agent.steady_deleteTask id).bind fun _ =>
      (Steady.when (steady_report _ _ _ _)).bind fun _ => steady_saveChanged

theorem steady_continueTask (id : Uuid) : Steady m (continueTask id) :=
  (steady_getTask id).bind fun _ => (steady_updateTask _).bind fun _ =>
    steady_saveChanged.bind fun _ => (steady_report _ _ _ _).bind fun _ =>
      steady_scheduleNextTaskById _

theorem steady_completeSubTask (id : Uuid) : Steady m (completeSubTask id) := by
  refine (steady_getSubTask id).bind fun subTask => (steady_updateSubTask _).bind fun _ => ?_
  refine steady_saveChanged.bind fun _ => (steady_release fun _ _ => rfl).bind fun _ => ?_
  refine (steady_getTask _).bind fun task => Steady.ite ?_ (steady_scheduleNextTaskById _)
  exact (steady_updateTask _).bind fun _ => steady_saveChanged.bind fun _ =>
    ((steady_getTask _).bind fun _ => steady_report _ _ _ _).bind fun _ => steady_scheduleNextTask

theorem steady_failSubTask (id : Uuid) : Steady m (failSubTask id) :=
  (steady_release fun _ _ => rfl).bind fun _ => (steady_getSubTask id).bind fun _ =>
    (steady_getTask _).bind fun _ => (steady_updateTask _).bind fun _ =>
      steady_saveChanged.bind fun _ => (steady_report _ _ _ _).bind fun _ =>
        steady_scheduleNextTask

theorem steady_deleteAllCompletedTasks : Steady m deleteAllCompletedTasks :=
  (steady_read fun _ _ => rfl).bind fun tasks => (steady_env _).bind fun _ =>
    Steady.each (fun _ => (steady_deleteTask _ _).when) tasks

end TaskScheduler

theorem steady_receive (message : Dto.Task) : Steady m (KafkaMessageQueue.receive message) := by
  unfold KafkaMessageQueue.receive
  split
  · exact (steady_op fun _ _ => ⟨rfl, rfl, rfl⟩).bind fun _ => (steady_env _).bind fun _ =>
      TaskScheduler.steady_enqueueTask _
  · exact TaskScheduler.steady_pauseTask _
  · exact TaskScheduler.steady_continueTask _
  · exact TaskScheduler.steady_deleteTask _ _

theorem steady_serve (operation : Operation) : Steady m operation.serve := by
  cases operation with
  | message message => exact steady_receive message
  | report id status =>
    cases status with
    | completed => exact TaskScheduler.steady_completeSubTask id
    | failed => exact TaskScheduler.steady_failSubTask id
  | scheduleNextTask => exact TaskScheduler.steady_scheduleNextTask
  | scheduleNextTaskById id => exact TaskScheduler.steady_scheduleNextTaskById id
  | deleteAllCompletedTasks => exact TaskScheduler.steady_deleteAllCompletedTasks
  | refreshAllStatus => exact RunJob.steady_refreshAllStatus
  | runJob id => exact RunJob.steady_runJob id
  | completeJob id => exact RunJob.steady_completeJob id
  | failJob id reason => exact RunJob.steady_failJob id reason
  | runSubTask id => exact DeploySoftware.steady_runSubTask id
  | completeDeployment id => exact DeploySoftware.steady_completeSubTask id
  | failDeployment id => exact DeploySoftware.steady_failSubTask id

end Scheduler

end Kuintessence.Agent

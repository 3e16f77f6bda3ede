import Kuintessence.Agent.Scheduler

namespace Kuintessence.Agent

open Prog

def Event.isMark : Event → Bool
  | .submitted _ _ => true
  | .started _ _ => true
  | .reported .start _ _ _ => true
  | _ => false

structure Quiet (I : State → Prop) : Prop where
  files : ∀ s files, I s → I { s with taskFiles := files }
  calls : ∀ s n es, I s → (∀ e ∈ es, e.isMark = false) →
    I { s with calls := n, trace := s.trace ++ es }

def State.putSubTask (s : State) (row : SubTask) : State :=
  { s with subTasks := Rows.put SubTask.id row s.subTasks }

def State.dropSubTask (s : State) (id : Uuid) : State :=
  { s with subTasks := s.subTasks.eraseP fun x => x.id = id }

def Writable (I : State → Prop) (row : SubTask) : Prop :=
  ∀ s, I s → (∃ x ∈ s.subTasks, x.id = row.id) → I (s.putSubTask row)

def Erasable (I : State → Prop) (id : Uuid) : Prop := ∀ s, I s → I (s.dropSubTask id)

def Reads (I : State → Prop) (id : Uuid) (row : SubTask) : Prop :=
  ∃ s, I s ∧ row ∈ s.subTasks ∧ row.id = id

section Primitives

variable {I : State → Prop} {id : Uuid}

theorem preserves_env {α : Type} (f : Env → α) :
    Preserves I (op (do let env ← .read; pure (f env))) fun _ => True :=
  preserves_atom fun _ _ hs => ⟨hs, trivial⟩

theorem preserves_call (hI : Quiet I) {α : Type} (answer : Env → Nat → α) {events : List Event}
    (h : ∀ e ∈ events, e.isMark = false) :
    Preserves I (op (call answer events)) fun _ => True := by
  refine preserves_atom fun env s hs => ?_
  unfold Effect.wp call
  cases env.fails s.calls with
  | some e => simpa using hI.calls s (s.calls + 1) [] hs (by simp)
  | none => exact ⟨hI.calls s (s.calls + 1) events hs h, trivial⟩

theorem preserves_saveChanged (hI : Quiet I) : Preserves I (op saveChanged) fun _ => True :=
  preserves_call hI _ (by simp)

theorem preserves_send (hI : Quiet I) {event : Event} (h : event.isMark = false) :
    Preserves I (send event) fun _ => True :=
  preserves_atom fun _ s hs => ⟨hI.calls s s.calls [event] hs (by simpa using h), trivial⟩

theorem preserves_fail {α : Type} (e : String) : Preserves I (fail e : Op α) fun _ => True :=
  preserves_done fun _ h => nomatch h

theorem preserves_findFilesByTask :
    Preserves I (op (TaskFiles.findFilesByTask id)) fun _ => True :=
  preserves_atom fun _ _ hs => ⟨hs, trivial⟩

theorem preserves_getFile : Preserves I (op (TaskFiles.getById id)) fun file =>
    ∃ s, I s ∧ file ∈ s.taskFiles ∧ file.id = id := by
  refine preserves_atom fun env s hs => ?_
  simp only [TaskFiles.getById, Effect.wp_bind, Effect.wp_get, Effect.wp_lift]
  refine ⟨fun file hfile => ⟨hs, s, hs, ?_⟩, fun _ => hs⟩
  rw [Outcome.okOr_ok_iff, Rows.find] at hfile
  exact ⟨List.mem_of_find?_eq_some hfile, by simpa using List.find?_some hfile⟩

theorem preserves_updateFile (hI : Quiet I) (file : File) :
    Preserves I (op (TaskFiles.update file)) fun _ => True := by
  refine preserves_atom fun env s hs => ?_
  simp only [TaskFiles.update, Effect.wp_bind, Effect.wp_get, Effect.wp_lift, Effect.wp_modify]
  exact ⟨fun files _ => ⟨hI.files s files hs, trivial⟩, fun _ => hs⟩

theorem preserves_updateTaskFileStatus (hI : Quiet I) (status : FileStatus) :
    Preserves I (updateTaskFileStatus id status) fun _ => True :=
  preserves_getFile.bind fun _ _ => preserves_updateFile hI _

theorem preserves_getSubTask : Preserves I (op (SubTasks.getById id)) (Reads I id) := by
  refine preserves_atom fun env s hs => ?_
  simp only [SubTasks.getById, Effect.wp_bind, Effect.wp_get, Effect.wp_lift]
  refine ⟨fun row hrow => ⟨hs, s, hs, ?_⟩, fun _ => hs⟩
  rw [Outcome.okOr_ok_iff, Rows.find] at hrow
  exact ⟨List.mem_of_find?_eq_some hrow, by simpa using List.find?_some hrow⟩

theorem preserves_updateSubTask {row : SubTask} (h : Writable I row) :
    Preserves I (op (SubTasks.update row)) fun _ => True := by
  refine preserves_atom fun env s hs => ?_
  simp only [SubTasks.update, Effect.wp_bind, Effect.wp_get, Effect.wp_lift, Effect.wp_modify]
  refine ⟨fun rows hrows => ⟨?_, trivial⟩, fun _ => hs⟩
  rw [Outcome.okOr_ok_iff, Rows.replace, Option.ite_none_right_eq_some] at hrows
  obtain ⟨hany, heq⟩ := hrows
  cases heq
  exact h s hs (by simpa using hany)

theorem preserves_tryUpdate {row : SubTask} (h : Writable I row) :
    Preserves I (tryUpdate row) fun _ => True :=
  (preserves_updateSubTask h).attempt.bind fun _ _ => preserves_pure trivial

theorem preserves_deleteById (h : Erasable I id) :
    Preserves I (op (SubTasks.deleteById id)) fun _ => True := by
  refine preserves_atom fun env s hs => ?_
  simp only [SubTasks.deleteById, Effect.wp_bind, Effect.wp_get, Effect.wp_lift, Effect.wp_modify]
  refine ⟨fun rows hrows => ⟨?_, trivial⟩, fun _ => hs⟩
  rw [Outcome.okOr_ok_iff, Rows.remove, Option.ite_none_right_eq_some] at hrows
  obtain ⟨-, heq⟩ := hrows
  cases heq
  exact h s hs

end Primitives

def SubTask.isPausable (row : SubTask) : Bool :=
  TaskDisplayType.from row.taskType = .softwareDeployment ∨
    TaskDisplayType.from row.taskType = .usecaseExecution

def Rewrites (I : State → Prop) (id : Uuid) (f : SubTask → SubTask) : Prop :=
  ∀ row, Reads I id row → Writable I (f row)

section Services

variable {I : State → Prop} {id : Uuid}

namespace RunJob

theorem preserves_failToLoad (hI : Quiet I) {task : SubTask} {reason : String}
    (h : Writable I { task with status := .failed, failedReason := reason }) :
    Preserves I (failToLoad task reason) fun _ => True :=
  (preserves_updateSubTask h).bind fun _ _ =>
    (preserves_saveChanged hI).bind fun _ _ => preserves_send hI rfl

theorem preserves_submitJob (hI : Quiet I) {task : SubTask} (load : String) (mpi : Bool)
    (h : ∀ jobId, Writable I { task with jobId := jobId }) :
    Preserves I (submitJob task load mpi) fun _ => True := by
  unfold submitJob
  split
  · exact (preserves_call hI _ (by simp [Event.isMark])).bind fun jobId _ =>
      preserves_updateSubTask (h jobId)
  · exact preserves_fail _

theorem preserves_loadAndSubmit (hI : Quiet I) {task : SubTask} (deployer : DeployerType)
    (mpi : Bool) (hjob : ∀ jobId, Writable I { task with jobId := jobId })
    (hfail : ∀ reason, Writable I { task with status := .failed, failedReason := reason }) :
    Preserves I (loadAndSubmit task deployer mpi) fun _ => True := by
  unfold loadAndSubmit
  refine (preserves_env _).bind fun deployers _ => ?_
  split
  · refine (preserves_call hI _ (by simp)).bind fun hash _ => ?_
    cases hash with
    | some hash =>
      exact (preserves_env _).bind fun load _ =>
        (preserves_submitJob hI load mpi hjob).bind fun _ _ => preserves_saveChanged hI
    | none => exact preserves_failToLoad hI (hfail _)
  · exact preserves_failToLoad hI (hfail _)

theorem preserves_internalRunJob (hI : Quiet I)
    (hjob : ∀ jobId, Rewrites I id fun row => { row with jobId := jobId })
    (hfail : ∀ reason,
      Rewrites I id fun row => { row with status := .failed, failedReason := reason }) :
    Preserves I (internalRunJob id) fun _ => True := by
  unfold internalRunJob
  refine preserves_findFilesByTask.bind fun files _ => ?_
  split
  · refine preserves_getSubTask.bind fun task htask => ?_
    have hjob' (jobId : String) := hjob jobId task htask
    have hfail' (reason : String) := hfail reason task htask
    cases task.facilityKind with
    | spack _ _ => exact preserves_loadAndSubmit hI .spack false hjob' hfail'
    | singularity _ _ => exact preserves_loadAndSubmit hI .apptainer true hjob' hfail'
    | unknown =>
      exact (preserves_submitJob hI "" false hjob').bind fun _ _ => preserves_saveChanged hI
  · exact preserves_saveChanged hI

theorem preserves_internalCompleteJob (hI : Quiet I) :
    Preserves I (internalCompleteJob id) fun _ => True := by
  unfold internalCompleteJob
  refine preserves_findFilesByTask.bind fun files _ => ?_
  split
  · exact preserves_send hI rfl
  · exact preserves_pure trivial

theorem preserves_downloads (hI : Quiet I) (parentId : Uuid) (files : List File) :
    Preserves I (Prog.each (fun file : File => do
      updateTaskFileStatus file.id .downloading
      send (.download ⟨file.id, parentId, .start, some file⟩)) files) fun _ => True :=
  Preserves.each fun _ _ => (preserves_updateTaskFileStatus hI _).bind fun _ _ =>
    preserves_send hI rfl

theorem preserves_deleteSubTask (hI : Quiet I) (h : Erasable I id) :
    Preserves I (deleteSubTask id) fun _ => True := by
  refine preserves_getSubTask.bind fun task _ => ?_
  have hjob : Preserves I (Prog.when (task.jobId ≠ "")
      (op (call (fun _ _ => ()) [.deleteJob task.jobId]))) fun _ => True :=
    Preserves.when fun _ => preserves_call hI _ (by simp [Event.isMark])
  exact hjob.bind fun _ _ => (preserves_deleteById h).bind fun _ _ => preserves_saveChanged hI

theorem preserves_transfer (hI : Quiet I) {task : SubTask} {status : TaskStatus}
    (command : FileTransferStatus) (h : Writable I { task with status := status }) :
    Preserves I (transfer task status command) fun _ => True := by
  have hsends (files : List File) : Preserves I (Prog.each (fun file : File =>
      Prog.when (file.fileType = .IN ∧ file.status ≠ .both)
        (send (.download ⟨file.id, 0, command, none⟩))) files) fun _ => True :=
    Preserves.each fun file _ => Preserves.when fun _ => preserves_send hI rfl
  refine Preserves.bind (Preserves.when fun _ => ?_) fun _ _ => preserves_saveChanged hI
  exact (preserves_tryUpdate h).bind fun _ _ =>
    preserves_findFilesByTask.bind fun files _ => hsends files

theorem preserves_pauseSubTask (hI : Quiet I)
    (h : Rewrites I id fun row => { row with status := .suspended }) :
    Preserves I (pauseSubTask id) fun _ => True := by
  refine preserves_getSubTask.bind fun task htask => ?_
  have hjob : Preserves I (Prog.when (task.jobId ≠ "")
      (op (call (fun _ _ => ()) [.pauseJob task.jobId]))) fun _ => True :=
    Preserves.when fun _ => preserves_call hI _ (by simp [Event.isMark])
  exact hjob.bind fun _ _ => preserves_transfer hI .pause (h task htask)

theorem preserves_continueSubTask (hI : Quiet I)
    (h : Rewrites I id fun row => { row with status := .queuing }) :
    Preserves I (continueSubTask id) fun _ => True := by
  refine preserves_getSubTask.bind fun task htask => ?_
  have hjob : Preserves I (Prog.when (task.jobId ≠ "")
      (op (call (fun _ _ => ()) [.continueJob task.jobId]))) fun _ => True :=
    Preserves.when fun _ => preserves_call hI _ (by simp [Event.isMark])
  exact hjob.bind fun _ _ => preserves_transfer hI .continue (h task htask)

theorem preserves_enqueueSubTask (hI : Quiet I)
    (hrun : Rewrites I id fun row => { row with status := .running })
    (hjob : ∀ jobId, Rewrites I id fun row => { row with jobId := jobId })
    (hfail : ∀ reason,
      Rewrites I id fun row => { row with status := .failed, failedReason := reason }) :
    Preserves I (enqueueSubTask id) fun _ => True := by
  refine preserves_getSubTask.bind fun task htask => preserves_findFilesByTask.bind fun files _ => ?_
  have hrow := preserves_updateSubTask (hrun task htask)
  refine Preserves.ite (fun _ => ?_) fun _ => ?_
  · exact hrow.bind fun _ _ => (preserves_saveChanged hI).bind fun _ _ =>
      preserves_internalRunJob hI hjob hfail
  · exact (preserves_downloads hI _ _).bind fun _ _ => hrow.bind fun _ _ =>
      preserves_saveChanged hI

theorem preserves_refreshStatus (hI : Quiet I)
    (hdone : ∀ used, Rewrites I id fun row =>
      { row with resourceUsed := some used, status := .completing })
    (hfail : ∀ used reason, Rewrites I id fun row =>
      { row with resourceUsed := some used, status := .failed, failedReason := reason }) :
    Preserves I (refreshStatus id) fun _ => True := by
  refine preserves_getSubTask.bind fun task htask => ?_
  refine (preserves_call hI _ (by simp)).bind fun job _ => ?_
  have huploads (parentId : Uuid) (files : List File) : Preserves I (Prog.each (fun file : File => do
      send (.upload ⟨file.id, parentId, .start, some file⟩)
      op (TaskFiles.update { file with status := .uploading })) files) fun _ => True :=
    Preserves.each fun _ _ => (preserves_send hI rfl).bind fun _ _ => preserves_updateFile hI _
  cases hstate : statusOf job.state with
  | running => exact preserves_pure trivial
  | failed =>
    exact (preserves_updateSubTask (hfail job.resourceUsed (exitReason job) task htask)).bind
      fun _ _ => (preserves_saveChanged hI).bind fun _ _ => preserves_send hI rfl
  | completing =>
    refine (preserves_updateSubTask (hdone job.resourceUsed task htask)).bind fun _ _ => ?_
    refine (preserves_saveChanged hI).bind fun _ _ => preserves_findFilesByTask.bind fun files _ => ?_
    exact Preserves.ite (fun _ => preserves_internalCompleteJob hI) fun _ =>
      (huploads task.parentId _).bind fun _ _ => preserves_saveChanged hI
  | _ => cases hjob : job.state <;> simp [statusOf, hjob] at hstate

theorem preserves_runJob (hI : Quiet I)
    (hjob : ∀ file : File, (∃ s, I s ∧ file ∈ s.taskFiles ∧ file.id = id) → ∀ jobId,
      Rewrites I file.relatedTaskBody fun row => { row with jobId := jobId })
    (hfail : ∀ file : File, (∃ s, I s ∧ file ∈ s.taskFiles ∧ file.id = id) → ∀ reason,
      Rewrites I file.relatedTaskBody fun row =>
        { row with status := .failed, failedReason := reason }) :
    Preserves I (runJob id) fun _ => True := by
  refine (preserves_getFile (I := I)).bind fun file hfile => ?_
  exact (preserves_updateTaskFileStatus hI _).bind fun _ _ => (preserves_saveChanged hI).bind
    fun _ _ => preserves_internalRunJob hI (hjob file hfile) (hfail file hfile)

theorem preserves_completeJob (hI : Quiet I) : Preserves I (completeJob id) fun _ => True :=
  preserves_getFile.bind fun _ _ => (preserves_updateTaskFileStatus hI _).bind fun _ _ =>
    (preserves_saveChanged hI).bind fun _ _ => preserves_internalCompleteJob hI

theorem preserves_failJob (hI : Quiet I) {reason : String}
    (hfail : Rewrites I id fun row => { row with status := .failed, failedReason := reason }) :
    Preserves I (failJob id reason) fun _ => True :=
  preserves_getSubTask.bind fun task htask =>
    (preserves_updateSubTask (hfail task htask)).bind fun _ _ =>
      (preserves_saveChanged hI).bind fun _ _ => preserves_send hI rfl

end RunJob

namespace DeploySoftware

theorem preserves_deploy (hI : Quiet I) (subTask : SubTask) (status : TaskStatus) :
    Preserves I (deploy subTask status) fun _ => True := preserves_send hI rfl

theorem preserves_enqueueSubTask (hI : Quiet I)
    (h : Rewrites I id fun row => { row with status := .running }) :
    Preserves I (enqueueSubTask id) fun _ => True :=
  preserves_getSubTask.bind fun row hrow => (preserves_deploy hI _ _).bind fun _ _ =>
    (preserves_updateSubTask (h row hrow)).bind fun _ _ => preserves_saveChanged hI

theorem preserves_deleteSubTask (hI : Quiet I) (h : Erasable I id) :
    Preserves I (deleteSubTask id) fun _ => True :=
  preserves_getSubTask.bind fun _ _ => (preserves_deploy hI _ _).bind fun _ _ =>
    (preserves_deleteById h).bind fun _ _ => preserves_saveChanged hI

theorem preserves_pauseSubTask (hI : Quiet I)
    (h : Rewrites I id fun row => { row with status := .suspended }) :
    Preserves I (pauseSubTask id) fun _ => True :=
  preserves_getSubTask.bind fun row hrow => (preserves_deploy hI _ _).bind fun _ _ =>
    (preserves_updateSubTask (h row hrow)).bind fun _ _ => preserves_saveChanged hI

theorem preserves_completeSubTask (hI : Quiet I)
    (h : Rewrites I id fun row => { row with status := .completed }) :
    Preserves I (completeSubTask id) fun _ => True :=
  preserves_getSubTask.bind fun row hrow => (preserves_updateSubTask (h row hrow)).bind
    fun _ _ => (preserves_saveChanged hI).bind fun _ _ => preserves_send hI rfl

theorem preserves_failSubTask (hI : Quiet I)
    (h : Rewrites I id fun row => { row with status := .failed }) :
    Preserves I (failSubTask id) fun _ => True :=
  preserves_getSubTask.bind fun row hrow => (preserves_updateSubTask (h row hrow)).bind
    fun _ _ => (preserves_saveChanged hI).bind fun _ _ => preserves_send hI rfl

theorem preserves_giveUp (hI : Quiet I) {subTask : SubTask} {reason : String}
    (h : Writable I { subTask with failedReason := reason }) :
    Preserves I (giveUp subTask reason) fun _ => True :=
  (preserves_updateSubTask h).bind fun _ _ => (preserves_saveChanged hI).bind fun _ _ =>
    preserves_deploy hI _ _

theorem preserves_installWith (hI : Quiet I) (deployer : DeployerType) {subTask : SubTask}
    (name : String) (parameters : List String)
    (h : ∀ reason, Writable I { subTask with failedReason := reason }) :
    Preserves I (installWith deployer subTask name parameters) fun _ => True := by
  refine (preserves_env _).bind fun deployers _ => Preserves.ite (fun _ => ?_) fun _ =>
    preserves_giveUp hI (h _)
  refine (preserves_call hI _ (by simp)).attempt.bind fun found _ => ?_
  split
  · exact preserves_deploy hI _ _
  · refine (preserves_call hI _ (by simp [Event.isMark])).attempt.bind fun result _ => ?_
    cases result with
    | ok _ => exact preserves_deploy hI _ _
    | error e => exact preserves_giveUp hI (h e)

theorem preserves_runSubTask (hI : Quiet I)
    (h : ∀ reason, Rewrites I id fun row => { row with failedReason := reason }) :
    Preserves I (runSubTask id) fun _ => True := by
  refine preserves_getSubTask.bind fun row hrow => ?_
  have hwrite (reason : String) := h reason row hrow
  cases row.facilityKind with
  | spack name argumentList => exact preserves_installWith hI .spack name argumentList hwrite
  | singularity image tag => exact preserves_installWith hI .apptainer image [tag] hwrite
  | unknown => exact preserves_giveUp hI (hwrite _)

end DeploySoftware

namespace Collection

theorem preserves_innerRunSubTask (hI : Quiet I) (subTask : SubTask) :
    Preserves I (innerRunSubTask subTask) fun _ => True := by
  unfold innerRunSubTask
  split
  · refine (preserves_call hI _ (by simp)).attempt.bind fun input _ => ?_
    cases input with
    | ok input =>
      exact (preserves_env _).bind fun regex _ => (preserves_done fun _ _ => trivial).bind
        fun output _ => preserves_call hI _ (by simp [Event.isMark])
    | error e =>
      exact Preserves.ite (fun _ => preserves_pure trivial) fun _ => preserves_fail _
  · exact preserves_fail _

theorem preserves_enqueueSubTask (hI : Quiet I)
    (hdone : Rewrites I id fun row => { row with status := .completed })
    (hfail : ∀ reason,
      Rewrites I id fun row => { row with status := .failed, failedReason := reason }) :
    Preserves I (enqueueSubTask id) fun _ => True := by
  refine preserves_getSubTask.bind fun row hrow => ?_
  refine (preserves_innerRunSubTask hI row).attempt.bind fun result _ => ?_
  cases result with
  | ok _ =>
    exact (preserves_updateSubTask (hdone row hrow)).bind fun _ _ =>
      (preserves_saveChanged hI).bind fun _ _ => preserves_send hI rfl
  | error e =>
    exact (preserves_updateSubTask (hfail _ row hrow)).bind fun _ _ =>
      (preserves_saveChanged hI).bind fun _ _ => (preserves_send hI rfl).bind fun _ _ =>
        preserves_fail e

end Collection

variable {type : TaskDisplayType} {service : SubTaskService}

theorem preserves_enqueue (hI : Quiet I) (h : subTaskServices type = some service)
    (hrun : Rewrites I id fun row => { row with status := .running })
    (hjob : ∀ jobId, Rewrites I id fun row => { row with jobId := jobId })
    (hdone : Rewrites I id fun row => { row with status := .completed })
    (hfail : ∀ reason,
      Rewrites I id fun row => { row with status := .failed, failedReason := reason }) :
    Preserves I (service.enqueueSubTask id) fun _ => True := by
  cases type with
  | softwareDeployment => cases h; exact DeploySoftware.preserves_enqueueSubTask hI hrun
  | usecaseExecution => cases h; exact RunJob.preserves_enqueueSubTask hI hrun hjob hfail
  | collectedOut => cases h; exact Collection.preserves_enqueueSubTask hI hdone hfail
  | unknown => cases h

theorem preserves_continue (hI : Quiet I) (h : subTaskServices type = some service)
    (hrun : Rewrites I id fun row => { row with status := .running })
    (hqueue : Rewrites I id fun row => { row with status := .queuing }) :
    Preserves I (service.continueSubTask id) fun _ => True := by
  cases type with
  | softwareDeployment => cases h; exact DeploySoftware.preserves_enqueueSubTask hI hrun
  | usecaseExecution => cases h; exact RunJob.preserves_continueSubTask hI hqueue
  | collectedOut => cases h; exact preserves_pure trivial
  | unknown => cases h

theorem preserves_pause (hI : Quiet I) (h : subTaskServices type = some service)
    (hpause : type = .softwareDeployment ∨ type = .usecaseExecution →
      Rewrites I id fun row => { row with status := .suspended }) :
    Preserves I (service.pauseSubTask id) fun _ => True := by
  cases type with
  | softwareDeployment =>
    cases h
    exact DeploySoftware.preserves_pauseSubTask hI (hpause (.inl rfl))
  | usecaseExecution => cases h; exact RunJob.preserves_pauseSubTask hI (hpause (.inr rfl))
  | collectedOut => cases h; exact preserves_pure trivial
  | unknown => cases h

theorem preserves_delete (hI : Quiet I) (h : subTaskServices type = some service)
    (herase : Erasable I id) : Preserves I (service.deleteSubTask id) fun _ => True := by
  cases type with
  | softwareDeployment => cases h; exact DeploySoftware.preserves_deleteSubTask hI herase
  | usecaseExecution => cases h; exact RunJob.preserves_deleteSubTask hI herase
  | collectedOut => cases h; exact preserves_pure trivial
  | unknown => cases h

theorem preserves_noteLeft (hI : Quiet I) {event : Event} (h : event.isMark = false) :
    Preserves I (TaskScheduler.noteLeft event) fun _ => True :=
  preserves_send hI h

theorem preserves_pauseSubTasks (hI : Quiet I) {body : List SubTask}
    (h : ∀ row ∈ body, row.isPausable = true →
      Rewrites I row.id fun r => { r with status := .suspended }) :
    Preserves I (TaskScheduler.pauseSubTasks body) fun _ => True := by
  refine Preserves.each fun row hrow => ?_
  split
  · next hservice =>
    refine (preserves_noteLeft hI rfl).bind fun _ _ => preserves_pause hI hservice fun htype => ?_
    exact h row hrow (by simpa [SubTask.isPausable] using htype)
  · exact preserves_pure trivial

theorem preserves_deleteSubTasks (hI : Quiet I) {body : List SubTask}
    (h : ∀ row ∈ body, Erasable I row.id) :
    Preserves I (TaskScheduler.deleteSubTasks body) fun _ => True := by
  refine Preserves.each fun row hrow => ?_
  split
  · next hservice =>
    exact (preserves_noteLeft hI rfl).bind fun _ _ => preserves_delete hI hservice (h row hrow)
  · exact preserves_pure trivial

end Services

end Kuintessence.Agent

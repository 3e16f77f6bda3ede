import Kuintessence.Agent.Frames

namespace Kuintessence.Agent

open Prog

def State.putFile (s : State) (file : File) : State :=
  { s with taskFiles := Rows.put File.id file s.taskFiles }

def Emits (I : State → Prop) (events : List Event) : Prop :=
  ∀ s n, I s → I { s with calls := n, trace := s.trace ++ events }

def FileWritable (I : State → Prop) (file : File) : Prop :=
  ∀ s, I s → (∃ x ∈ s.taskFiles, x.id = file.id) → I (s.putFile file)

def ReadsFile (I : State → Prop) (file : File) : Prop := ∃ s, I s ∧ file ∈ s.taskFiles

-- What is noted without naming a sub-task.
def Event.isPlain : Event → Bool
  | .download _ | .upload _ | .install .. | .pauseJob _ | .continueJob _ | .deleteJob _
  | .saveFile .. => true
  | _ => false

def Event.about (id : Uuid) : Event → Bool
  | .submitJob info => info.id = id
  | .subTaskReport x _ => x = id
  | .deployment command => command.id = id
  | _ => false

structure Plain (I : State → Prop) : Prop where
  nothing : Emits I []
  events : ∀ e : Event, e.isPlain = true → Emits I [e]

structure SubTask.Same (row row' : SubTask) : Prop where
  id : row'.id = row.id
  parentId : row'.parentId = row.parentId
  taskType : row'.taskType = row.taskType

-- Whatever the services do to the sub-task is allowed.
structure Free (I : State → Prop) (id : Uuid) : Prop where
  rows : ∀ row row', Reads I id row → row.Same row' → Writable I row'
  events : ∀ e : Event, e.about id = true → Emits I [e]
  files : ∀ file x status, ReadsFile I file → file.relatedTaskBody = id → ReadsFile I x →
    x.id = file.id → FileWritable I { x with status := status }

structure Runnable (I : State → Prop) (id : Uuid) : Prop where
  submit : ∀ info : ScriptInfo, info.id = id → Emits I [.submitJob info]
  jobId : ∀ jobId, Rewrites I id fun row => { row with jobId := jobId }
  failed : ∀ reason, Rewrites I id fun row =>
    { row with status := .failed, failedReason := reason }
  report : Emits I [.subTaskReport id .failed]

section Primitives

variable {I : State → Prop} {id : Uuid}

theorem upholds_env {α : Type} (f : Env → α) :
    Upholds I (op (do let env ← .read; pure (f env))) fun _ => True :=
  upholds_atom fun _ _ hs => ⟨hs, trivial⟩

theorem upholds_fail {α : Type} (e : String) : Upholds I (fail e : Op α) fun _ => True :=
  upholds_done fun _ h => nomatch h

theorem upholds_call (hI : Emits I []) {α : Type} (answer : Env → Nat → α) {events : List Event}
    (h : Emits I events) : Upholds I (op (call answer events)) fun _ => True := by
  refine upholds_atom fun env s hs => ?_
  unfold Effect.wp call
  cases env.fails s.calls with
  | some e => simpa using hI s (s.calls + 1) hs
  | none => exact ⟨h s (s.calls + 1) hs, trivial⟩

theorem upholds_saveChanged (hI : Emits I []) : Upholds I (op saveChanged) fun _ => True :=
  upholds_call hI _ hI

theorem upholds_send {event : Event} (h : Emits I [event]) :
    Upholds I (send event) fun _ => True :=
  upholds_atom fun _ s hs => ⟨h s s.calls hs, trivial⟩

theorem upholds_getSubTask : Upholds I (op (SubTasks.getById id)) (Reads I id) :=
  upholds_atom preserves_getSubTask

theorem upholds_updateSubTask {row : SubTask} (h : Writable I row) :
    Upholds I (op (SubTasks.update row)) fun _ => True :=
  upholds_atom (preserves_updateSubTask h)

theorem upholds_tryUpdate {row : SubTask} (h : Writable I row) :
    Upholds I (tryUpdate row) fun _ => True :=
  (upholds_updateSubTask h).attempt.bind fun _ _ => upholds_pure trivial

theorem upholds_deleteSubTask (h : Erasable I id) :
    Upholds I (op (SubTasks.deleteById id)) fun _ => True :=
  upholds_atom (preserves_deleteById h)

theorem upholds_getFile :
    Upholds I (op (TaskFiles.getById id)) fun file => ReadsFile I file ∧ file.id = id := by
  refine upholds_atom fun env s hs => ?_
  refine Effect.wp_mono (@preserves_getFile I id env s hs) ?_ fun _ h => h
  rintro file t ⟨ht, u, hu, hmem, hid⟩
  exact ⟨ht, ⟨u, hu, hmem⟩, hid⟩

theorem upholds_findFilesByTask : Upholds I (op (TaskFiles.findFilesByTask id)) fun files =>
    ∀ file ∈ files, ReadsFile I file ∧ file.relatedTaskBody = id := by
  refine upholds_atom fun env s hs => ⟨hs, fun file hfile => ?_⟩
  obtain ⟨hmem, hrelated⟩ := List.mem_filter.mp hfile
  exact ⟨⟨s, hs, hmem⟩, of_decide_eq_true hrelated⟩

theorem upholds_updateFile {file : File} (h : FileWritable I file) :
    Upholds I (op (TaskFiles.update file)) fun _ => True := by
  refine upholds_atom fun env s hs => ?_
  simp only [TaskFiles.update, Effect.wp_bind, Effect.wp_get, Effect.wp_lift, Effect.wp_modify]
  refine ⟨fun files hfiles => ⟨?_, trivial⟩, fun _ => hs⟩
  rw [Outcome.okOr_ok_iff, Rows.replace, Option.ite_none_right_eq_some] at hfiles
  obtain ⟨hany, heq⟩ := hfiles
  cases heq
  exact h s hs (by simpa using hany)

theorem upholds_updateTaskFileStatus {status : FileStatus}
    (h : ∀ file, ReadsFile I file → file.id = id → FileWritable I { file with status := status }) :
    Upholds I (updateTaskFileStatus id status) fun _ => True :=
  upholds_getFile.bind fun file hfile => upholds_updateFile (h file hfile.1 hfile.2)

theorem Free.runnable (h : Free I id) : Runnable I id where
  submit := fun info hid => h.events _ (by simpa [Event.about] using hid)
  jobId := fun _ row hrow => h.rows row _ hrow ⟨rfl, rfl, rfl⟩
  failed := fun _ row hrow => h.rows row _ hrow ⟨rfl, rfl, rfl⟩
  report := h.events _ (by simp [Event.about])

theorem Free.status (h : Free I id) (status : TaskStatus) :
    Rewrites I id fun row => { row with status := status } :=
  fun row hrow => h.rows row _ hrow ⟨rfl, rfl, rfl⟩

end Primitives

section Services

variable {I : State → Prop} {id : Uuid}

namespace RunJob

theorem upholds_failToLoad (hI : Plain I) {task : SubTask} {reason : String}
    (h : Writable I { task with status := .failed, failedReason := reason })
    (hreport : Emits I [.subTaskReport task.id .failed]) :
    Upholds I (failToLoad task reason) fun _ => True :=
  (upholds_updateSubTask h).bind fun _ _ =>
    (upholds_saveChanged hI.nothing).bind fun _ _ => upholds_send hreport

theorem upholds_submitJob (hI : Plain I) {task : SubTask} (load : String) (mpi : Bool)
    (hsubmit : ∀ info : ScriptInfo, info.id = task.id → Emits I [.submitJob info])
    (h : ∀ jobId, Writable I { task with jobId := jobId }) :
    Upholds I (submitJob task load mpi) fun _ => True := by
  unfold submitJob
  split
  · exact (upholds_call hI.nothing _ (hsubmit _ rfl)).bind fun jobId _ =>
      upholds_updateSubTask (h jobId)
  · exact upholds_fail _

theorem upholds_loadAndSubmit (hI : Plain I) {task : SubTask} (deployer : DeployerType)
    (mpi : Bool) (htask : Reads I id task) (h : Runnable I id) :
    Upholds I (loadAndSubmit task deployer mpi) fun _ => True := by
  have hid : task.id = id := htask.choose_spec.2.2
  have hfail (reason : String) : Upholds I (failToLoad task reason) fun _ => True :=
    upholds_failToLoad hI (h.failed reason task htask) (hid ▸ h.report)
  unfold loadAndSubmit
  refine (upholds_env _).bind fun deployers _ => ?_
  split
  · refine (upholds_call hI.nothing _ hI.nothing).bind fun hash _ => ?_
    cases hash with
    | some hash =>
      refine (upholds_env _).bind fun load _ => Upholds.bind (Q := fun _ => True) ?_ fun _ _ =>
        upholds_saveChanged hI.nothing
      exact upholds_submitJob hI load mpi (fun info hinfo => h.submit info (hinfo.trans hid))
        fun jobId => h.jobId jobId task htask
    | none => exact hfail _
  · exact hfail _

theorem upholds_internalRunJob (hI : Plain I) (h : Runnable I id) :
    Upholds I (internalRunJob id) fun _ => True := by
  unfold internalRunJob
  refine upholds_findFilesByTask.bind fun files _ => ?_
  split
  · refine upholds_getSubTask.bind fun task htask => ?_
    have hid : task.id = id := htask.choose_spec.2.2
    cases task.facilityKind with
    | spack _ _ => exact upholds_loadAndSubmit hI .spack false htask h
    | singularity _ _ => exact upholds_loadAndSubmit hI .apptainer true htask h
    | unknown =>
      refine Upholds.bind (Q := fun _ => True) ?_ fun _ _ => upholds_saveChanged hI.nothing
      exact upholds_submitJob hI "" false (fun info hinfo => h.submit info (hinfo.trans hid))
        fun jobId => h.jobId jobId task htask
  · exact upholds_saveChanged hI.nothing

theorem upholds_internalCompleteJob (h : Emits I [.subTaskReport id .completed]) :
    Upholds I (internalCompleteJob id) fun _ => True := by
  unfold internalCompleteJob
  refine upholds_findFilesByTask.bind fun files _ => ?_
  split
  · exact upholds_send h
  · exact upholds_pure trivial

theorem upholds_downloads (hI : Plain I) (parentId : Uuid) {files : List File}
    (h : ∀ file ∈ files, ∀ x, ReadsFile I x → x.id = file.id →
      FileWritable I { x with status := .downloading }) :
    Upholds I (Prog.each (fun file : File => do
      updateTaskFileStatus file.id .downloading
      send (.download ⟨file.id, parentId, .start, some file⟩)) files) fun _ => True :=
  Upholds.each fun file hfile => (upholds_updateTaskFileStatus (h file hfile)).bind fun _ _ =>
    upholds_send (hI.events _ rfl)

theorem upholds_enqueueSubTask (hI : Plain I) (h : Runnable I id)
    (hrun : Rewrites I id fun row => { row with status := .running })
    (hfiles : ∀ file, ReadsFile I file → file.relatedTaskBody = id → file.fileType = .IN →
      ∀ x, ReadsFile I x → x.id = file.id → FileWritable I { x with status := .downloading }) :
    Upholds I (enqueueSubTask id) fun _ => True := by
  refine upholds_getSubTask.bind fun task htask => upholds_findFilesByTask.bind fun files hread => ?_
  have hrow := upholds_updateSubTask (hrun task htask)
  refine Upholds.ite (fun _ => ?_) fun _ => ?_
  · exact hrow.bind fun _ _ => (upholds_saveChanged hI.nothing).bind fun _ _ =>
      upholds_internalRunJob hI h
  · refine Upholds.bind (upholds_downloads hI _ fun file hfile => ?_) fun _ _ =>
      hrow.bind fun _ _ => upholds_saveChanged hI.nothing
    obtain ⟨hmem, htype⟩ := List.mem_filter.mp hfile
    exact hfiles file (hread file hmem).1 (hread file hmem).2 (of_decide_eq_true htype)

theorem upholds_deleteSubTask (hI : Plain I) (h : Erasable I id) :
    Upholds I (deleteSubTask id) fun _ => True := by
  refine upholds_getSubTask.bind fun task _ => ?_
  refine Upholds.bind (Upholds.when fun _ => ?_) fun _ _ =>
    (Agent.upholds_deleteSubTask h).bind fun _ _ => upholds_saveChanged hI.nothing
  exact upholds_call hI.nothing _ (hI.events _ rfl)

theorem upholds_transfer (hI : Plain I) {task : SubTask} {status : TaskStatus}
    (command : FileTransferStatus) (h : Writable I { task with status := status }) :
    Upholds I (transfer task status command) fun _ => True := by
  refine Upholds.bind (Upholds.when fun _ => ?_) fun _ _ => upholds_saveChanged hI.nothing
  refine (upholds_tryUpdate h).bind fun _ _ => upholds_findFilesByTask.bind fun files _ => ?_
  exact Upholds.each fun file _ => Upholds.when fun _ => upholds_send (hI.events _ rfl)

theorem upholds_pauseSubTask (hI : Plain I)
    (h : Rewrites I id fun row => { row with status := .suspended }) :
    Upholds I (pauseSubTask id) fun _ => True := by
  refine upholds_getSubTask.bind fun task htask => ?_
  refine Upholds.bind (Upholds.when fun _ => ?_) fun _ _ => upholds_transfer hI .pause (h task htask)
  exact upholds_call hI.nothing _ (hI.events _ rfl)

theorem upholds_continueSubTask (hI : Plain I)
    (h : Rewrites I id fun row => { row with status := .queuing }) :
    Upholds I (continueSubTask id) fun _ => True := by
  refine upholds_getSubTask.bind fun task htask => ?_
  refine Upholds.bind (Upholds.when fun _ => ?_) fun _ _ =>
    upholds_transfer hI .continue (h task htask)
  exact upholds_call hI.nothing _ (hI.events _ rfl)

theorem upholds_refreshStatus (hI : Plain I)
    (hdone : ∀ used, Rewrites I id fun row =>
      { row with resourceUsed := some used, status := .completing })
    (hfail : ∀ used reason, Rewrites I id fun row =>
      { row with resourceUsed := some used, status := .failed, failedReason := reason })
    (hreport : ∀ status, Emits I [.subTaskReport id status])
    (hfiles : ∀ file, ReadsFile I file → file.relatedTaskBody = id → file.fileType = .OUT →
      FileWritable I { file with status := .uploading }) :
    Upholds I (refreshStatus id) fun _ => True := by
  refine upholds_getSubTask.bind fun task htask => ?_
  refine (upholds_call hI.nothing _ hI.nothing).bind fun job _ => ?_
  cases hstate : statusOf job.state with
  | running => exact upholds_pure trivial
  | failed =>
    exact (upholds_updateSubTask (hfail job.resourceUsed (exitReason job) task htask)).bind
      fun _ _ => (upholds_saveChanged hI.nothing).bind fun _ _ => upholds_send (hreport _)
  | completing =>
    refine (upholds_updateSubTask (hdone job.resourceUsed task htask)).bind fun _ _ => ?_
    refine (upholds_saveChanged hI.nothing).bind fun _ _ =>
      upholds_findFilesByTask.bind fun files hread => ?_
    refine Upholds.ite (fun _ => upholds_internalCompleteJob (hreport _)) fun _ => ?_
    refine Upholds.bind (Upholds.each fun file hfile => ?_) fun _ _ =>
      upholds_saveChanged hI.nothing
    obtain ⟨hmem, htype⟩ := List.mem_filter.mp hfile
    exact (upholds_send (hI.events _ rfl)).bind fun _ _ => upholds_updateFile
      (hfiles file (hread file hmem).1 (hread file hmem).2 (of_decide_eq_true htype))
  | _ => cases hjob : job.state <;> simp [statusOf, hjob] at hstate

theorem upholds_runJob (hI : Plain I)
    (hfile : ∀ file, ReadsFile I file → file.id = id →
      FileWritable I { file with status := .both })
    (h : ∀ file, ReadsFile I file → file.id = id → Runnable I file.relatedTaskBody) :
    Upholds I (runJob id) fun _ => True :=
  upholds_getFile.bind fun file hread =>
    (upholds_updateTaskFileStatus hfile).bind fun _ _ =>
      (upholds_saveChanged hI.nothing).bind fun _ _ =>
        upholds_internalRunJob hI (h file hread.1 hread.2)

theorem upholds_completeJob (hI : Plain I)
    (hfile : ∀ file, ReadsFile I file → file.id = id →
      FileWritable I { file with status := .both })
    (h : ∀ file, ReadsFile I file → file.id = id →
      Emits I [.subTaskReport file.relatedTaskBody .completed]) :
    Upholds I (completeJob id) fun _ => True :=
  upholds_getFile.bind fun file hread =>
    (upholds_updateTaskFileStatus hfile).bind fun _ _ =>
      (upholds_saveChanged hI.nothing).bind fun _ _ =>
        upholds_internalCompleteJob (h file hread.1 hread.2)

theorem upholds_failJob (hI : Plain I) {reason : String}
    (hfail : Rewrites I id fun row => { row with status := .failed, failedReason := reason })
    (hreport : Emits I [.subTaskReport id .failed]) :
    Upholds I (failJob id reason) fun _ => True :=
  upholds_getSubTask.bind fun task htask =>
    (upholds_updateSubTask (hfail task htask)).bind fun _ _ =>
      (upholds_saveChanged hI.nothing).bind fun _ _ => upholds_send hreport

end RunJob

namespace DeploySoftware

theorem upholds_move (hI : Plain I) {status : TaskStatus}
    (h : Rewrites I id fun row => { row with status := status })
    (hdeploy : Emits I [.deployment ⟨id, status⟩]) :
    Upholds I (do
      let subTask ← op (SubTasks.getById id)
      deploy subTask status
      op (SubTasks.update { subTask with status := status })
      op saveChanged : Op Unit) fun _ => True := by
  refine upholds_getSubTask.bind fun row hrow => ?_
  have hid : row.id = id := hrow.choose_spec.2.2
  have hsend : Upholds I (deploy row status) fun _ => True := upholds_send (hid ▸ hdeploy)
  exact hsend.bind fun _ _ => (upholds_updateSubTask (h row hrow)).bind fun _ _ =>
    upholds_saveChanged hI.nothing

theorem upholds_enqueueSubTask (hI : Plain I)
    (h : Rewrites I id fun row => { row with status := .running })
    (hdeploy : Emits I [.deployment ⟨id, .running⟩]) :
    Upholds I (enqueueSubTask id) fun _ => True := upholds_move hI h hdeploy

theorem upholds_pauseSubTask (hI : Plain I)
    (h : Rewrites I id fun row => { row with status := .suspended })
    (hdeploy : Emits I [.deployment ⟨id, .suspended⟩]) :
    Upholds I (pauseSubTask id) fun _ => True := upholds_move hI h hdeploy

theorem upholds_deleteSubTask (hI : Plain I) (h : Erasable I id)
    (hdeploy : Emits I [.deployment ⟨id, .suspended⟩]) :
    Upholds I (deleteSubTask id) fun _ => True := by
  refine upholds_getSubTask.bind fun row hrow => ?_
  have hid : row.id = id := hrow.choose_spec.2.2
  have hsend : Upholds I (deploy row .suspended) fun _ => True := upholds_send (hid ▸ hdeploy)
  exact hsend.bind fun _ _ => (Agent.upholds_deleteSubTask h).bind fun _ _ =>
    upholds_saveChanged hI.nothing

theorem upholds_end (hI : Plain I) {status : TaskStatus} {result : SubTaskStatus}
    (h : Rewrites I id fun row => { row with status := status })
    (hreport : Emits I [.subTaskReport id result]) :
    Upholds I (do
      let subTask ← op (SubTasks.getById id)
      op (SubTasks.update { subTask with status := status })
      op saveChanged
      send (.subTaskReport id result) : Op Unit) fun _ => True :=
  upholds_getSubTask.bind fun row hrow => (upholds_updateSubTask (h row hrow)).bind fun _ _ =>
    (upholds_saveChanged hI.nothing).bind fun _ _ => upholds_send hreport

theorem upholds_completeSubTask (hI : Plain I)
    (h : Rewrites I id fun row => { row with status := .completed })
    (hreport : Emits I [.subTaskReport id .completed]) :
    Upholds I (completeSubTask id) fun _ => True := upholds_end hI h hreport

theorem upholds_failSubTask (hI : Plain I)
    (h : Rewrites I id fun row => { row with status := .failed })
    (hreport : Emits I [.subTaskReport id .failed]) :
    Upholds I (failSubTask id) fun _ => True := upholds_end hI h hreport

theorem upholds_giveUp (hI : Plain I) {subTask : SubTask} {reason : String}
    (h : Writable I { subTask with failedReason := reason })
    (hdeploy : Emits I [.deployment ⟨subTask.id, .failed⟩]) :
    Upholds I (giveUp subTask reason) fun _ => True :=
  (upholds_updateSubTask h).bind fun _ _ => (upholds_saveChanged hI.nothing).bind fun _ _ =>
    upholds_send hdeploy

theorem upholds_installWith (hI : Plain I) (deployer : DeployerType) {subTask : SubTask}
    (name : String) (parameters : List String)
    (h : ∀ reason, Writable I { subTask with failedReason := reason })
    (hdeploy : ∀ status, Emits I [.deployment ⟨subTask.id, status⟩]) :
    Upholds I (installWith deployer subTask name parameters) fun _ => True := by
  refine (upholds_env _).bind fun deployers _ => Upholds.ite (fun _ => ?_) fun _ =>
    upholds_giveUp hI (h _) (hdeploy _)
  refine (upholds_call hI.nothing _ hI.nothing).attempt.bind fun found _ => ?_
  split
  · exact upholds_send (hdeploy _)
  · refine (upholds_call hI.nothing _ (hI.events _ rfl)).attempt.bind fun result _ => ?_
    cases result with
    | ok _ => exact upholds_send (hdeploy _)
    | error e => exact upholds_giveUp hI (h e) (hdeploy _)

theorem upholds_runSubTask (hI : Plain I)
    (h : ∀ reason, Rewrites I id fun row => { row with failedReason := reason })
    (hdeploy : ∀ status, Emits I [.deployment ⟨id, status⟩]) :
    Upholds I (runSubTask id) fun _ => True := by
  refine upholds_getSubTask.bind fun row hrow => ?_
  have hid : row.id = id := hrow.choose_spec.2.2
  have hwrite (reason : String) := h reason row hrow
  have hsend (status : TaskStatus) : Emits I [.deployment ⟨row.id, status⟩] := hid ▸ hdeploy status
  cases row.facilityKind with
  | spack name argumentList =>
    exact upholds_installWith hI .spack name argumentList hwrite hsend
  | singularity image tag => exact upholds_installWith hI .apptainer image [tag] hwrite hsend
  | unknown => exact upholds_giveUp hI (hwrite _) (hsend _)

end DeploySoftware

namespace Collection

theorem upholds_innerRunSubTask (hI : Plain I) (subTask : SubTask) :
    Upholds I (innerRunSubTask subTask) fun _ => True := by
  unfold innerRunSubTask
  split
  · refine (upholds_call hI.nothing _ hI.nothing).attempt.bind fun input _ => ?_
    cases input with
    | ok input =>
      exact (upholds_env _).bind fun regex _ => (upholds_done fun _ _ => trivial).bind
        fun output _ => upholds_call hI.nothing _ (hI.events _ rfl)
    | error e => exact Upholds.ite (fun _ => upholds_pure trivial) fun _ => upholds_fail _
  · exact upholds_fail _

theorem upholds_enqueueSubTask (hI : Plain I)
    (hdone : Rewrites I id fun row => { row with status := .completed })
    (hfail : ∀ reason,
      Rewrites I id fun row => { row with status := .failed, failedReason := reason })
    (hreport : ∀ result, Emits I [.subTaskReport id result]) :
    Upholds I (enqueueSubTask id) fun _ => True := by
  refine upholds_getSubTask.bind fun row hrow => ?_
  refine (upholds_innerRunSubTask hI row).attempt.bind fun result _ => ?_
  cases result with
  | ok _ =>
    exact (upholds_updateSubTask (hdone row hrow)).bind fun _ _ =>
      (upholds_saveChanged hI.nothing).bind fun _ _ => upholds_send (hreport _)
  | error e =>
    exact (upholds_updateSubTask (hfail _ row hrow)).bind fun _ _ =>
      (upholds_saveChanged hI.nothing).bind fun _ _ => (upholds_send (hreport _)).bind fun _ _ =>
        upholds_fail e

end Collection

variable {type : TaskDisplayType} {service : SubTaskService}

theorem Free.reports (h : Free I id) (result : SubTaskStatus) :
    Emits I [.subTaskReport id result] := h.events _ (by simp [Event.about])

theorem Free.deploys (h : Free I id) (status : TaskStatus) :
    Emits I [.deployment ⟨id, status⟩] := h.events _ (by simp [Event.about])

end Services

end Kuintessence.Agent

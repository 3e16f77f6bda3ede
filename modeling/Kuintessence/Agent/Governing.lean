import Kuintessence.Agent.Counting
import Kuintessence.Agent.Sequencing
import Kuintessence.Agent.Upkeep

namespace Kuintessence.Agent

open Prog

def State.putTask (s : State) (task : Task) : State :=
  { s with tasks := Rows.put Task.id task s.tasks }

def State.dropTask (s : State) (id : Uuid) : State :=
  { s with tasks := s.tasks.eraseP fun x => x.id = id }

-- The counter, the marks of the scheduler and its reports do not matter.
structure Lenient (I : State → Prop) : Prop extends Plain I where
  counts : ∀ s n e, e.isAccounted = true → I s →
    I { s with tasksCount := n, trace := s.trace ++ [e] }
  reports : ∀ result task message used, Emits I [.reported result task message used]

def Operation.isStart : Operation → Bool
  | .message m => m.command = .start
  | _ => false

theorem Operation.isStart_iff {operation : Operation} : operation.isStart = true ↔
    ∃ m : Dto.Task, m.command = .start ∧ operation = .message m := by
  cases operation <;> simp [Operation.isStart]

-- What the scheduler serves; the rest is served by the sub-task services.
def Operation.isScheduling : Operation → Bool
  | .message _ | .report .. | .scheduleNextTask | .scheduleNextTaskById _
  | .deleteAllCompletedTasks => true
  | _ => false

def Starts (I : State → Prop) (id : Uuid) : Prop :=
  ∀ s, I s → I { s with trace := s.trace ++ [.started id s.subTasks] }

-- Whatever the scheduler does to the task is allowed.
structure Governs (I : State → Prop) (q : Uuid) : Prop where
  write : ∀ s task, task.id = q → I s → I (s.putTask task)
  erase : ∀ s, I s → I (s.dropTask q)
  free : ∀ s r, I s → r ∈ s.subTasks → r.parentId = q → Free I r.id
  erasable : ∀ s r, I s → r ∈ s.subTasks → r.parentId = q → Erasable I r.id
  starts : ∀ s r, I s → r ∈ s.subTasks → r.parentId = q → Starts I r.id

section Services

variable {I : State → Prop} {id : Uuid} {type : TaskDisplayType} {service : SubTaskService}

theorem Free.enqueue (h : Free I id) (hI : Plain I)
    (hservice : subTaskServices type = some service) :
    Upholds I (service.enqueueSubTask id) fun _ => True := by
  cases type with
  | softwareDeployment =>
    cases hservice
    exact DeploySoftware.upholds_enqueueSubTask hI (h.status _) (h.deploys _)
  | usecaseExecution =>
    cases hservice
    exact RunJob.upholds_enqueueSubTask hI h.runnable (h.status _)
      fun file hfile hrelated _ x hx hid => h.files file x _ hfile hrelated hx hid
  | collectedOut =>
    cases hservice
    exact Collection.upholds_enqueueSubTask hI (h.status _) h.runnable.failed h.reports
  | unknown => cases hservice

theorem Free.resume (h : Free I id) (hI : Plain I)
    (hservice : subTaskServices type = some service) :
    Upholds I (service.continueSubTask id) fun _ => True := by
  cases type with
  | softwareDeployment =>
    cases hservice
    exact DeploySoftware.upholds_enqueueSubTask hI (h.status _) (h.deploys _)
  | usecaseExecution => cases hservice; exact RunJob.upholds_continueSubTask hI (h.status _)
  | collectedOut => cases hservice; exact upholds_pure trivial
  | unknown => cases hservice

theorem upholds_pause (hI : Plain I) (hservice : subTaskServices type = some service)
    (h : Rewrites I id fun row => { row with status := .suspended })
    (hdeploy : Emits I [.deployment ⟨id, .suspended⟩]) :
    Upholds I (service.pauseSubTask id) fun _ => True := by
  cases type with
  | softwareDeployment =>
    cases hservice
    exact DeploySoftware.upholds_pauseSubTask hI h hdeploy
  | usecaseExecution => cases hservice; exact RunJob.upholds_pauseSubTask hI h
  | collectedOut => cases hservice; exact upholds_pure trivial
  | unknown => cases hservice

theorem upholds_delete (hI : Plain I) (herase : Erasable I id)
    (hdeploy : Emits I [.deployment ⟨id, .suspended⟩])
    (hservice : subTaskServices type = some service) :
    Upholds I (service.deleteSubTask id) fun _ => True := by
  cases type with
  | softwareDeployment =>
    cases hservice
    exact DeploySoftware.upholds_deleteSubTask hI herase hdeploy
  | usecaseExecution => cases hservice; exact RunJob.upholds_deleteSubTask hI herase
  | collectedOut => cases hservice; exact upholds_pure trivial
  | unknown => cases hservice

end Services

section Scheduling

variable {I : State → Prop} {q : Uuid}

theorem upholds_getTask : Upholds I (op (Tasks.getById q)) fun task =>
    task.id = q ∧ ∃ s, I s ∧ task.body = s.subTasks.filter fun x => x.parentId = q := by
  refine upholds_atom fun env s hs => ?_
  simp only [Tasks.getById, Effect.wp_bind, Effect.wp_get, Effect.wp_lift, Effect.wp_pure]
  refine ⟨fun x hx => ⟨hs, ?_, s, hs, rfl⟩, fun _ => hs⟩
  rw [Outcome.okOr_ok_iff] at hx
  simpa using List.find?_some hx

theorem upholds_setStatus {task : Task} (hid : task.id = q)
    (h : ∀ s task, task.id = q → I s → I (s.putTask task)) (status : TaskStatus) :
    Upholds I (op (Tasks.update { task with status := status })) fun _ => True := by
  refine upholds_atom fun env s hs => ?_
  simp only [Tasks.update, Effect.wp_bind, Effect.wp_read, Effect.wp_get, Effect.wp_lift,
    Effect.wp_modify]
  refine ⟨fun tasks htasks => ⟨?_, trivial⟩, fun _ => hs⟩
  rw [Outcome.okOr_ok_iff, Rows.replace, Option.ite_none_right_eq_some] at htasks
  obtain ⟨-, heq⟩ := htasks
  cases heq
  exact h s _ hid hs

theorem upholds_deleteTaskRow (h : Governs I q) :
    Upholds I (op (Tasks.deleteById q)) fun _ => True := by
  refine upholds_atom fun env s hs => ?_
  simp only [Tasks.deleteById, Effect.wp_bind, Effect.wp_get, Effect.wp_lift, Effect.wp_modify]
  refine ⟨fun tasks htasks => ⟨?_, trivial⟩, fun _ => hs⟩
  rw [Outcome.okOr_ok_iff, Rows.remove, Option.ite_none_right_eq_some] at htasks
  obtain ⟨-, heq⟩ := htasks
  cases heq
  exact h.erase s hs

variable (hI : Lenient I)

include hI

omit hI in
theorem upholds_loadTasksCount : Upholds I TaskScheduler.loadTasksCount fun _ => True :=
  upholds_atom fun _ _ hs => ⟨hs, trivial⟩

theorem Lenient.storeTasksCount (count : Nat) {event : Event} (h : event.isAccounted = true) :
    Upholds I (TaskScheduler.storeTasksCount count event) fun _ => True :=
  upholds_atom fun _ s hs => ⟨hI.counts s count event h hs, trivial⟩

theorem Lenient.releaseTasksCount {event : Event} (h : event.isAccounted = true) :
    Upholds I (TaskScheduler.releaseTasksCount event) fun _ => True :=
  upholds_loadTasksCount.bind fun _ _ => (upholds_done fun _ _ => trivial).bind fun count _ =>
    hI.storeTasksCount count h

theorem Lenient.report (result : Dto.TaskResultStatus) (message : String)
    (used : Option Dto.TaskUsedResource) :
    Upholds I (op (call (fun _ _ => ()) [.reported result q message used])) fun _ => True :=
  upholds_call hI.nothing _ (hI.reports result q message used)

omit hI in
theorem upholds_startSubTask (hI : Plain I) {subTask : SubTask} {type : TaskDisplayType}
    {service : SubTaskService} (hstarts : Starts I subTask.id) (h : Free I subTask.id)
    (hservice : subTaskServices type = some service) :
    Upholds I (TaskScheduler.startSubTask subTask service) fun _ => True := by
  have hnote : Upholds I (op (.modify fun s => { s with
      trace := s.trace ++ [.started subTask.id s.subTasks] })) fun _ => True :=
    upholds_atom fun _ s hs => ⟨hstarts s hs, trivial⟩
  refine hnote.bind fun _ _ => ?_
  split
  · exact h.enqueue hI hservice
  · exact h.resume hI hservice
  · exact upholds_done fun _ h => nomatch h

theorem Lenient.dispatch {subTask : SubTask} (hstarts : Starts I subTask.id)
    (h : Free I subTask.id) :
    Upholds I (TaskScheduler.dispatch subTask) fun _ => True := by
  have hmax : Upholds I (op (do let s ← .get; pure s.maxTasksCount)) fun _ => True :=
    upholds_atom fun _ _ hs => ⟨hs, trivial⟩
  refine hmax.bind fun _ _ => ?_
  refine upholds_loadTasksCount.bind fun _ _ => ?_
  refine Upholds.ite (fun _ => upholds_pure trivial) fun _ => ?_
  refine Upholds.bind (upholds_done fun _ _ => trivial) fun count _ => ?_
  refine (hI.storeTasksCount count rfl).bind fun _ _ => ?_
  refine Upholds.bind (upholds_done fun _ h => Outcome.okOr_ok_iff.mp h) fun service hservice => ?_
  exact upholds_startSubTask hI.toPlain hstarts h hservice

theorem Lenient.makeRunning {task : Task} (hid : task.id = q)
    (h : ∀ s task, task.id = q → I s → I (s.putTask task)) :
    Upholds I (TaskScheduler.makeRunning task) fun _ => True :=
  Upholds.ite
    (fun _ => (upholds_setStatus hid h .running).bind fun _ _ => upholds_saveChanged hI.nothing)
    fun _ => Upholds.ite (fun _ => upholds_pure trivial) fun _ => upholds_fail _

theorem Lenient.scheduleNextTaskById (h : Governs I q) :
    Upholds I (TaskScheduler.scheduleNextTaskById q) fun _ => True := by
  refine upholds_getTask.bind fun task htask => ?_
  obtain ⟨hid, s, hs, hbody⟩ := htask
  refine (hI.makeRunning hid h.write).bind fun _ _ => (hI.report _ _ _).bind fun _ _ => ?_
  refine Upholds.ite (fun _ => upholds_pure trivial) fun _ => ?_
  refine Upholds.bind (upholds_done fun _ h => Outcome.okOr_ok_iff.mp h) fun row hrow => ?_
  have hmem := hbody ▸ List.mem_of_find?_eq_some hrow
  obtain ⟨hmem, hparent⟩ := List.mem_filter.mp hmem
  have hparent : row.parentId = q := of_decide_eq_true hparent
  exact hI.dispatch (h.starts s row hs hmem hparent) (h.free s row hs hmem hparent)

omit hI in
theorem upholds_scheduleNextTask
    (h : ∀ s q, I s → s.nextQueuing = some q →
      Upholds I (TaskScheduler.scheduleNextTaskById q) fun _ => True) :
    Upholds I TaskScheduler.scheduleNextTask fun _ => True := by
  have hread : Upholds I (op Tasks.getNextQueuingId) fun id =>
      ∃ s, I s ∧ s.nextQueuing = id :=
    upholds_atom fun _ s hs => ⟨hs, s, hs, rfl⟩
  refine hread.bind fun id hid => ?_
  obtain ⟨s, hs, hnext⟩ := hid
  split
  · exact h s _ hs hnext
  · exact upholds_pure trivial

-- The rows of the task as they were read at some time.
def Bodied (I : State → Prop) (q : Uuid) (body : List SubTask) : Prop :=
  ∃ s, I s ∧ body = s.subTasks.filter fun x => x.parentId = q

omit hI in
theorem Bodied.row {body : List SubTask} (h : Bodied I q body) {row : SubTask} (hrow : row ∈ body) :
    ∃ s, I s ∧ row ∈ s.subTasks ∧ row.parentId = q := by
  obtain ⟨s, hs, rfl⟩ := h
  obtain ⟨hmem, hparent⟩ := List.mem_filter.mp hrow
  exact ⟨s, hs, hmem, of_decide_eq_true hparent⟩

omit hI in
theorem upholds_noteLeft {event : Event} (h : Emits I [event]) :
    Upholds I (TaskScheduler.noteLeft event) fun _ => True :=
  upholds_atom fun _ s hs => ⟨h s s.calls hs, trivial⟩

theorem Lenient.emits {event : Event} (h : event.isAccounted = true) : Emits I [event] := by
  intro s n hs
  have hcalls : I { s with calls := n, trace := s.trace ++ [] } := hI.nothing s n hs
  rw [List.append_nil] at hcalls
  exact hI.counts _ s.tasksCount event h hcalls

omit hI in
theorem upholds_pauseRows (hI : Plain I) {body : List SubTask}
    (h : ∀ row ∈ body, Emits I [.paused [row.id]] ∧
      Rewrites I row.id (fun r => { r with status := .suspended }) ∧
      Emits I [.deployment ⟨row.id, .suspended⟩]) :
    Upholds I (TaskScheduler.pauseSubTasks body) fun _ => True := by
  refine Upholds.each fun row hrow => ?_
  obtain ⟨hnote, hwrite, hdeploy⟩ := h row hrow
  split
  · next hservice =>
    exact (upholds_noteLeft hnote).bind fun _ _ => upholds_pause hI hservice hwrite hdeploy
  · exact upholds_pure trivial

omit hI in
theorem upholds_deleteRows (hI : Plain I) {body : List SubTask}
    (h : ∀ row ∈ body, Emits I [.removed row.id] ∧ Erasable I row.id ∧
      Emits I [.deployment ⟨row.id, .suspended⟩]) :
    Upholds I (TaskScheduler.deleteSubTasks body) fun _ => True := by
  refine Upholds.each fun row hrow => ?_
  obtain ⟨hnote, herase, hdeploy⟩ := h row hrow
  split
  · next hservice =>
    exact (upholds_noteLeft hnote).bind fun _ _ => upholds_delete hI herase hdeploy hservice
  · exact upholds_pure trivial

theorem Lenient.pauseSubTasks (h : Governs I q) {body : List SubTask} (hbody : Bodied I q body) :
    Upholds I (TaskScheduler.pauseSubTasks body) fun _ => True := by
  refine upholds_pauseRows hI.toPlain fun row hrow => ?_
  obtain ⟨s, hs, hmem, hparent⟩ := hbody.row hrow
  have hfree := h.free s row hs hmem hparent
  exact ⟨hI.emits rfl, hfree.status .suspended, hfree.deploys .suspended⟩

theorem Lenient.deleteSubTasks (h : Governs I q) {body : List SubTask} (hbody : Bodied I q body) :
    Upholds I (TaskScheduler.deleteSubTasks body) fun _ => True := by
  refine upholds_deleteRows hI.toPlain fun row hrow => ?_
  obtain ⟨s, hs, hmem, hparent⟩ := hbody.row hrow
  have hfree := h.free s row hs hmem hparent
  exact ⟨hI.emits rfl, h.erasable s row hs hmem hparent, hfree.deploys .suspended⟩

theorem Lenient.continueTask (h : ∀ s task, task.id = q → I s → I (s.putTask task))
    (hschedule : Upholds I (TaskScheduler.scheduleNextTaskById q) fun _ => True) :
    Upholds I (TaskScheduler.continueTask q) fun _ => True := by
  refine upholds_getTask.bind fun task htask => ?_
  obtain ⟨hid, -⟩ := htask
  refine Upholds.bind (upholds_setStatus hid h .queuing) fun _ _ => ?_
  exact (upholds_saveChanged hI.nothing).bind fun _ _ => (hI.report _ _ _).bind fun _ _ =>
    hid ▸ hschedule

theorem Lenient.suspend (h : Governs I q) {task : Task} (hid : task.id = q)
    (hbody : Bodied I q task.body) {k : Op Unit} (hk : Upholds I k fun _ => True) :
    Upholds I (do
      TaskScheduler.releaseTasksCount (.paused (task.body.map SubTask.id))
      TaskScheduler.pauseSubTasks task.body
      op (Tasks.update { task with status := .suspended })
      op saveChanged
      k : Op Unit) fun _ => True :=
  (hI.releaseTasksCount rfl).bind fun _ _ => (hI.pauseSubTasks h hbody).bind fun _ _ =>
    (upholds_setStatus hid h.write .suspended).bind fun _ _ =>
      (upholds_saveChanged hI.nothing).bind fun _ _ => hk

variable (hnext : Upholds I TaskScheduler.scheduleNextTask fun _ => True)

include hnext

theorem Lenient.pauseTask (h : Governs I q) :
    Upholds I (TaskScheduler.pauseTask q) fun _ => True := by
  refine upholds_getTask.bind fun task htask => ?_
  obtain ⟨hid, hbody⟩ := htask
  split
  · exact (hI.pauseSubTasks h hbody).bind fun _ _ =>
      (upholds_setStatus hid h.write .suspended).bind fun _ _ =>
        (hI.report _ _ _).bind fun _ _ => upholds_saveChanged hI.nothing
  · exact hI.suspend h hid hbody ((hI.report _ _ _).bind fun _ _ => hnext)
  · exact upholds_fail _

theorem Lenient.deleteTask (h : Governs I q) (isInternal : Bool) :
    Upholds I (TaskScheduler.deleteTask q isInternal) fun _ => True := by
  refine upholds_getTask.bind fun task htask => ?_
  obtain ⟨hid, hbody⟩ := htask
  refine Upholds.bind (Upholds.when fun _ => hI.suspend h hid hbody hnext) fun _ _ => ?_
  refine (hI.deleteSubTasks h hbody).bind fun _ _ => (upholds_deleteTaskRow h).bind fun _ _ => ?_
  exact (Upholds.when fun _ => hI.report _ _ _).bind fun _ _ => upholds_saveChanged hI.nothing

theorem Lenient.completeSubTask {id : Uuid} (hfree : Free I id)
    (h : ∀ row, Reads I id row → Governs I row.parentId) :
    Upholds I (TaskScheduler.completeSubTask id) fun _ => True := by
  refine upholds_getSubTask.bind fun row hrow => ?_
  refine (upholds_updateSubTask (hfree.status .completed row hrow)).bind fun _ _ => ?_
  refine (upholds_saveChanged hI.nothing).bind fun _ _ => ?_
  refine (hI.releaseTasksCount rfl).bind fun _ _ => upholds_getTask.bind fun task htask => ?_
  obtain ⟨hid, -⟩ := htask
  refine Upholds.ite (fun _ => ?_) fun _ => hI.scheduleNextTaskById (h row hrow)
  refine (upholds_setStatus hid (h row hrow).write .completed).bind fun _ _ =>
    (upholds_saveChanged hI.nothing).bind fun _ _ => ?_
  exact (upholds_getTask.bind fun _ _ => hI.report _ _ _).bind fun _ _ => hnext

theorem Lenient.failSubTask {id : Uuid} (h : ∀ row, Reads I id row → Governs I row.parentId) :
    Upholds I (TaskScheduler.failSubTask id) fun _ => True := by
  refine (hI.releaseTasksCount rfl).bind fun _ _ => upholds_getSubTask.bind fun row hrow => ?_
  refine upholds_getTask.bind fun task htask => ?_
  obtain ⟨hid, -⟩ := htask
  refine (upholds_setStatus hid (h row hrow).write .failed).bind fun _ _ =>
    (upholds_saveChanged hI.nothing).bind fun _ _ => ?_
  exact (hI.report _ _ _).bind fun _ _ => hnext

end Scheduling

-- Whatever any operation does to the tasks that are stored is allowed.
structure Governed (I : State → Prop) : Prop extends Lenient I where
  governs : ∀ q, Governs I q
  free : ∀ id, Free I id

-- Whatever any operation does is allowed.
structure Universal (I : State → Prop) : Prop extends Governed I where
  insert : ∀ s row, I s → I (SubTasks.insert s row)
  draws : ∀ s n, I s → I { s with nextId := n }
  submits : ∀ task body, Emits I [.submitted task body]

section Services

variable {I : State → Prop} (hI : Plain I) (hfree : ∀ id, Free I id)

include hI hfree

theorem upholds_refreshStatus (id : Uuid) : Upholds I (RunJob.refreshStatus id) fun _ => True :=
  RunJob.upholds_refreshStatus hI
    (fun _ row hrow => (hfree id).rows row _ hrow ⟨rfl, rfl, rfl⟩)
    (fun _ _ row hrow => (hfree id).rows row _ hrow ⟨rfl, rfl, rfl⟩) (hfree id).reports
    fun file hfile hrelated _ => (hfree id).files file file _ hfile hrelated hfile rfl

theorem upholds_serveSubTask {operation : Operation} (h : operation.isScheduling = false) :
    Upholds I operation.serve fun _ => True := by
  have hfile (file : File) (h : ReadsFile I file) (status : FileStatus) :
      FileWritable I { file with status := status } :=
    (hfree file.relatedTaskBody).files file file _ h rfl h rfl
  cases operation with
  | refreshAllStatus =>
    have hread : Upholds I (op SubTasks.getAllRefreshableTask) fun _ => True :=
      upholds_atom fun _ _ hs => ⟨hs, trivial⟩
    exact hread.bind fun _ _ => Upholds.each fun _ _ => upholds_refreshStatus hI hfree _
  | runJob id =>
    exact RunJob.upholds_runJob hI (fun file h _ => hfile file h _)
      fun _ _ _ => (hfree _).runnable
  | completeJob id =>
    exact RunJob.upholds_completeJob hI (fun file h _ => hfile file h _)
      fun _ _ _ => (hfree _).reports _
  | failJob id reason =>
    exact RunJob.upholds_failJob hI ((hfree id).runnable.failed reason) ((hfree id).reports _)
  | runSubTask id =>
    exact DeploySoftware.upholds_runSubTask hI
      (fun _ row hrow => (hfree id).rows row _ hrow ⟨rfl, rfl, rfl⟩) (hfree id).deploys
  | completeDeployment id =>
    exact DeploySoftware.upholds_completeSubTask hI ((hfree id).status _) ((hfree id).reports _)
  | failDeployment id =>
    exact DeploySoftware.upholds_failSubTask hI ((hfree id).status _) ((hfree id).reports _)
  | message => cases h
  | report => cases h
  | scheduleNextTask => cases h
  | scheduleNextTaskById => cases h
  | deleteAllCompletedTasks => cases h

end Services

section Governed

variable {I : State → Prop} (hI : Governed I)

include hI

theorem Governed.scheduleNextTask : Upholds I TaskScheduler.scheduleNextTask fun _ => True :=
  upholds_scheduleNextTask fun _ q _ _ => hI.scheduleNextTaskById (hI.governs q)

theorem Governed.deleteTask (q : Uuid) (isInternal : Bool) :
    Upholds I (TaskScheduler.deleteTask q isInternal) fun _ => True :=
  Lenient.deleteTask hI.toLenient hI.scheduleNextTask (hI.governs q) isInternal

theorem Governed.receive {message : Dto.Task} (h : message.command ≠ .start) :
    Upholds I (KafkaMessageQueue.receive message) fun _ => True := by
  unfold KafkaMessageQueue.receive
  split
  · next hstart => exact absurd hstart h
  · exact Lenient.pauseTask hI.toLenient hI.scheduleNextTask (hI.governs _)
  · exact Lenient.continueTask hI.toLenient (hI.governs _).write
      (hI.scheduleNextTaskById (hI.governs _))
  · exact hI.deleteTask _ _

theorem Governed.serve {operation : Operation} (h : operation.isStart = false) :
    Upholds I operation.serve fun _ => True := by
  cases hscheduling : operation.isScheduling with
  | false => exact upholds_serveSubTask hI.toPlain hI.free hscheduling
  | true =>
    cases operation with
    | message message =>
      exact hI.receive fun hstart => by simp [Operation.isStart, hstart] at h
    | report id status =>
      cases status with
      | completed =>
        exact Lenient.completeSubTask hI.toLenient hI.scheduleNextTask (hI.free id)
          fun _ _ => hI.governs _
      | failed =>
        exact Lenient.failSubTask hI.toLenient hI.scheduleNextTask fun _ _ => hI.governs _
    | scheduleNextTask => exact hI.scheduleNextTask
    | scheduleNextTaskById q => exact hI.scheduleNextTaskById (hI.governs q)
    | deleteAllCompletedTasks =>
      have hread : Upholds I (op Tasks.getAll) fun _ => True :=
        upholds_atom fun _ _ hs => ⟨hs, trivial⟩
      exact hread.bind fun _ _ => (upholds_env _).bind fun _ _ =>
        Upholds.each fun _ _ => Upholds.when fun _ => hI.deleteTask _ _
    | refreshAllStatus => cases hscheduling
    | runJob => cases hscheduling
    | completeJob => cases hscheduling
    | failJob => cases hscheduling
    | runSubTask => cases hscheduling
    | completeDeployment => cases hscheduling
    | failDeployment => cases hscheduling

end Governed

section Universal

variable {I : State → Prop} (hI : Universal I)

include hI

theorem Universal.insertTask (task : Task) : Upholds I (op (do
    Tasks.insert task
    Agent.note (.submitted task.id (task.body.map SubTask.id)))) fun _ => True := by
  refine upholds_atom fun env s hs => ?_
  have hrows (body : List SubTask) : ∀ t, I t → I (body.foldl SubTasks.insert t) := by
    induction body with
    | nil => exact fun _ ht => ht
    | cons row body ih => exact fun t ht => ih _ (hI.insert t row ht)
  have hput := (hI.governs task.id).write _ task rfl (hrows task.body s hs)
  exact ⟨hI.submits _ _ _ _ hput, trivial⟩

theorem Universal.enqueueTask (task : Task) :
    Upholds I (TaskScheduler.enqueueTask task) fun _ => True :=
  (hI.insertTask _).bind fun _ _ => (upholds_saveChanged hI.nothing).bind fun _ _ =>
    hI.scheduleNextTaskById (hI.governs _)

theorem Universal.start {message : Dto.Task} (h : message.command = .start) :
    Upholds I (KafkaMessageQueue.receive message) fun _ => True := by
  rw [KafkaMessageQueue.receive, h]
  have hdraw : Upholds I (op (KafkaMessageQueue.drawBody message)) fun _ => True :=
    upholds_atom fun _ s hs => ⟨hI.draws s _ hs, trivial⟩
  exact hdraw.bind fun _ _ => (upholds_env _).bind fun _ _ => hI.enqueueTask _

theorem Universal.serve (operation : Operation) :
    Upholds I operation.serve fun _ => True := by
  cases hstart : operation.isStart with
  | false => exact hI.toGoverned.serve hstart
  | true =>
    obtain ⟨message, hcommand, rfl⟩ := Operation.isStart_iff.mp hstart
    exact hI.start hcommand

end Universal

end Kuintessence.Agent

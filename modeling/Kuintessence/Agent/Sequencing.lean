import Kuintessence.Agent.Enqueuing
import Kuintessence.Agent.Parking
import Kuintessence.Lib.Run

namespace Kuintessence.Agent

open Prog

structure Mirrors (s t : State) : Prop extends Alike s t where
  tasks : t.tasks = s.tasks

theorem quiet_mirrors (s : State) : Quiet (Mirrors s) where
  files := fun t files h => { (quiet_alike s).files t files h.toAlike with tasks := h.tasks }
  calls := fun t n es h hes =>
    { (quiet_alike s).calls t n es h.toAlike hes with tasks := h.tasks }

def State.nextQueuing (s : State) : Option Uuid :=
  (s.tasks.find? fun x => x.status = .queuing).map Task.id

def State.nextBut (s : State) (task : Uuid) : Option Uuid :=
  ((s.tasks.eraseP fun x => x.id = task).find? fun x => x.status = .queuing).map Task.id

def State.isRunning (s : State) (task : Uuid) : Bool :=
  (Rows.find Task.id task s.tasks).any fun x => x.status = .running

theorem nextQueuing_put {s t : State} {task : Task} (ht : t.tasks = Rows.put Task.id task s.tasks)
    (hstatus : task.status ≠ .queuing) : t.nextQueuing = s.nextBut task.id := by
  rw [State.nextQueuing, State.nextBut, ht, Rows.put, List.find?_append,
    List.find?_cons_of_neg (by simpa using hstatus), List.find?_nil, Option.or_none]

-- What the scheduler finds when it looks for the next sub-task.
def State.seen (s : State) : Operation → State
  | .message m =>
    match m.command with
    | .pause | .delete =>
      { s with subTasks := parked (s.rowsOf m.id) s.subTasks, tasksCount := s.tasksCount - 1 }
    | _ => s
  | .report x .completed =>
    match Rows.find SubTask.id x s.subTasks with
    | some row =>
      { s.putSubTask { row with status := .completed } with tasksCount := s.tasksCount - 1 }
    | none => s
  | .report _ .failed => { s with tasksCount := s.tasksCount - 1 }
  | _ => s

def State.target (s : State) : Operation → Option Uuid
  | .message m =>
    match m.command with
    | .start | .continue => some m.id
    | .pause | .delete => if s.isRunning m.id then s.nextBut m.id else none
  | .report x .completed =>
    (Rows.find SubTask.id x s.subTasks).bind fun row =>
      if ((s.seen (.report x .completed)).rowsOf row.parentId).all fun r => r.status = .completed then
        s.nextBut row.parentId
      else if s.isSchedulable row.parentId then some row.parentId
      else none
  | .report x .failed =>
    (Rows.find SubTask.id x s.subTasks).bind fun row => s.nextBut row.parentId
  | .scheduleNextTask => s.nextQueuing
  | .scheduleNextTaskById q => if s.isSchedulable q then some q else none
  | _ => none

def State.parks (s : State) : Operation → Option Uuid
  | .message m =>
    match m.command with
    | .pause => if s.isSchedulable m.id then some m.id else none
    | .delete => if s.isRunning m.id then some m.id else none
    | _ => none
  | _ => none

def Parkable (s : State) (env : Env) (p : Uuid) : Prop :=
  ∀ pre, pre <+: s.rowsOf p → (pre = s.rowsOf p ∨ CallFails env) →
    (waitingOf (parked pre s.subTasks)).Pairwise (Before s.submissions)

def State.touches (s : State) : Operation → Option Uuid
  | .runJob f => (Rows.find File.id f s.taskFiles).map File.relatedTaskBody
  | .runSubTask x => some x
  | _ => none

def State.suspended (s : State) (p : Uuid) (task : Task) (now : Int) : State :=
  { s with
    tasks := Rows.put Task.id { task with status := .suspended, updateTime := now } s.tasks
    subTasks := parked (s.rowsOf p) s.subTasks
    tasksCount := s.tasksCount - 1 }

structure Orderly (s : State) (turn : Turn) : Prop where
  target : ∀ q, s.target turn.operation = some q → Dispatchable (s.seen turn.operation) q
  parks : ∀ p, s.parks turn.operation = some p → Parkable s turn.env p
  touches : ∀ x, s.touches turn.operation = some x → x ∈ waitingOf s.subTasks → Last s x

section Steps

variable {s : State} {env : Env}

theorem scheduleNextTask_sound (hs : Sound s)
    (hq : ∀ q, s.nextQueuing = some q → Dispatchable s q) :
    Effect.wp (exec TaskScheduler.scheduleNextTask) env (fun _ => Sound) Sound s := by
  simp only [TaskScheduler.scheduleNextTask, op, exec_bind, exec_atom, Effect.wp_bind,
    Tasks.getNextQueuingId, Effect.wp_get, Effect.wp_pure]
  split
  · next q hnext => exact scheduleNextTaskById_sound hs (fun _ => hq q hnext) env
  · exact hs

theorem scheduleNext_of_mirrors {u t : State} (hu : Sound u)
    (hq : ∀ q, u.nextQueuing = some q → Dispatchable u q) (h : Mirrors u t) :
    Effect.wp (exec TaskScheduler.scheduleNextTask) env (fun _ => Sound) Sound t := by
  refine scheduleNextTask_sound (hu.alike h.toAlike) fun q hnext => ?_
  rw [State.nextQueuing, h.tasks] at hnext
  exact (hq q hnext).alike h.toAlike

theorem wp_updateTask {task : Task} (h : ∃ x ∈ s.tasks, x.id = task.id)
    {Q : Unit → State → Prop} {E : State → Prop}
    (hQ : Q () { s with tasks := Rows.put Task.id { task with updateTime := env.now } s.tasks }) :
    Effect.wp (exec (op (Tasks.update task))) env Q E s := by
  change Effect.wp (Tasks.update task) env Q E s
  have hany : (s.tasks.any fun x => x.id = task.id) = true := by simpa using h
  simp only [Tasks.update, Effect.wp_bind, Effect.wp_read, Effect.wp_get, Effect.wp_lift,
    Effect.wp_modify, Rows.replace, hany, if_true]
  exact ⟨fun tasks htasks => by cases htasks; exact hQ, fun hnone => absurd rfl (hnone _)⟩

theorem wp_releaseTasksCount {event : Event} {Q : Unit → State → Prop} {E : State → Prop}
    (hQ : 0 < s.tasksCount →
      Q () { s with tasksCount := s.tasksCount - 1, trace := s.trace ++ [event] }) (hE : E s) :
    Effect.wp (exec (TaskScheduler.releaseTasksCount event)) env Q E s := by
  simp only [TaskScheduler.releaseTasksCount, TaskScheduler.loadTasksCount,
    TaskScheduler.storeTasksCount, exec_bind, exec_atom, exec_done, Effect.wp_bind, Effect.wp_get,
    Effect.wp_pure, Effect.wp_lift, Effect.wp_modify]
  refine ⟨fun count hcount => ?_, fun _ => hE⟩
  rw [TaskScheduler.checkedSub] at hcount
  split at hcount
  · next hpos =>
    cases hcount
    exact hQ hpos
  · cases hcount

theorem continue_sound (hs : Sound s) {message : Dto.Task} (hcommand : message.command = .continue)
    (hd : Dispatchable s message.id) :
    Effect.wp (exec (KafkaMessageQueue.receive message)) env (fun _ => Sound) Sound s := by
  rw [KafkaMessageQueue.receive, hcommand]
  simp only [TaskScheduler.continueTask, op, exec_bind, exec_atom, Effect.wp_bind]
  refine Effect.wp_mono wp_getTask ?_ fun t ht => ht ▸ hs
  rintro task t ⟨rfl, -, x, hx, hid, -⟩
  refine Effect.wp_mono (updateTask_alike t _ env t (.refl t)) ?_ fun u hu => hs.alike hu
  rintro - u ⟨hu, -⟩
  refine Effect.wp_mono (preserves_saveChanged (quiet_alike t) env u hu) ?_ fun v hv => hs.alike hv
  rintro - v ⟨hv, -⟩
  have hreport : Preserves (Alike t) (TaskReport.reportResumedTask message.id) fun _ => True :=
    preserves_call (quiet_alike t) _ (by simp [Event.isMark])
  refine Effect.wp_mono (hreport env v hv) ?_ fun w hw => hs.alike hw
  rintro - w ⟨hw, -⟩
  have hxid : x.id = message.id := by simpa using List.find?_some hx
  rw [hid, hxid]
  exact scheduleNextTaskById_sound (hs.alike hw) (fun _ => hd.alike hw) env

theorem Sound.like_parked {t : State} (hs : Sound s) {p : Uuid} {pre : List SubTask}
    (hpre : pre <+: s.rowsOf p) (h : Like s (parked pre s.subTasks) t)
    (horder : (waitingOf (parked pre s.subTasks)).Pairwise (Before s.submissions)) :
    Sound t := by
  have hsub : pre.Sublist s.subTasks := hpre.sublist.trans List.filter_sublist
  have hrow {r : SubTask} (hr : r ∈ t.subTasks) : r ∈ s.subTasks ∨
      ∃ x ∈ s.subTasks, r = x.suspend := by
    rw [h.subTasks, parked, List.mem_append] at hr
    obtain hr | hr := hr
    · exact .inl (List.mem_of_mem_filter hr)
    · obtain ⟨x, hx, rfl⟩ := List.mem_map.mp hr
      exact .inr ⟨x, hsub.subset (List.mem_of_mem_filter hx), rfl⟩
  refine hs.kept
    { nextId := h.nextId
      rows := fun r hr => ?_
      nodup := h.subTasks ▸ nodup_parked hs.nodup (hs.nodup.sublist (hsub.map _))
      known := fun r hr => ?_
      submissions := h.submissions
      starts := h.starts } (h.subTasks ▸ horder)
  · obtain hr | ⟨x, hx, rfl⟩ := hrow hr
    · exact ⟨r, hr, rfl, rfl⟩
    · exact ⟨x, hx, rfl, rfl⟩
  · obtain hr | ⟨x, hx, rfl⟩ := hrow hr
    · exact hs.known r hr
    · exact ⟨by simp [SubTask.suspend], by simp [SubTask.suspend]⟩

theorem wp_pauseBody (hs : Sound s) {p : Uuid} (hpark : Parkable s env p) {body : List SubTask}
    (hbody : body = s.rowsOf p) :
    Effect.wp (exec (TaskScheduler.pauseSubTasks body)) env
      (fun _ t => Like s (parked (s.rowsOf p) s.subTasks) t ∧ Sound t) Sound s := by
  subst hbody
  refine Effect.wp_mono (wp_pauseSubTasks hs.nodup List.filter_sublist) (fun _ t ht => ?_)
    fun t ht => ?_
  · exact ⟨ht.toLike,
      hs.like_parked (List.prefix_refl _) ht.toLike (hpark _ (List.prefix_refl _) (.inl rfl))⟩
  · obtain ⟨hblocked, pre, hpre, ht⟩ := ht
    exact hs.like_parked hpre ht (hpark pre hpre (.inr hblocked.callFails))

theorem pauseQueuing_sound (hs : Sound s) {p : Uuid} (hpark : Parkable s env p) {task : Task}
    (hbody : task.body = s.rowsOf p) :
    Effect.wp (exec (do
      TaskScheduler.pauseSubTasks task.body
      op (Tasks.update { task with status := .suspended })
      TaskReport.reportPausedTask p
      op saveChanged : Op Unit)) env (fun _ => Sound) Sound s := by
  rw [exec_bind, Effect.wp_bind]
  refine Effect.wp_mono (wp_pauseBody hs hpark hbody) ?_ fun _ h => h
  rintro - t ⟨-, ht⟩
  have hreport : Preserves (Alike t) (TaskReport.reportPausedTask p) fun _ => True :=
    preserves_call (quiet_alike t) _ (by simp [Event.isMark])
  have hrest := (updateTask_alike t { task with status := .suspended }).bind fun _ _ =>
    hreport.bind fun _ _ => preserves_saveChanged (quiet_alike t)
  exact Effect.wp_mono (hrest env t (.refl t)) (fun _ _ h => ht.alike h.1) fun _ h => ht.alike h

theorem suspendRunning_sound (hs : Sound s) {p : Uuid} (hpark : Parkable s env p) {task : Task}
    (hbody : task.body = s.rowsOf p) (htask : ∃ x ∈ s.tasks, x.id = task.id) {event : Event}
    (hevent : event.isMark = false) {k : Op Unit}
    (hk : ∀ t, Mirrors (s.suspended p task env.now) t → Sound (s.suspended p task env.now) →
      Effect.wp (exec k) env (fun _ => Sound) Sound t) :
    Effect.wp (exec (do
      TaskScheduler.releaseTasksCount event
      TaskScheduler.pauseSubTasks task.body
      op (Tasks.update { task with status := .suspended })
      op saveChanged
      k : Op Unit)) env (fun _ => Sound) Sound s := by
  rw [exec_bind, Effect.wp_bind]
  refine wp_releaseTasksCount (fun _ => ?_) hs
  let u : State := { s with tasksCount := s.tasksCount - 1, trace := s.trace ++ [event] }
  obtain ⟨hsubs, hstarts⟩ := trace_append (s := s) (t := u) rfl
    (starts_append_quiet (by simpa using hevent))
  have hu : Sound u := hs.congr rfl rfl hsubs hstarts
  have hpark' : Parkable u env p := by
    rw [Parkable, hsubs]
    exact hpark
  change Effect.wp (exec _) env _ _ u
  rw [exec_bind, Effect.wp_bind]
  refine Effect.wp_mono (wp_pauseBody hu hpark' hbody) ?_ fun _ h => h
  rintro - t ⟨hlike, ht⟩
  rw [exec_bind, Effect.wp_bind]
  refine wp_updateTask (by rw [hlike.tasks]; exact htask) ?_
  rw [exec_bind, Effect.wp_bind]
  have hmirrors : Mirrors (s.suspended p task env.now) { t with
      tasks := Rows.put Task.id { task with status := .suspended, updateTime := env.now } t.tasks } :=
    { subTasks := hlike.subTasks
      nextId := hlike.nextId
      submissions := hlike.submissions.trans hsubs
      starts := hlike.starts.trans hstarts
      tasksCount := hlike.tasksCount
      maxTasksCount := hlike.maxTasksCount
      tasks := congrArg (Rows.put Task.id _) hlike.tasks }
  have hsound : Sound (s.suspended p task env.now) := ht.congr hlike.subTasks.symm
    hlike.nextId.symm (hlike.submissions.trans hsubs).symm (hlike.starts.trans hstarts).symm
  exact Effect.wp_mono (preserves_saveChanged (quiet_mirrors _) env _ hmirrors)
    (fun _ v hv => hk v hv.1 hsound) fun v hv => hsound.alike hv.toAlike

theorem isRunning_of_status {p : Uuid} {x task : Task} (hx : Rows.find Task.id p s.tasks = some x)
    (hstatus : task.status = x.status) (h : task.status = .running) : s.isRunning p = true := by
  rw [State.isRunning, hx, Option.any_some, ← hstatus, h]
  rfl

theorem isSchedulable_of_status {p : Uuid} {x task : Task}
    (hx : Rows.find Task.id p s.tasks = some x) (hstatus : task.status = x.status)
    (h : task.status = .queuing ∨ task.status = .running) : s.isSchedulable p = true := by
  rw [State.isSchedulable, hx, Option.any_some, ← hstatus]
  simpa using h

theorem scheduleNext_suspended {p : Uuid} {task : Task} {t : State} (hid : task.id = p)
    (hw : Sound (s.suspended p task env.now))
    (hq : ∀ q, s.nextBut p = some q → Dispatchable
      { s with subTasks := parked (s.rowsOf p) s.subTasks, tasksCount := s.tasksCount - 1 } q)
    (h : Mirrors (s.suspended p task env.now) t) :
    Effect.wp (exec TaskScheduler.scheduleNextTask) env (fun _ => Sound) Sound t := by
  refine scheduleNext_of_mirrors hw (fun q hnext => ?_) h
  let parkedTask : Task := { task with status := .suspended, updateTime := env.now }
  have hput : (s.suspended p task env.now).nextQueuing = s.nextBut parkedTask.id :=
    nextQueuing_put rfl (by simp [parkedTask])
  rw [hput, show parkedTask.id = p from hid] at hnext
  exact (hq q hnext).alike ⟨rfl, rfl, rfl, rfl, rfl, rfl⟩

theorem pause_sound (hs : Sound s) {message : Dto.Task} (hcommand : message.command = .pause)
    (h : Orderly s ⟨env, .message message⟩) :
    Effect.wp (exec (KafkaMessageQueue.receive message)) env (fun _ => Sound) Sound s := by
  obtain ⟨htarget, hparks, -⟩ := h
  simp only [State.target, State.parks, State.seen, hcommand] at htarget hparks
  rw [KafkaMessageQueue.receive, hcommand]
  simp only
  rw [TaskScheduler.pauseTask, exec_bind, Effect.wp_bind]
  refine Effect.wp_mono wp_getTask ?_ fun t ht => ht ▸ hs
  rintro task t ⟨rfl, hbody, x, hx, hid, hstatus⟩
  have hxid : x.id = message.id := by simpa using List.find?_some hx
  split
  · next hqueuing =>
    have hsched := isSchedulable_of_status hx hstatus (.inl hqueuing)
    exact pauseQueuing_sound hs (hparks message.id (by rw [hsched]; rfl)) hbody
  · next hrunning =>
    have hrun := isRunning_of_status hx hstatus hrunning
    have hsched := isSchedulable_of_status hx hstatus (.inr hrunning)
    refine suspendRunning_sound hs (hparks message.id (by rw [hsched]; rfl)) hbody
      ⟨x, List.mem_of_find?_eq_some hx, hid.symm⟩ rfl fun u hu hw => ?_
    rw [exec_bind, Effect.wp_bind]
    have hreport : Preserves (Mirrors (t.suspended message.id task env.now))
        (TaskReport.reportPausedTask message.id) fun _ => True :=
      preserves_call (quiet_mirrors _) _ (by simp [Event.isMark])
    refine Effect.wp_mono (hreport env u hu) (fun _ v hv => ?_) fun v hv => hw.alike hv.toAlike
    refine scheduleNext_suspended (hid.trans hxid) hw (fun q hq => htarget q ?_) hv.1
    rw [hrun]
    exact hq
  · exact hs

def State.freed (s : State) (p : Uuid) : State :=
  { s with subTasks := parked (s.rowsOf p) s.subTasks, tasksCount := s.tasksCount - 1 }

theorem suspendTask_sound (hs : Sound s) {p : Uuid} {task x : Task}
    (hx : Rows.find Task.id p s.tasks = some x) (hid : task.id = x.id)
    (hstatus : task.status = x.status) (hbody : task.body = s.rowsOf p)
    (h : s.isRunning p = true → Parkable s env p ∧
      ∀ q, s.nextBut p = some q → Dispatchable (s.freed p) q) :
    Effect.wp (exec (TaskScheduler.suspendRunning task)) env (fun _ => Sound) Sound s := by
  have hxid : x.id = p := by simpa using List.find?_some hx
  unfold TaskScheduler.suspendRunning Prog.when
  split
  · next hrunning =>
    obtain ⟨hpark, hq⟩ := h (isRunning_of_status hx hstatus hrunning)
    exact suspendRunning_sound hs hpark hbody ⟨x, List.mem_of_find?_eq_some hx, hid.symm⟩ rfl
      fun t ht hw => scheduleNext_suspended (hid.trans hxid) hw hq ht
  · exact hs

theorem deleteTaskRow_ordered (s : State) (p : Uuid) :
    Preserves (Ordered s) (op (Tasks.deleteById p)) fun _ => True := by
  refine preserves_atom fun env t ht => ?_
  simp only [Tasks.deleteById, Effect.wp_bind, Effect.wp_get, Effect.wp_lift, Effect.wp_modify]
  exact ⟨fun _ _ => ⟨{ ht with }, trivial⟩, fun _ => ht⟩

theorem dropTask_ordered (s : State) (p : Uuid) (body : List SubTask) (isInternal : Bool) :
    Preserves (Ordered s) (do
      TaskScheduler.deleteSubTasks body
      op (Tasks.deleteById p)
      Prog.when (isInternal = false) (TaskReport.reportDeletedTask p)
      op saveChanged : Op Unit) fun _ => True := by
  have hreport : Preserves (Ordered s)
      (Prog.when (isInternal = false) (TaskReport.reportDeletedTask p)) fun _ => True :=
    Preserves.when fun _ => preserves_call (quiet_ordered s) _ (by simp [Event.isMark])
  exact (preserves_deleteSubTasks (quiet_ordered s) fun _ _ => erasable_ordered s _).bind
    fun _ _ => (deleteTaskRow_ordered s p).bind fun _ _ => hreport.bind fun _ _ =>
      preserves_saveChanged (quiet_ordered s)

theorem deleteTask_sound (hs : Sound s) {p : Uuid} (isInternal : Bool)
    (h : s.isRunning p = true → Parkable s env p ∧
      ∀ q, s.nextBut p = some q → Dispatchable (s.freed p) q) :
    Effect.wp (exec (TaskScheduler.deleteTask p isInternal)) env (fun _ => Sound) Sound s := by
  rw [TaskScheduler.deleteTask, exec_bind, Effect.wp_bind]
  refine Effect.wp_mono wp_getTask ?_ fun t ht => ht ▸ hs
  rintro task t ⟨rfl, hbody, x, hx, hid, hstatus⟩
  rw [exec_bind, Effect.wp_bind]
  refine Effect.wp_mono (suspendTask_sound hs hx hid hstatus hbody h) ?_ fun _ h => h
  rintro - u hu
  exact Effect.wp_mono (dropTask_ordered u p task.body isInternal env u hu.refl)
    (fun _ _ h => hu.ordered h.1) fun _ h => hu.ordered h

theorem delete_sound (hs : Sound s) {message : Dto.Task} (hcommand : message.command = .delete)
    (h : Orderly s ⟨env, .message message⟩) :
    Effect.wp (exec (KafkaMessageQueue.receive message)) env (fun _ => Sound) Sound s := by
  obtain ⟨htarget, hparks, -⟩ := h
  simp only [State.target, State.parks, State.seen, hcommand] at htarget hparks
  rw [KafkaMessageQueue.receive, hcommand]
  refine deleteTask_sound hs false fun hrun => ?_
  rw [hrun, if_pos rfl] at htarget hparks
  exact ⟨hparks message.id rfl, htarget⟩

end Steps

end Kuintessence.Agent

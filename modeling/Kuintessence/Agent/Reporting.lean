import Kuintessence.Agent.Sequencing
import Kuintessence.Agent.TaskRows

namespace Kuintessence.Agent

open Prog

section Reports

variable {s : State} {env : Env}

theorem wp_save {t : State} (h : Mirrors s t) {Q : Unit → State → Prop} {E : State → Prop}
    (hQ : ∀ u, Mirrors s u → Q () u) (hE : ∀ u, Mirrors s u → E u) :
    Effect.wp (exec (op saveChanged)) env Q E t :=
  Effect.wp_mono (preserves_saveChanged (quiet_mirrors s) env t h) (fun _ u hu => hQ u hu.1) hE

theorem Mirrors.refl (s : State) : Mirrors s s := { Alike.refl s with tasks := rfl }

theorem finishTask_sound (hs : Sound s) {p : Uuid} {task x : Task}
    (hx : Rows.find Task.id p s.tasks = some x) (hid : task.id = x.id) (status : TaskStatus)
    (hstatus : status ≠ .queuing) (hq : ∀ q, s.nextBut p = some q → Dispatchable s q)
    {report : Op Unit} (hreport : ∀ u, Preserves (Mirrors u) report fun _ => True) :
    Effect.wp (exec (do
      op (Tasks.update { task with status := status })
      op saveChanged
      report
      TaskScheduler.scheduleNextTask : Op Unit)) env (fun _ => Sound) Sound s := by
  have hxid : x.id = p := by simpa using List.find?_some hx
  rw [exec_bind, Effect.wp_bind]
  have hmem : ∃ y ∈ s.tasks, y.id = ({ task with status := status } : Task).id :=
    ⟨x, List.mem_of_find?_eq_some hx, hid.symm⟩
  refine wp_updateTask hmem ?_
  let row : Task := { task with status := status, updateTime := env.now }
  let u : State := { s with tasks := Rows.put Task.id row s.tasks }
  have hu : Sound u := hs.congr rfl rfl rfl rfl
  have hnext : u.nextQueuing = s.nextBut row.id := nextQueuing_put rfl hstatus
  rw [show row.id = p from hid.trans hxid] at hnext
  rw [exec_bind, Effect.wp_bind]
  refine wp_save (s := u) (.refl u) (fun v hv => ?_) fun v hv => hu.alike hv.toAlike
  rw [exec_bind, Effect.wp_bind]
  refine Effect.wp_mono (hreport u env v hv) (fun _ w hw => ?_) fun w hw => hu.alike hw.toAlike
  refine scheduleNext_of_mirrors hu (fun q hqueue => ?_) hw.1
  exact (hq q (hnext ▸ hqueue)).alike ⟨rfl, rfl, rfl, rfl, rfl, rfl⟩

theorem reportCompleted_mirrors (s : State) (p : Uuid) :
    Preserves (Mirrors s) (TaskReport.reportCompletedTask p) fun _ => True :=
  (preserves_getTask p).bind fun _ _ =>
    preserves_call (quiet_mirrors s) _ (by simp [Event.isMark])

theorem reportFailed_mirrors (s : State) (p : Uuid) (reason : String) :
    Preserves (Mirrors s) (TaskReport.reportFailedTask p reason) fun _ => True :=
  preserves_call (quiet_mirrors s) _ (by simp [Event.isMark])

theorem wp_release {t : State} (h : Mirrors s t) {event : Event} (hevent : event.isMark = false)
    {Q : Unit → State → Prop} {E : State → Prop}
    (hQ : ∀ u, Mirrors { s with tasksCount := s.tasksCount - 1 } u → Q () u) (hE : E t) :
    Effect.wp (exec (TaskScheduler.releaseTasksCount event)) env Q E t := by
  refine wp_releaseTasksCount (fun _ => hQ _ ?_) hE
  obtain ⟨hsubs, hstarts⟩ := trace_append (s := t)
    (t := { t with tasksCount := t.tasksCount - 1, trace := t.trace ++ [event] }) rfl
    (starts_append_quiet (by simpa using hevent))
  exact
    { subTasks := h.subTasks
      nextId := h.nextId
      submissions := hsubs.trans h.submissions
      starts := hstarts.trans h.starts
      tasksCount := congrArg (· - 1) h.tasksCount
      maxTasksCount := h.maxTasksCount
      tasks := h.tasks }

def SubTask.complete (row : SubTask) : SubTask := { row with status := .completed }

theorem wp_getRow {x : Uuid} {Q : SubTask → State → Prop} {E : State → Prop}
    (hQ : ∀ row, Rows.find SubTask.id x s.subTasks = some row → Q row s)
    (hE : Rows.find SubTask.id x s.subTasks = none → E s) :
    Effect.wp (exec (op (SubTasks.getById x))) env Q E s := by
  change Effect.wp (SubTasks.getById x) env Q E s
  simp only [SubTasks.getById, Effect.wp_bind, Effect.wp_get, Effect.wp_lift]
  cases hx : Rows.find SubTask.id x s.subTasks with
  | none => exact ⟨fun _ h => (by cases h), fun _ => hE hx⟩
  | some row => exact ⟨fun y hy => by cases hy; exact hQ row hx, fun h => absurd rfl (h row)⟩

theorem wp_updateRow {row : SubTask} (h : ∃ x ∈ s.subTasks, x.id = row.id)
    {Q : Unit → State → Prop} {E : State → Prop} (hQ : Q () (s.putSubTask row)) :
    Effect.wp (exec (op (SubTasks.update row))) env Q E s := by
  change Effect.wp (SubTasks.update row) env Q E s
  have hany : (s.subTasks.any fun y => y.id = row.id) = true := by simpa using h
  simp only [SubTasks.update, Effect.wp_bind, Effect.wp_get, Effect.wp_lift, Effect.wp_modify,
    Rows.replace, hany, if_true]
  exact ⟨fun rows hrows => by cases hrows; exact hQ, fun hnone => absurd rfl (hnone _)⟩

theorem Sound.completed (hs : Sound s) {row : SubTask} (hmem : row ∈ s.subTasks) :
    Sound (s.putSubTask row.complete) :=
  hs.ordered (hs.refl.write ⟨row, hmem, rfl, rfl⟩ ⟨by simp [SubTask.complete], by
    simp [SubTask.complete]⟩ fun hw => by simp [SubTask.complete, SubTask.isWaiting] at hw)

theorem complete_sound (hs : Sound s) {x : Uuid} (h : Orderly s ⟨env, .report x .completed⟩) :
    Effect.wp (exec (TaskScheduler.completeSubTask x)) env (fun _ => Sound) Sound s := by
  have htarget := h.target
  rw [TaskScheduler.completeSubTask, exec_bind, Effect.wp_bind]
  refine wp_getRow (fun row hrow => ?_) fun _ => hs
  have hmem := List.mem_of_find?_eq_some hrow
  have hput := hs.completed hmem
  rw [exec_bind, Effect.wp_bind]
  have hid : ∃ y ∈ s.subTasks, y.id = ({ row with status := .completed } : SubTask).id :=
    ⟨row, hmem, rfl⟩
  refine wp_updateRow hid ?_
  rw [exec_bind, Effect.wp_bind]
  refine wp_save (.refl (s.putSubTask row.complete)) (fun t ht => ?_) fun t ht =>
    hput.alike ht.toAlike
  rw [exec_bind, Effect.wp_bind]
  refine wp_release ht rfl (fun u hu => ?_) (hput.alike ht.toAlike)
  let seen : State := { s.putSubTask row.complete with tasksCount := s.tasksCount - 1 }
  have hseen : s.seen (.report x .completed) = seen := by
    rw [State.seen, hrow]
    rfl
  have hsound : Sound seen := hput.congr rfl rfl rfl rfl
  have hlater : Sound u := hsound.alike hu.toAlike
  rw [hseen] at htarget
  rw [exec_bind, Effect.wp_bind]
  refine Effect.wp_mono wp_getTask ?_ fun v hv => hv ▸ hlater
  rintro task u ⟨rfl, hbody, y, hy, hid, -⟩
  have hrows : task.body = seen.rowsOf row.parentId := by
    rw [hbody, State.rowsOf, hu.subTasks]
    rfl
  simp only [State.target, hrow, Option.bind_some, hseen, ← hrows] at htarget
  split
  · next hall =>
    rw [if_pos hall] at htarget
    refine finishTask_sound hlater hy hid .completed (by simp) (fun q hq => ?_)
      fun v => reportCompleted_mirrors v _
    rw [State.nextBut, hu.tasks] at hq
    exact (htarget q hq).alike hu.toAlike
  · next hall =>
    rw [if_neg hall] at htarget
    refine scheduleNextTaskById_sound hlater (fun hsched => ?_) env
    have hsame : s.isSchedulable row.parentId = true := by
      rwa [State.isSchedulable, hu.tasks] at hsched
    rw [if_pos hsame] at htarget
    exact (htarget _ rfl).alike hu.toAlike

theorem fail_sound (hs : Sound s) {x : Uuid} (h : Orderly s ⟨env, .report x .failed⟩) :
    Effect.wp (exec (TaskScheduler.failSubTask x)) env (fun _ => Sound) Sound s := by
  have htarget := h.target
  let u : State := { s with tasksCount := s.tasksCount - 1 }
  have hu : Sound u := hs.congr rfl rfl rfl rfl
  rw [TaskScheduler.failSubTask, exec_bind, Effect.wp_bind]
  refine wp_release (.refl s) rfl (fun t ht => ?_) hs
  have hsound := hu.alike ht.toAlike
  rw [exec_bind, Effect.wp_bind]
  refine wp_getRow (fun row hrow => ?_) fun _ => hsound
  rw [ht.subTasks] at hrow
  rw [exec_bind, Effect.wp_bind]
  refine Effect.wp_mono wp_getTask ?_ fun v hv => hv ▸ hsound
  rintro task t ⟨rfl, -, y, hy, hid, -⟩
  refine finishTask_sound hsound hy hid .failed (by simp) (fun q hq => ?_)
    fun v => reportFailed_mirrors v _ _
  have hnext : s.nextBut row.parentId = some q := by rwa [State.nextBut, ← ht.tasks]
  exact (htarget q (by simpa [State.target, hrow] using hnext)).alike ht.toAlike

def Shrunk (s t : State) : Prop := Ordered s t ∧ t.tasks.Sublist s.tasks

theorem quiet_shrunk (s : State) : Quiet (Shrunk s) where
  files := fun t files h => ⟨(quiet_ordered s).files t files h.1, h.2⟩
  calls := fun t n es h hes => ⟨(quiet_ordered s).calls t n es h.1 hes, h.2⟩

theorem deleteTaskRow_shrunk (s : State) (p : Uuid) :
    Preserves (Shrunk s) (op (Tasks.deleteById p)) fun _ => True := by
  refine preserves_atom fun env t ht => ?_
  simp only [Tasks.deleteById, Effect.wp_bind, Effect.wp_get, Effect.wp_lift, Effect.wp_modify]
  refine ⟨fun tasks htasks => ⟨⟨{ ht.1 with }, ?_⟩, trivial⟩, fun _ => ht⟩
  rw [Outcome.okOr_ok_iff, Rows.remove, Option.ite_none_right_eq_some] at htasks
  obtain ⟨-, heq⟩ := htasks
  cases heq
  exact List.eraseP_sublist.trans ht.2

theorem getTask_shrunk (s : State) (p : Uuid) :
    Preserves (Shrunk s) (op (Tasks.getById p)) fun task =>
      ∃ x ∈ s.tasks, x.id = p ∧ task.status = x.status := by
  intro env t ht
  refine Effect.wp_mono wp_getTask ?_ fun u hu => hu ▸ ht
  rintro task u ⟨rfl, -, x, hx, hid, hstatus⟩
  exact ⟨ht, x, ht.2.subset (List.mem_of_find?_eq_some hx), by simpa using List.find?_some hx,
    hstatus⟩

theorem deleteTask_shrunk {s : State} {p : Uuid} (isInternal : Bool)
    (h : ∀ x ∈ s.tasks, x.id = p → x.status ≠ .running) :
    Preserves (Shrunk s) (TaskScheduler.deleteTask p isInternal) fun _ => True := by
  refine (getTask_shrunk s p).bind fun task htask => ?_
  obtain ⟨x, hx, hid, hstatus⟩ := htask
  have hsuspend : Preserves (Shrunk s) (TaskScheduler.suspendRunning task) fun _ => True :=
    Preserves.when fun hrunning => absurd (hstatus ▸ hrunning) (h x hx hid)
  have hreport : Preserves (Shrunk s)
      (Prog.when (isInternal = false) (TaskReport.reportDeletedTask p)) fun _ => True :=
    Preserves.when fun _ => preserves_call (quiet_shrunk s) _ (by simp [Event.isMark])
  have herase (id : Uuid) : Erasable (Shrunk s) id := fun t ht =>
    ⟨erasable_ordered s id t ht.1, ht.2⟩
  exact hsuspend.bind fun _ _ =>
    (preserves_deleteSubTasks (quiet_shrunk s) fun _ _ => herase _).bind fun _ _ =>
      (deleteTaskRow_shrunk s p).bind fun _ _ => hreport.bind fun _ _ =>
        preserves_saveChanged (quiet_shrunk s)

theorem deleteAllCompleted_sound (hs : Sound s) (hkeyed : s.Keyed) :
    Effect.wp (exec TaskScheduler.deleteAllCompletedTasks) env (fun _ => Sound) Sound s := by
  rw [TaskScheduler.deleteAllCompletedTasks, exec_bind, Effect.wp_bind]
  change Effect.wp (exec (op (do let env ← .read; pure env.now) >>= fun now => Prog.each
    (fun task => Prog.when (task.status = .completed ∧ task.updateTime > now - 2 * 60 * 60)
      (TaskScheduler.deleteTask task.id true)) s.tasks)) env _ _ s
  have hall : Preserves (Shrunk s) (op (do let env ← .read; pure env.now) >>= fun now => Prog.each
      (fun task => Prog.when (task.status = .completed ∧ task.updateTime > now - 2 * 60 * 60)
        (TaskScheduler.deleteTask task.id true)) s.tasks) fun _ => True := by
    refine (preserves_env _).bind fun now _ => Preserves.each fun task htask =>
      Preserves.when fun hdone => deleteTask_shrunk true fun x hx hid => ?_
    rw [Rows.eq_of_key hkeyed hx htask hid, hdone.1]
    simp
  exact Effect.wp_mono (hall env s ⟨hs.refl, List.Sublist.refl _⟩)
    (fun _ _ h => hs.ordered h.1.1) fun _ h => hs.ordered h.1

theorem runJob_sound (hs : Sound s) {f : Uuid} (h : Orderly s ⟨env, .runJob f⟩) :
    Effect.wp (exec (RunJob.runJob f)) env (fun _ => Sound) Sound s := by
  have htouch := h.touches
  rw [RunJob.runJob, exec_bind, Effect.wp_bind]
  change Effect.wp (TaskFiles.getById f) env _ _ s
  simp only [TaskFiles.getById, Effect.wp_bind, Effect.wp_get, Effect.wp_lift]
  refine ⟨fun file hfile => ?_, fun _ => hs⟩
  rw [Outcome.okOr_ok_iff] at hfile
  have hlast := htouch file.relatedTaskBody (by simp [State.touches, hfile])
  have hfile : Preserves (Ordered s) (updateTaskFileStatus f .both) fun _ => True :=
    preserves_updateTaskFileStatus (quiet_ordered s) .both
  have hrest := hfile.bind fun _ _ => (preserves_saveChanged (quiet_ordered s)).bind fun _ _ =>
    internalRunJob_ordered s hlast
  exact Effect.wp_mono (hrest env s hs.refl) (fun _ _ h => hs.ordered h.1) fun _ h => hs.ordered h

theorem Orderly.dispatchable {message : Dto.Task} (h : Orderly s ⟨env, .message message⟩)
    (hcommand : message.command = .start ∨ message.command = .continue) :
    Dispatchable s message.id := by
  have htarget := h.target message.id
  obtain hcommand | hcommand := hcommand
  all_goals
    simp only [State.target, State.seen, hcommand] at htarget
    exact htarget trivial

theorem serve_sound (hs : Sound s) (hkeyed : s.Keyed) {operation : Operation}
    (h : Orderly s ⟨env, operation⟩) :
    Effect.wp (exec operation.serve) env (fun _ => Sound) Sound s := by
  have hordered {p : Op Unit} (hp : Preserves (Ordered s) p fun _ => True) :
      Effect.wp (exec p) env (fun _ => Sound) Sound s :=
    Effect.wp_mono (hp env s hs.refl) (fun _ _ h => hs.ordered h.1) fun _ h => hs.ordered h
  cases operation with
  | message message =>
    cases hcommand : message.command with
    | start => exact start_sound hs hcommand (h.dispatchable (.inl hcommand)) env
    | pause => exact pause_sound hs hcommand h
    | «continue» => exact continue_sound hs hcommand (h.dispatchable (.inr hcommand))
    | delete => exact delete_sound hs hcommand h
  | report x status =>
    cases status with
    | completed => exact complete_sound hs h
    | failed => exact fail_sound hs h
  | scheduleNextTask => exact scheduleNextTask_sound hs h.target
  | scheduleNextTaskById q =>
    refine scheduleNextTaskById_sound hs (fun hsched => h.target q ?_) env
    rw [State.target, if_pos hsched]
  | deleteAllCompletedTasks => exact deleteAllCompleted_sound hs hkeyed
  | refreshAllStatus => exact hordered (refreshAllStatus_ordered s)
  | runJob f => exact runJob_sound hs h
  | completeJob f => exact hordered (RunJob.preserves_completeJob (quiet_ordered s))
  | failJob x reason => exact hordered (failJob_ordered s x reason)
  | runSubTask x => exact hordered (runSubTask_ordered s (h.touches x rfl))
  | completeDeployment x => exact hordered (completeDeployment_ordered s x)
  | failDeployment x => exact hordered (failDeployment_ordered s x)

theorem sound_initial (maxTasksCount : Nat) : Sound (State.initial maxTasksCount) := by
  refine ⟨List.nodup_nil, ?_, ?_, ?_, ?_, List.Pairwise.nil, ?_, ?_⟩
  all_goals exact fun _ h => nomatch h

theorem started_in_order {maxTasksCount : Nat} {turns : List Turn}
    (h : Along step Orderly (State.initial maxTasksCount) turns) :
    let s := run step (State.initial maxTasksCount) turns
    ∀ p ∈ s.starts, AfterAll s.submissions p := by
  have hsound := run_invariant (I := fun s => Sound s ∧ s.Keyed) (fun s turn hs hok =>
    ⟨Effect.wp_final.mp (serve_sound hs.1 hs.2 hok), step_keyed hs.2 turn⟩)
    ⟨sound_initial maxTasksCount, List.nodup_nil⟩ h
  exact hsound.1.started

theorem orderly_of_target {turn : Turn} (hparks : s.parks turn.operation = none)
    (htouches : s.touches turn.operation = none)
    (h : ∀ q ∈ s.target turn.operation, Dispatchable (s.seen turn.operation) q) :
    Orderly s turn where
  target := h
  parks := fun p hp => by rw [hparks] at hp; cases hp
  touches := fun x hx => by rw [htouches] at hx; cases hx

end Reports

theorem started_in_order_sample :
    let s := run step (State.initial 0) (sampleRun.map (Turn.mk sampleEnv))
    ∀ p ∈ s.starts, AfterAll s.submissions p := by
  refine started_in_order ⟨?_, ?_, ?_, ?_, ?_, ?_, trivial⟩
  all_goals exact orderly_of_target (by decide +kernel) (by decide +kernel) (by decide +kernel)

theorem resumed_out_of_order :
    ¬∀ turns : List Turn, let s := run step (State.initial 0) turns
      ∀ p ∈ s.starts, AfterAll s.submissions p := by
  intro h
  have hrun := h ([.message ⟨7, sampleBody, .start⟩, .message ⟨7, [], .pause⟩,
    .message ⟨7, [], .continue⟩].map (Turn.mk sampleEnv))
  revert hrun
  decide +kernel

end Kuintessence.Agent

import Kuintessence.Agent.Reporting

namespace Kuintessence.Agent

open Prog

def Task.isOver (task : Task) : Bool := task.status = .completed ∨ task.status = .failed

def State.Over (s : State) (q : Uuid) : Prop := ∃ x ∈ s.tasks, x.id = q ∧ x.isOver = true

def State.Settled (s : State) (i : Uuid) : Prop :=
  i < s.nextId ∧ ∀ r ∈ s.subTasks, r.id = i → r.status = .completed

structure State.Distinct (s : State) : Prop where
  keyed : s.Keyed
  nodup : (s.subTasks.map SubTask.id).Nodup
  fresh : ∀ r ∈ s.subTasks, r.id < s.nextId

-- What must not happen after `s`: a settled sub-task or one of a task that is over starts, or
-- such a task is scheduled.
def Event.Disturbs (s : State) : Event → Prop
  | .started x rows => s.Settled x ∨ ∃ r ∈ rows, r.id = x ∧ s.Over r.parentId
  | .reported .start q _ _ => s.Over q
  | _ => False

structure Lasting (s t : State) : Prop where
  distinct : t.Distinct
  nextId : s.nextId ≤ t.nextId
  old : ∀ r ∈ t.subTasks, r.id < s.nextId → ∃ x ∈ s.subTasks, x.id = r.id
  rows : ∀ i, s.Settled i → ∀ r ∈ t.subTasks, r.id = i → r.status = .completed
  tasks : ∀ q, s.Over q → ∀ y ∈ t.tasks, y.id = q → y.isOver = true
  history : ∃ es, t.trace = s.trace ++ es ∧ ∀ e ∈ es, ¬e.Disturbs s

theorem Lasting.refl {s : State} (hs : s.Distinct) : Lasting s s where
  distinct := hs
  nextId := Nat.le_refl _
  old := fun r hr _ => ⟨r, hr, rfl⟩
  rows := fun _ hi => hi.2
  tasks := by
    rintro q ⟨x, hx, rfl, hover⟩ y hy hid
    rwa [Rows.eq_of_key hs.keyed hy hx hid]
  history := ⟨[], by simp, by simp⟩

section Frame

variable {s t : State}

theorem not_disturbs_of_quiet {e : Event} (h : e.isMark = false) : ¬e.Disturbs s := by
  cases e with
  | reported result =>
    cases result with
    | start => cases h
    | _ => exact id
  | started => cases h
  | _ => exact id

theorem Lasting.append (h : Lasting s t) {es : List Event} (hes : ∀ e ∈ es, ¬e.Disturbs s) :
    ∃ es', t.trace ++ es = s.trace ++ es' ∧ ∀ e ∈ es', ¬e.Disturbs s := by
  obtain ⟨fs, htrace, hfs⟩ := h.history
  refine ⟨fs ++ es, by rw [htrace, List.append_assoc], fun e he => ?_⟩
  obtain he | he := List.mem_append.mp he
  · exact hfs e he
  · exact hes e he

theorem quiet_lasting (s : State) : Quiet (Lasting s) where
  files := fun _ _ h => { h with distinct := { h.distinct with } }
  calls := fun _ _ _ h hes =>
    { h with
      distinct := { h.distinct with }
      history := h.append fun e he => not_disturbs_of_quiet (hes e he) }

theorem rewrites_lasting {id : Uuid} {f : SubTask → SubTask} (hid : ∀ row, (f row).id = row.id)
    (h : s.Settled id → ∀ row, Reads (Lasting s) id row → (f row).status = .completed) :
    Rewrites (Lasting s) id f := by
  rintro row ⟨u, hu, hmem, rfl⟩ t ht ⟨y, hy, hyid⟩
  have hput {r : SubTask} (hr : r ∈ Rows.put SubTask.id (f row) t.subTasks) :
      r ∈ t.subTasks ∨ r = f row :=
    ((Rows.mem_put ht.distinct.nodup).mp hr).imp_left And.left
  have hfresh : (f row).id < t.nextId := hyid ▸ ht.distinct.fresh y hy
  exact
    { ht with
      distinct :=
        { ht.distinct with
          nodup := Rows.nodup_put ht.distinct.nodup _
          fresh := fun r hr => by
            obtain hr | rfl := hput hr
            · exact ht.distinct.fresh r hr
            · exact hfresh }
      old := fun r hr hlt => by
        obtain hr | rfl := hput hr
        · exact ht.old r hr hlt
        · obtain ⟨x, hx, hxid⟩ := ht.old y hy (hyid ▸ hlt)
          exact ⟨x, hx, hxid.trans hyid⟩
      rows := fun i hi r hr hri => by
        obtain hr | rfl := hput hr
        · exact ht.rows i hi r hr hri
        · rw [hid] at hri
          exact h (hri ▸ hi) row ⟨u, hu, hmem, rfl⟩ }

theorem rewrites_keeping_status {id : Uuid} {f : SubTask → SubTask}
    (hid : ∀ row, (f row).id = row.id) (hstatus : ∀ row, (f row).status = row.status) :
    Rewrites (Lasting s) id f := by
  refine rewrites_lasting hid fun hsettled row => ?_
  rintro ⟨u, hu, hmem, rfl⟩
  rw [hstatus]
  exact hu.rows _ hsettled row hmem rfl

-- A row that is not settled may be given any status.
theorem rewrites_unsettled {id : Uuid} {f : SubTask → SubTask} (hid : ∀ row, (f row).id = row.id)
    (h : ∀ r ∈ s.subTasks, r.id = id → r.status ≠ .completed) : Rewrites (Lasting s) id f := by
  refine rewrites_lasting hid fun hsettled row => ?_
  rintro ⟨u, hu, hmem, rfl⟩
  obtain ⟨x, hx, hxid⟩ := hu.old row hmem hsettled.1
  exact absurd (hsettled.2 x hx hxid) (h x hx hxid)

theorem erasable_lasting (s : State) (id : Uuid) : Erasable (Lasting s) id := by
  intro t ht
  have hsub : (t.dropSubTask id).subTasks.Sublist t.subTasks := List.eraseP_sublist
  exact
    { ht with
      distinct :=
        { ht.distinct with
          nodup := ht.distinct.nodup.sublist (hsub.map SubTask.id)
          fresh := fun r hr => ht.distinct.fresh r (hsub.subset hr) }
      old := fun r hr => ht.old r (hsub.subset hr)
      rows := fun i hi r hr => ht.rows i hi r (hsub.subset hr) }

theorem updateTask_lasting (task : Task) (h : s.Over task.id → task.isOver = true) :
    Preserves (Lasting s) (op (Tasks.update task)) fun _ => True := by
  refine preserves_atom fun env t ht => ?_
  simp only [Tasks.update, Effect.wp_bind, Effect.wp_read, Effect.wp_get, Effect.wp_lift,
    Effect.wp_modify]
  refine ⟨fun tasks htasks => ⟨?_, trivial⟩, fun _ => ht⟩
  rw [Outcome.okOr_ok_iff, Rows.replace, Option.ite_none_right_eq_some] at htasks
  obtain ⟨-, heq⟩ := htasks
  cases heq
  have hkeyed := Rows.nodup_put ht.distinct.keyed { task with updateTime := env.now }
  refine { ht with distinct := { ht.distinct with keyed := hkeyed }, tasks := fun q hq y hy hyq => ?_ }
  obtain ⟨hy, -⟩ | rfl := (Rows.mem_put ht.distinct.keyed).mp hy
  · exact ht.tasks q hq y hy hyq
  · exact h (hyq ▸ hq)

theorem updateOpen_lasting {task : Task} (h : ¬s.Over task.id) (status : TaskStatus) :
    Preserves (Lasting s) (op (Tasks.update { task with status := status })) fun _ => True :=
  updateTask_lasting _ fun hover => absurd hover h

theorem deleteTaskRow_lasting (s : State) (q : Uuid) :
    Preserves (Lasting s) (op (Tasks.deleteById q)) fun _ => True := by
  refine preserves_atom fun env t ht => ?_
  simp only [Tasks.deleteById, Effect.wp_bind, Effect.wp_get, Effect.wp_lift, Effect.wp_modify]
  refine ⟨fun tasks htasks => ⟨?_, trivial⟩, fun _ => ht⟩
  rw [Outcome.okOr_ok_iff, Rows.remove, Option.ite_none_right_eq_some] at htasks
  obtain ⟨-, heq⟩ := htasks
  cases heq
  have hsub : (t.tasks.eraseP fun x => x.id = q).Sublist t.tasks := List.eraseP_sublist
  exact
    { ht with
      distinct := { ht.distinct with keyed := ht.distinct.keyed.sublist (hsub.map Task.id) }
      tasks := fun q hq y hy => ht.tasks q hq y (hsub.subset hy) }

theorem note_lasting {event : Event} (h : event.isMark = false) (count : Nat) (ht : Lasting s t) :
    Lasting s { t with tasksCount := count, trace := t.trace ++ [event] } :=
  { ht with
    distinct := { ht.distinct with }
    history := ht.append fun e he => not_disturbs_of_quiet (by
      obtain rfl := List.mem_singleton.mp he
      exact h) }

theorem releaseTasksCount_lasting (s : State) {event : Event} (h : event.isMark = false) :
    Preserves (Lasting s) (TaskScheduler.releaseTasksCount event) fun _ => True := by
  have hload : Preserves (Lasting s) TaskScheduler.loadTasksCount fun _ => True :=
    preserves_atom fun _ _ ht => ⟨ht, trivial⟩
  have hstore (count : Nat) :
      Preserves (Lasting s) (TaskScheduler.storeTasksCount count event) fun _ => True :=
    preserves_atom fun _ _ ht => ⟨note_lasting h count ht, trivial⟩
  exact hload.bind fun _ _ => (preserves_done fun _ _ => trivial).bind fun count _ => hstore count

end Frame

section Scheduling

variable {s t : State} {env : Env}

theorem Lasting.unsettled (ht : Lasting s t) {b : SubTask} (hb : b ∈ t.subTasks)
    (hwait : b.isWaiting = true) : ¬s.Settled b.id := by
  intro hsettled
  rw [SubTask.isWaiting, ht.rows _ hsettled b hb rfl] at hwait
  cases hwait

theorem startSubTask_lasting (ht : Lasting s t) {b : SubTask} {service : SubTaskService}
    (hservice : subTaskServices (.from b.taskType) = some service) (hb : b ∈ t.subTasks)
    (hwait : b.isWaiting = true) (hparent : ¬s.Over b.parentId) :
    Effect.wp (exec (TaskScheduler.startSubTask b service)) env (fun _ => Lasting s) (Lasting s)
      t := by
  have hnot := ht.unsettled hb hwait
  have hfree {f : SubTask → SubTask} (hid : ∀ row, (f row).id = row.id) :
      Rewrites (Lasting s) b.id f := rewrites_lasting hid fun hsettled => absurd hsettled hnot
  let u : State := { t with trace := t.trace ++ [.started b.id t.subTasks] }
  have hu : Lasting s u :=
    { ht with
      distinct := { ht.distinct with }
      history := ht.append fun e he => by
        obtain rfl := List.mem_singleton.mp he
        rintro (hsettled | ⟨r, hr, hid, hover⟩)
        · exact hnot hsettled
        · exact hparent (Rows.eq_of_key ht.distinct.nodup hr hb hid ▸ hover) }
  have hrun {p : Op Unit} (hp : Preserves (Lasting s) p fun _ => True) :
      Effect.wp (exec p) env (fun _ => Lasting s) (Lasting s) u :=
    Effect.wp_mono (hp env u hu) (fun _ _ h => h.1) fun _ h => h
  simp only [TaskScheduler.startSubTask, op, exec_bind, exec_atom, Effect.wp_bind, Effect.wp_modify]
  change Effect.wp _ env (fun _ => Lasting s) (Lasting s) u
  split
  · exact hrun (preserves_enqueue (quiet_lasting s) hservice (hfree fun _ => rfl)
      (fun _ => hfree fun _ => rfl) (hfree fun _ => rfl) fun _ => hfree fun _ => rfl)
  · exact hrun (preserves_continue (quiet_lasting s) hservice (hfree fun _ => rfl)
      (hfree fun _ => rfl))
  · exact hu

theorem dispatch_lasting (ht : Lasting s t) {b : SubTask} (hb : b ∈ t.subTasks)
    (hwait : b.isWaiting = true) (hparent : ¬s.Over b.parentId) :
    Effect.wp (exec (TaskScheduler.dispatch b)) env (fun _ => Lasting s) (Lasting s) t := by
  simp only [TaskScheduler.dispatch, TaskScheduler.loadTasksCount, op, exec_bind, exec_atom,
    Effect.wp_bind, Effect.wp_get, Effect.wp_pure]
  split
  · exact ht
  · simp only [exec_bind, exec_done, Effect.wp_bind, Effect.wp_lift,
      TaskScheduler.storeTasksCount, exec_atom, Effect.wp_modify]
    refine ⟨fun count _ => ⟨fun service hservice => ?_, fun _ => ?_⟩, fun _ => ht⟩
    · rw [Outcome.okOr_ok_iff] at hservice
      exact startSubTask_lasting (note_lasting rfl count ht) hservice hb hwait hparent
    · exact note_lasting rfl count ht

theorem makeRunning_lasting {task : Task} (h : ¬s.Over task.id) :
    Preserves (Lasting s) (TaskScheduler.makeRunning task) fun _ => True := by
  refine Preserves.ite (fun _ => ?_) fun _ => Preserves.ite (fun _ => preserves_pure trivial)
    fun _ => preserves_fail _
  exact (updateOpen_lasting h _).bind fun _ _ =>
    preserves_saveChanged (quiet_lasting s)

theorem reportStarted_lasting {q : Uuid} (h : ¬s.Over q) :
    Preserves (Lasting s) (TaskReport.reportStartedTask q) fun _ => True := by
  refine preserves_atom fun env t ht => ?_
  unfold Effect.wp call
  cases env.fails t.calls with
  | some e => exact { ht with distinct := { ht.distinct with } }
  | none =>
    refine ⟨{ ht with distinct := { ht.distinct with }, history := ht.append fun e he => ?_ }, trivial⟩
    obtain rfl := List.mem_singleton.mp he
    exact h

theorem scheduleNextTaskById_lasting (s : State) (q : Uuid) :
    Preserves (Lasting s) (TaskScheduler.scheduleNextTaskById q) fun _ => True := by
  intro env t ht
  simp only [TaskScheduler.scheduleNextTaskById, op, exec_bind, exec_atom, Effect.wp_bind]
  refine Effect.wp_mono wp_getTask ?_ fun u hu => hu ▸ ht
  rintro task t ⟨rfl, hbody, x, hx, hid, hstatus⟩
  have hxid : x.id = q := by simpa using List.find?_some hx
  have hrun : Effect.wp (exec (TaskScheduler.makeRunning task)) env
      (fun _ u => (Lasting s u ∧ Alike t u) ∧ ¬s.Over q) (Lasting s) t := by
    by_cases hover : s.Over q
    · have hdone := ht.tasks q hover x (List.mem_of_find?_eq_some hx) hxid
      rw [Task.isOver, ← hstatus] at hdone
      have hother : task.status ≠ .queuing ∧ task.status ≠ .running := by
        constructor <;> intro heq <;> simp [heq] at hdone
      rw [TaskScheduler.makeRunning, if_neg hother.1, if_neg hother.2]
      exact ht
    · have hopen : ¬s.Over task.id := by rwa [hid, hxid]
      have hlasting := makeRunning_lasting hopen env t ht
      refine Effect.wp_mono (Effect.wp_and hlasting (makeRunning_alike t task env t (.refl t))) ?_
        fun u hu => hu.1
      rintro - u ⟨⟨hu, -⟩, halike, -⟩
      exact ⟨⟨hu, halike⟩, hover⟩
  refine Effect.wp_mono hrun ?_ fun _ h => h
  rintro - u ⟨⟨hu, halike⟩, hover⟩
  refine Effect.wp_mono (Effect.wp_and (reportStarted_lasting hover env u hu)
    (reportStarted_alike t q env u halike)) ?_ fun v hv => hv.1
  rintro - v ⟨⟨hv, -⟩, hsame, -⟩
  have hdone {p : Op Unit} (h : Effect.wp (exec p) env (fun _ => Lasting s) (Lasting s) v) :
      Effect.wp (exec p) env (fun _ u => Lasting s u ∧ True) (Lasting s) v :=
    Effect.wp_mono h (fun _ _ h => ⟨h, trivial⟩) fun _ h => h
  have hrows : task.body = v.rowsOf q := by rw [hbody, State.rowsOf, State.rowsOf, hsame.subTasks]
  rw [hrows]
  split
  · exact ⟨hv, trivial⟩
  · simp only [exec_bind, exec_done, Effect.wp_bind, Effect.wp_lift]
    refine ⟨fun b hb => hdone ?_, fun _ => hv⟩
    rw [Outcome.okOr_ok_iff] at hb
    obtain ⟨hmem, hparent⟩ := List.mem_filter.mp (List.mem_of_find?_eq_some hb)
    rw [decide_eq_true_eq] at hparent
    exact dispatch_lasting hv hmem (by simpa using List.find?_some hb) (hparent ▸ hover)

theorem scheduleNextTask_lasting (s : State) :
    Preserves (Lasting s) TaskScheduler.scheduleNextTask fun _ => True := by
  have hread : Preserves (Lasting s) (op Tasks.getNextQueuingId) fun _ => True :=
    preserves_atom fun _ _ ht => ⟨ht, trivial⟩
  refine hread.bind fun id _ => ?_
  split
  · exact scheduleNextTaskById_lasting s _
  · exact preserves_pure trivial

end Scheduling

section Messages

variable {s : State} {env : Env}

def Preserved (s : State) (env : Env) (p : Op Unit) : Prop :=
  Effect.wp (exec p) env (fun _ => Lasting s) (Lasting s) s

theorem pauseSubTasks_lasting (hs : s.Distinct) {p : Uuid} {body : List SubTask}
    (hbody : body = s.rowsOf p)
    (h : ∀ r ∈ s.rowsOf p, r.isPausable = true → r.status ≠ .completed) :
    Preserves (Lasting s) (TaskScheduler.pauseSubTasks body) fun _ => True := by
  subst hbody
  refine preserves_pauseSubTasks (quiet_lasting s) fun row hrow hpausable => ?_
  refine rewrites_unsettled (fun _ => rfl) fun r hr hid => ?_
  obtain rfl := Rows.eq_of_key hs.nodup hr (List.mem_of_mem_filter hrow) hid
  exact h r hrow hpausable

theorem not_over (hs : s.Distinct) {p : Uuid} {x : Task}
    (hx : Rows.find Task.id p s.tasks = some x) (h : x.isOver = false) : ¬s.Over x.id := by
  rintro ⟨y, hy, hid, hover⟩
  rw [Rows.eq_of_key hs.keyed hy (List.mem_of_find?_eq_some hx) hid, h] at hover
  cases hover

theorem call_lasting (s : State) {events : List Event} (h : ∀ e ∈ events, e.isMark = false) :
    Preserves (Lasting s) (op (call (fun _ _ => ()) events)) fun _ => True :=
  preserves_call (quiet_lasting s) _ h

theorem pauseTask_lasting (hs : s.Distinct) {p : Uuid}
    (h : s.isSchedulable p = true → ∀ r ∈ s.rowsOf p, r.isPausable = true → r.status ≠ .completed) :
    Preserved s env (TaskScheduler.pauseTask p) := by
  rw [Preserved, TaskScheduler.pauseTask, exec_bind, Effect.wp_bind]
  refine Effect.wp_mono wp_getTask ?_ fun t ht => by rw [ht]; exact .refl hs
  rintro task t ⟨rfl, hbody, x, hx, hid, hstatus⟩
  have hrun {q : Op Unit} (hq : Preserves (Lasting t) q fun _ => True) :
      Effect.wp (exec q) env (fun _ => Lasting t) (Lasting t) t :=
    Effect.wp_mono (hq env t (.refl hs)) (fun _ _ h => h.1) fun _ h => h
  have hreport : Preserves (Lasting t) (TaskReport.reportPausedTask p) fun _ => True :=
    call_lasting t (by simp [Event.isMark])
  split
  · next hqueuing =>
    have hover : ¬t.Over task.id :=
      hid ▸ not_over hs hx (by rw [Task.isOver, ← hstatus, hqueuing]; rfl)
    have hpause := pauseSubTasks_lasting hs hbody (h (isSchedulable_of_status hx hstatus (.inl hqueuing)))
    exact hrun (hpause.bind fun _ _ => (updateOpen_lasting hover _).bind
      fun _ _ => hreport.bind fun _ _ => preserves_saveChanged (quiet_lasting t))
  · next hrunning =>
    have hover : ¬t.Over task.id :=
      hid ▸ not_over hs hx (by rw [Task.isOver, ← hstatus, hrunning]; rfl)
    have hpause := pauseSubTasks_lasting hs hbody (h (isSchedulable_of_status hx hstatus (.inr hrunning)))
    exact hrun ((releaseTasksCount_lasting t rfl).bind fun _ _ => hpause.bind fun _ _ =>
      (updateOpen_lasting hover _).bind fun _ _ =>
        (preserves_saveChanged (quiet_lasting t)).bind fun _ _ => hreport.bind fun _ _ =>
          scheduleNextTask_lasting t)
  · exact .refl hs

theorem dropTask_lasting (s : State) (p : Uuid) (body : List SubTask) (isInternal : Bool) :
    Preserves (Lasting s) (do
      TaskScheduler.deleteSubTasks body
      op (Tasks.deleteById p)
      Prog.when (isInternal = false) (TaskReport.reportDeletedTask p)
      op saveChanged : Op Unit) fun _ => True := by
  have hreport : Preserves (Lasting s)
      (Prog.when (isInternal = false) (TaskReport.reportDeletedTask p)) fun _ => True :=
    Preserves.when fun _ => call_lasting s (by simp [Event.isMark])
  exact (preserves_deleteSubTasks (quiet_lasting s) fun _ _ => erasable_lasting s _).bind
    fun _ _ => (deleteTaskRow_lasting s p).bind fun _ _ => hreport.bind fun _ _ =>
      preserves_saveChanged (quiet_lasting s)

theorem suspendRunning_lasting (hs : s.Distinct) {p : Uuid} {task x : Task}
    (hx : Rows.find Task.id p s.tasks = some x) (hid : task.id = x.id)
    (hstatus : task.status = x.status) (hbody : task.body = s.rowsOf p)
    (h : s.isRunning p = true → ∀ r ∈ s.rowsOf p, r.isPausable = true → r.status ≠ .completed) :
    Preserves (Lasting s) (TaskScheduler.suspendRunning task) fun _ => True := by
  refine Preserves.when fun hrunning => ?_
  have hover : ¬s.Over task.id :=
    hid ▸ not_over hs hx (by rw [Task.isOver, ← hstatus, hrunning]; rfl)
  have hpause := pauseSubTasks_lasting hs hbody (h (isRunning_of_status hx hstatus hrunning))
  exact (releaseTasksCount_lasting s rfl).bind fun _ _ => hpause.bind fun _ _ =>
    (updateOpen_lasting hover _).bind fun _ _ =>
      (preserves_saveChanged (quiet_lasting s)).bind fun _ _ => scheduleNextTask_lasting s

theorem deleteTask_lasting (hs : s.Distinct) {p : Uuid} (isInternal : Bool)
    (h : s.isRunning p = true → ∀ r ∈ s.rowsOf p, r.isPausable = true → r.status ≠ .completed) :
    Preserved s env (TaskScheduler.deleteTask p isInternal) := by
  rw [Preserved, TaskScheduler.deleteTask, exec_bind, Effect.wp_bind]
  refine Effect.wp_mono wp_getTask ?_ fun t ht => by rw [ht]; exact .refl hs
  rintro task t ⟨rfl, hbody, x, hx, hid, hstatus⟩
  have hall := (suspendRunning_lasting hs hx hid hstatus hbody h).bind fun _ _ =>
    dropTask_lasting t p task.body isInternal
  exact Effect.wp_mono (hall env t (.refl hs)) (fun _ _ h => h.1) fun _ h => h

theorem getTask_lasting (s : State) (q : Uuid) : Preserves (Lasting s) (op (Tasks.getById q))
    fun task => task.id = q ∧ (s.Over q → task.isOver = true) := by
  intro env t ht
  refine Effect.wp_mono wp_getTask ?_ fun u hu => hu ▸ ht
  rintro task u ⟨rfl, -, x, hx, hid, hstatus⟩
  have hxid : x.id = q := by simpa using List.find?_some hx
  refine ⟨ht, hid.trans hxid, fun hover => ?_⟩
  rw [Task.isOver, hstatus]
  exact ht.tasks q hover x (List.mem_of_find?_eq_some hx) hxid

theorem continueTask_lasting {q : Uuid} (h : ¬s.Over q) :
    Preserves (Lasting s) (TaskScheduler.continueTask q) fun _ => True := by
  refine (getTask_lasting s q).bind fun task htask => ?_
  have hreport : Preserves (Lasting s) (TaskReport.reportResumedTask q) fun _ => True :=
    call_lasting s (by simp [Event.isMark])
  have hupdate : Preserves (Lasting s) (op (Tasks.update { task with status := .queuing }))
      fun _ => True := updateTask_lasting _ fun hover => absurd (htask.1 ▸ hover) h
  exact hupdate.bind fun _ _ => (preserves_saveChanged (quiet_lasting s)).bind fun _ _ =>
    hreport.bind fun _ _ => scheduleNextTaskById_lasting s task.id

theorem completeSubTask_lasting (s : State) (x : Uuid) :
    Preserves (Lasting s) (TaskScheduler.completeSubTask x) fun _ => True := by
  refine preserves_getSubTask.bind fun row hrow => ?_
  have hwrite : Rewrites (Lasting s) x fun row => { row with status := .completed } :=
    rewrites_lasting (fun _ => rfl) fun _ _ _ => rfl
  refine (preserves_updateSubTask (hwrite row hrow)).bind fun _ _ => ?_
  refine (preserves_saveChanged (quiet_lasting s)).bind fun _ _ => ?_
  refine (releaseTasksCount_lasting s rfl).bind fun _ _ => ?_
  refine (getTask_lasting s row.parentId).bind fun task _ => ?_
  have hreport : Preserves (Lasting s) (TaskReport.reportCompletedTask row.parentId) fun _ => True :=
    (preserves_getTask _).bind fun _ _ =>
      preserves_call (quiet_lasting s) _ (by simp [Event.isMark])
  refine Preserves.ite (fun _ => ?_) fun _ => scheduleNextTaskById_lasting s _
  exact (updateTask_lasting _ fun _ => rfl).bind fun _ _ =>
    (preserves_saveChanged (quiet_lasting s)).bind fun _ _ => hreport.bind fun _ _ =>
      scheduleNextTask_lasting s

theorem failSubTask_lasting (s : State) (x : Uuid) :
    Preserves (Lasting s) (TaskScheduler.failSubTask x) fun _ => True := by
  refine (releaseTasksCount_lasting s rfl).bind fun _ _ => preserves_getSubTask.bind fun row _ => ?_
  refine (getTask_lasting s row.parentId).bind fun task _ => ?_
  have hreport : Preserves (Lasting s)
      (TaskReport.reportFailedTask row.parentId row.failedReason) fun _ => True :=
    call_lasting s (by simp [Event.isMark])
  exact (updateTask_lasting _ fun _ => rfl).bind fun _ _ =>
    (preserves_saveChanged (quiet_lasting s)).bind fun _ _ => hreport.bind fun _ _ =>
      scheduleNextTask_lasting s

end Messages

end Kuintessence.Agent

import Kuintessence.Agent.Lasting

namespace Kuintessence.Agent

open Prog

def State.reopens : Operation → Option Uuid
  | .message m =>
    match m.command with
    | .start | .continue => some m.id
    | _ => none
  | _ => none

def State.overwrites (s : State) : Operation → Option Uuid
  | .runJob f => (Rows.find File.id f s.taskFiles).map File.relatedTaskBody
  | .failJob x _ => some x
  | .failDeployment x => some x
  | _ => none

instance (s : State) (q : Uuid) : Decidable (s.Over q) :=
  inferInstanceAs (Decidable (∃ x ∈ s.tasks, x.id = q ∧ x.isOver = true))

structure Careful (s : State) (turn : Turn) : Prop where
  reopens : ∀ q ∈ State.reopens turn.operation, ¬s.Over q
  parks : ∀ p ∈ s.parks turn.operation,
    ∀ r ∈ s.rowsOf p, r.isPausable = true → r.status ≠ .completed
  overwrites : ∀ x ∈ s.overwrites turn.operation,
    ∀ r ∈ s.subTasks, r.id = x → r.status ≠ .completed

section Operations

variable {s : State} {env : Env}

theorem insert_lasting (hs : s.Distinct) (message : Dto.Task) (task : Task)
    (hid : task.id = message.id) (hover : ¬s.Over message.id)
    (hbody : task.body = enqueued (KafkaMessageQueue.subTasks message.id s.nextId message.body).1) :
    Effect.wp (do
      Tasks.insert task
      Agent.note (.submitted task.id (task.body.map SubTask.id)) : Act Unit)
      env (fun _ => Lasting s) (Lasting s)
      { s with nextId := (KafkaMessageQueue.subTasks message.id s.nextId message.body).2 } := by
  obtain ⟨hrows, hnodup, hle⟩ := drawn_spec message s.nextId
  generalize KafkaMessageQueue.subTasks message.id s.nextId message.body = drawn at hle hnodup hrows hbody ⊢
  rw [← hbody] at hrows hnodup
  have hnew : ∀ row ∈ task.body, ∀ r ∈ s.subTasks, r.id ≠ row.id := fun row hrow r hr heq =>
    Nat.not_lt.mpr (hrows row hrow).2.2.1 (heq ▸ hs.fresh r hr)
  obtain ⟨files, hfiles⟩ := foldl_insert task.body { s with nextId := drawn.2 } hnew hnodup
  simp only [Tasks.insert, Agent.note, Effect.wp_bind, Effect.wp_modify]
  rw [hfiles]
  refine
    { distinct :=
        { keyed := Rows.nodup_put hs.keyed task
          nodup := ?_
          fresh := fun r hr => ?_ }
      nextId := hle
      old := fun r hr hlt => ?_
      rows := fun i hi r hr hid => ?_
      tasks := fun q hq y hy hyq => ?_
      history := ⟨_, rfl, fun e he => ?_⟩ }
  · rw [List.map_append, List.nodup_append]
    refine ⟨hs.nodup, hnodup, ?_⟩
    rintro a ha b hb rfl
    obtain ⟨r, hr, rfl⟩ := List.mem_map.mp ha
    obtain ⟨row, hrow, heq⟩ := List.mem_map.mp hb
    exact hnew row hrow r hr heq.symm
  · obtain hr | hr := List.mem_append.mp hr
    · exact Nat.lt_of_lt_of_le (hs.fresh r hr) hle
    · exact (hrows r hr).2.2.2
  · obtain hr | hr := List.mem_append.mp hr
    · exact ⟨r, hr, rfl⟩
    · exact absurd hlt (Nat.not_lt.mpr (hrows r hr).2.2.1)
  · obtain hr | hr := List.mem_append.mp hr
    · exact hi.2 r hr hid
    · exact absurd hi.1 (Nat.not_lt.mpr (hid ▸ (hrows r hr).2.2.1))
  · obtain ⟨hy, -⟩ | rfl := (Rows.mem_put hs.keyed).mp hy
    · exact (Lasting.refl hs).tasks q hq y hy hyq
    · rw [← hyq, hid] at hq
      exact absurd hq hover
  · obtain rfl := List.mem_singleton.mp he
    exact id

theorem start_lasting (hs : s.Distinct) {message : Dto.Task} (hcommand : message.command = .start)
    (hover : ¬s.Over message.id) : Preserved s env (KafkaMessageQueue.receive message) := by
  rw [Preserved, KafkaMessageQueue.receive, hcommand]
  simp only [op, exec_bind, exec_atom, Effect.wp_bind, Effect.wp_read, Effect.wp_pure,
    TaskScheduler.enqueueTask]
  rw [wp_drawBody]
  let task : Task :=
    { id := message.id, status := .queuing, updateTime := env.now,
      body := enqueued (KafkaMessageQueue.subTasks message.id s.nextId message.body).1 }
  have hinsert := @insert_lasting s env hs message task rfl hover rfl
  rw [Effect.wp_bind] at hinsert
  refine Effect.wp_mono hinsert (fun _ u hu => ?_) fun _ h => h
  refine Effect.wp_mono hu ?_ fun _ h => h
  rintro - t ht
  refine Effect.wp_mono (preserves_saveChanged (quiet_lasting s) env t ht) ?_ fun _ h => h
  rintro - v ⟨hv, -⟩
  exact Effect.wp_mono (scheduleNextTaskById_lasting s message.id env v hv) (fun _ _ h => h.1)
    fun _ h => h

theorem deleteCompleted_lasting {q : Uuid} (h : s.Over q) (isInternal : Bool) :
    Preserves (Lasting s) (TaskScheduler.deleteTask q isInternal) fun _ => True := by
  refine (getTask_lasting s q).bind fun task htask => ?_
  have hsuspend : Preserves (Lasting s) (TaskScheduler.suspendRunning task) fun _ => True :=
    Preserves.when fun hrunning => by
      have hdone := htask.2 h
      rw [Task.isOver, hrunning] at hdone
      cases hdone
  exact hsuspend.bind fun _ _ => dropTask_lasting s q task.body isInternal

theorem deleteAllCompleted_lasting (hs : s.Distinct) :
    Preserved s env TaskScheduler.deleteAllCompletedTasks := by
  rw [Preserved, TaskScheduler.deleteAllCompletedTasks, exec_bind, Effect.wp_bind]
  change Effect.wp (exec (op (do let env ← .read; pure env.now) >>= fun now => Prog.each
    (fun task => Prog.when (task.status = .completed ∧ task.updateTime > now - 2 * 60 * 60)
      (TaskScheduler.deleteTask task.id true)) s.tasks)) env _ _ s
  have hall : Preserves (Lasting s) (op (do let env ← .read; pure env.now) >>= fun now => Prog.each
      (fun task => Prog.when (task.status = .completed ∧ task.updateTime > now - 2 * 60 * 60)
        (TaskScheduler.deleteTask task.id true)) s.tasks) fun _ => True := by
    refine (preserves_env _).bind fun now _ => Preserves.each fun task htask =>
      Preserves.when fun hdone => deleteCompleted_lasting ⟨task, htask, rfl, ?_⟩ true
    rw [Task.isOver, hdone.1]
    rfl
  exact Effect.wp_mono (hall env s (.refl hs)) (fun _ _ h => h.1) fun _ h => h

theorem refreshAllStatus_lasting (hs : s.Distinct) :
    Preserved s env RunJob.refreshAllStatus := by
  rw [Preserved, RunJob.refreshAllStatus, exec_bind, Effect.wp_bind]
  change Effect.wp (exec (Prog.each (fun task => RunJob.refreshStatus task.id)
    (s.subTasks.filter fun x => x.jobId ≠ "" ∧ x.status = .running))) env _ _ s
  have hall : Preserves (Lasting s) (Prog.each (fun task => RunJob.refreshStatus task.id)
      (s.subTasks.filter fun x => x.jobId ≠ "" ∧ x.status = .running)) fun _ => True := by
    refine Preserves.each fun row hrow => ?_
    obtain ⟨hmem, hrunning⟩ := List.mem_filter.mp hrow
    have hstatus : row.status = .running := by simpa using (of_decide_eq_true hrunning).2
    have hfree {f : SubTask → SubTask} (hid : ∀ r, (f r).id = r.id) :
        Rewrites (Lasting s) row.id f := rewrites_unsettled hid fun r hr heq => by
      rw [Rows.eq_of_key hs.nodup hr hmem heq, hstatus]
      simp
    exact RunJob.preserves_refreshStatus (quiet_lasting s) (fun _ => hfree fun _ => rfl)
      fun _ _ => hfree fun _ => rfl
  exact Effect.wp_mono (hall env s (.refl hs)) (fun _ _ h => h.1) fun _ h => h

theorem runJob_lasting (hs : s.Distinct) {f : Uuid}
    (h : ∀ x, (Rows.find File.id f s.taskFiles).map File.relatedTaskBody = some x →
      ∀ r ∈ s.subTasks, r.id = x → r.status ≠ .completed) :
    Preserved s env (RunJob.runJob f) := by
  rw [Preserved, RunJob.runJob, exec_bind, Effect.wp_bind]
  change Effect.wp (TaskFiles.getById f) env _ _ s
  simp only [TaskFiles.getById, Effect.wp_bind, Effect.wp_get, Effect.wp_lift]
  refine ⟨fun file hfile => ?_, fun _ => .refl hs⟩
  rw [Outcome.okOr_ok_iff] at hfile
  have hrow := h file.relatedTaskBody (by rw [hfile]; rfl)
  have hrun : Preserves (Lasting s) (RunJob.internalRunJob file.relatedTaskBody) fun _ => True :=
    RunJob.preserves_internalRunJob (quiet_lasting s)
      (fun _ => rewrites_unsettled (fun _ => rfl) hrow)
      fun _ => rewrites_unsettled (fun _ => rfl) hrow
  have hfile : Preserves (Lasting s) (updateTaskFileStatus f .both) fun _ => True :=
    preserves_updateTaskFileStatus (quiet_lasting s) .both
  have hall := hfile.bind fun _ _ => (preserves_saveChanged (quiet_lasting s)).bind fun _ _ => hrun
  exact Effect.wp_mono (hall env s (.refl hs)) (fun _ _ h => h.1) fun _ h => h

theorem serve_lasting (hs : s.Distinct) {operation : Operation}
    (h : Careful s ⟨env, operation⟩) : Preserved s env operation.serve := by
  obtain ⟨hreopens, hparks, hoverwrites⟩ := h
  have hrun {p : Op Unit} (hp : Preserves (Lasting s) p fun _ => True) : Preserved s env p :=
    Effect.wp_mono (hp env s (.refl hs)) (fun _ _ h => h.1) fun _ h => h
  cases operation with
  | message message =>
    cases hcommand : message.command with
    | start =>
      exact start_lasting hs hcommand (hreopens message.id (by simp [State.reopens, hcommand]))
    | pause =>
      have hpause : Preserved s env (TaskScheduler.pauseTask message.id) :=
        pauseTask_lasting hs fun hsched =>
          hparks message.id (by simp [State.parks, hcommand, hsched])
      rwa [Operation.serve, KafkaMessageQueue.receive, hcommand]
    | «continue» =>
      have hcontinue := continueTask_lasting (s := s)
        (hreopens message.id (by simp [State.reopens, hcommand]))
      rw [Operation.serve, KafkaMessageQueue.receive, hcommand]
      exact hrun hcontinue
    | delete =>
      have hdelete : Preserved s env (TaskScheduler.deleteTask message.id false) :=
        deleteTask_lasting hs false fun hrunning =>
          hparks message.id (by simp [State.parks, hcommand, hrunning])
      rwa [Operation.serve, KafkaMessageQueue.receive, hcommand]
  | report x status =>
    cases status with
    | completed => exact hrun (completeSubTask_lasting s x)
    | failed => exact hrun (failSubTask_lasting s x)
  | scheduleNextTask => exact hrun (scheduleNextTask_lasting s)
  | scheduleNextTaskById q => exact hrun (scheduleNextTaskById_lasting s q)
  | deleteAllCompletedTasks => exact deleteAllCompleted_lasting hs
  | refreshAllStatus => exact refreshAllStatus_lasting hs
  | runJob f => exact runJob_lasting hs hoverwrites
  | completeJob f => exact hrun (RunJob.preserves_completeJob (quiet_lasting s))
  | failJob x reason =>
    exact hrun (RunJob.preserves_failJob (quiet_lasting s)
      (rewrites_unsettled (fun _ => rfl) (hoverwrites x rfl)))
  | runSubTask x =>
    exact hrun (DeploySoftware.preserves_runSubTask (quiet_lasting s) fun _ =>
      rewrites_keeping_status (fun _ => rfl) fun _ => rfl)
  | completeDeployment x =>
    exact hrun (DeploySoftware.preserves_completeSubTask (quiet_lasting s)
      (rewrites_lasting (fun _ => rfl) fun _ _ _ => rfl))
  | failDeployment x =>
    exact hrun (DeploySoftware.preserves_failSubTask (quiet_lasting s)
      (rewrites_unsettled (fun _ => rfl) (hoverwrites x rfl)))

end Operations

def Event.Schedules (q : Uuid) : Event → Prop
  | .started x rows => ∃ r ∈ rows, r.id = x ∧ r.parentId = q
  | .reported .start task _ _ => task = q
  | _ => False

section Runs

variable {s : State} {turns : List Turn}

theorem step_lasting (hs : s.Distinct) {turn : Turn} (h : Careful s turn) :
    Lasting s (step s turn) :=
  Effect.wp_final.mp (serve_lasting hs h)

theorem Lasting.settled {t : State} (h : Lasting s t) {i : Uuid} (hi : s.Settled i) :
    t.Settled i :=
  ⟨Nat.lt_of_lt_of_le hi.1 h.nextId, h.rows i hi⟩

theorem run_distinct (hs : s.Distinct) (h : Along step Careful s turns) :
    (run step s turns).Distinct := by
  have hstep (t : State) (turn : Turn) (ht : t.Distinct) (hok : Careful t turn) :
      (step t turn).Distinct := (step_lasting ht hok).distinct
  exact run_invariant hstep hs h

theorem run_settled (hs : s.Distinct) (h : Along step Careful s turns) {i : Uuid}
    (hi : s.Settled i) : (run step s turns).Settled i ∧
      ∃ es, (run step s turns).trace = s.trace ++ es ∧ ∀ rows, .started i rows ∉ es := by
  induction turns generalizing s with
  | nil => exact ⟨hi, [], (List.append_nil _).symm, by simp⟩
  | cons turn turns ih =>
    obtain ⟨hcareful, hrest⟩ := h
    have hstep := step_lasting hs hcareful
    obtain ⟨fs, hfs, hquiet⟩ := hstep.history
    obtain ⟨hlast, es, hes, hnot⟩ := ih hstep.distinct hrest (hstep.settled hi)
    refine ⟨hlast, fs ++ es, ?_, fun rows hmem => ?_⟩
    · rw [← List.append_assoc, ← hfs]
      exact hes
    · obtain hmem | hmem := List.mem_append.mp hmem
      · exact hquiet _ hmem (.inl hi)
      · exact hnot rows hmem

theorem run_over (hs : s.Distinct) (h : Along step Careful s turns) {q : Uuid} (hq : s.Over q) :
    (∃ mid, mid <+: turns ∧ ∀ y ∈ (run step s mid).tasks, y.id ≠ q) ∨
      (run step s turns).Over q ∧
        ∃ es, (run step s turns).trace = s.trace ++ es ∧ ∀ e ∈ es, ¬e.Schedules q := by
  induction turns generalizing s with
  | nil => exact .inr ⟨hq, [], (List.append_nil _).symm, by simp⟩
  | cons turn turns ih =>
    obtain ⟨hcareful, hrest⟩ := h
    have hstep := step_lasting hs hcareful
    by_cases hgone : ∀ y ∈ (step s turn).tasks, y.id ≠ q
    · exact .inl ⟨[turn], ⟨turns, rfl⟩, hgone⟩
    · obtain ⟨y, hy, hid⟩ : ∃ y ∈ (step s turn).tasks, y.id = q := by simpa using hgone
      obtain ⟨fs, hfs, hquiet⟩ := hstep.history
      have hcalm : ∀ e ∈ fs, ¬e.Schedules q := by
        intro e he hsched
        refine hquiet e he ?_
        cases e with
        | started x rows =>
          obtain ⟨r, hr, hrid, hparent⟩ := hsched
          exact .inr ⟨r, hr, hrid, hparent ▸ hq⟩
        | reported result =>
          cases result with
          | start => exact hsched ▸ hq
          | _ => exact hsched
        | _ => exact hsched
      obtain ⟨mid, hmid, hout⟩ | ⟨hover, es, hes, hnot⟩ :=
        ih hstep.distinct hrest ⟨y, hy, hid, hstep.tasks q hq y hy hid⟩
      · exact .inl ⟨turn :: mid, List.cons_prefix_cons.mpr ⟨rfl, hmid⟩, hout⟩
      · refine .inr ⟨hover, fs ++ es, ?_, fun e he => ?_⟩
        · rw [← List.append_assoc, ← hfs]
          exact hes
        · obtain he | he := List.mem_append.mp he
          · exact hcalm e he
          · exact hnot e he

theorem distinct_initial (maxTasksCount : Nat) : (State.initial maxTasksCount).Distinct :=
  ⟨List.nodup_nil, List.nodup_nil, fun _ h => nomatch h⟩

def KeepsResults (s : State) (turns : List Turn) : Prop :=
  let t := run step s turns
  (∀ x ∈ s.subTasks, x.status = .completed →
    (∀ r ∈ t.subTasks, r.id = x.id → r.status = .completed) ∧
      ∀ rows, .started x.id rows ∉ t.trace.drop s.trace.length) ∧
  ∀ q, s.Over q → (∃ mid, mid <+: turns ∧ ∀ y ∈ (run step s mid).tasks, y.id ≠ q) ∨
    t.Over q ∧ ∀ e ∈ t.trace.drop s.trace.length, ¬e.Schedules q

theorem keepsResults (hs : s.Distinct) (h : Along step Careful s turns) : KeepsResults s turns := by
  refine ⟨fun x hx hdone => ?_, fun q hq => ?_⟩
  · have hi : s.Settled x.id := ⟨hs.fresh x hx, fun r hr hid => by
      rwa [Rows.eq_of_key hs.nodup hr hx hid]⟩
    obtain ⟨hlast, es, hes, hnot⟩ := run_settled hs h hi
    refine ⟨hlast.2, fun rows => ?_⟩
    rw [hes, List.drop_left]
    exact hnot rows
  · refine (run_over hs h hq).imp_right ?_
    rintro ⟨hover, es, hes, hnot⟩
    refine ⟨hover, ?_⟩
    rw [hes, List.drop_left]
    exact hnot

theorem results_last {maxTasksCount : Nat} {before after : List Turn}
    (h : Along step Careful (State.initial maxTasksCount) (before ++ after)) :
    KeepsResults (run step (State.initial maxTasksCount) before) after := by
  rw [along_append] at h
  exact keepsResults (run_distinct (distinct_initial maxTasksCount) h.1) h.2

end Runs

theorem results_last_sample :
    KeepsResults (run step (State.initial 0) ((sampleRun.take 3).map (Turn.mk sampleEnv)))
      ((sampleRun.drop 3).map (Turn.mk sampleEnv)) := by
  refine results_last ⟨?_, ?_, ?_, ?_, ?_, ?_, trivial⟩
  all_goals exact ⟨by decide +kernel, by decide +kernel, by decide +kernel⟩

theorem pausing_forgets : ¬∀ before after : List Turn,
    KeepsResults (run step (State.initial 0) before) after := by
  intro h
  have hrun := (h ((sampleRun.take 5).map (Turn.mk sampleEnv))
    [⟨sampleEnv, .message ⟨7, [], .pause⟩⟩]).1
  have hrows := fun x hx hdone => (hrun x hx hdone).1
  revert hrows
  decide +kernel

end Kuintessence.Agent

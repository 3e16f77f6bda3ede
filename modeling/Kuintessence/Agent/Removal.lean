import Kuintessence.Agent.Records

namespace Kuintessence.Agent

open Prog

-- The records of the other tasks.
structure Apart (p : Uuid) (s t : State) : Prop where
  tasks : t.tasks.filter (fun x => x.id ≠ p) = s.tasks.filter fun x => x.id ≠ p
  subTasks : t.subTasks.filter (fun r => r.parentId ≠ p) =
    s.subTasks.filter fun r => r.parentId ≠ p
  taskFiles : t.taskFiles = s.taskFiles

structure Gone (s : State) (p : Uuid) (t : State) : Prop where
  task : ∀ x ∈ t.tasks, x.id ≠ p
  subTasks : ∀ r ∈ t.subTasks, r.parentId ≠ p
  taskFiles : ∀ f ∈ t.taskFiles, ∀ r ∈ s.rowsOf p, f.relatedTaskBody ≠ r.id

-- Apart from what scheduling the next task does, in the middle of deleting a running one.
structure Untouched (s : State) (env : Env) (p : Uuid) (t : State) : Prop where
  running : s.isRunning p = true → ∃ u v, Apart p s u ∧
    TaskScheduler.scheduleNextTask.exec env u = (.ok (), v) ∧ Apart p v t
  resting : s.isRunning p = false → Apart p s t

structure Deleted (s : State) (env : Env) (p : Uuid) (t : State) : Prop where
  gone : Gone s p t
  untouched : Untouched s env p t

structure Deletable (s : State) (p : Uuid) : Prop where
  pausable : ∀ r ∈ s.rowsOf p, r.isPausable = true
  fileless : ∀ f ∈ s.taskFiles, ∀ r ∈ s.rowsOf p, f.relatedTaskBody ≠ r.id

def SubTask.key (row : SubTask) : Uuid × Uuid × TaskType := (row.parentId, row.id, row.taskType)

def SameRows (p : Uuid) (s t : State) : Prop :=
  ∀ k, (p, k) ∈ t.subTasks.map SubTask.key ↔ (p, k) ∈ s.subTasks.map SubTask.key

section Apart

variable {p : Uuid} {s t u : State} {row : SubTask}

theorem Apart.refl (s : State) : Apart p s s := ⟨rfl, rfl, rfl⟩

theorem Apart.trans (h : Apart p s t) (h' : Apart p t u) : Apart p s u :=
  ⟨h'.tasks.trans h.tasks, h'.subTasks.trans h.subTasks, h'.taskFiles.trans h.taskFiles⟩

theorem Apart.of_eq (h : Apart p s t) (htasks : u.tasks = t.tasks)
    (hsubTasks : u.subTasks = t.subTasks) (hfiles : u.taskFiles = t.taskFiles) : Apart p s u :=
  ⟨htasks ▸ h.tasks, hsubTasks ▸ h.subTasks, hfiles ▸ h.taskFiles⟩

theorem apart_putTask (hs : s.Unique) {task : Task} (hid : task.id = p) :
    Apart p s (s.putTask task) := by
  refine ⟨?_, rfl, rfl⟩
  change (Rows.put Task.id task s.tasks).filter _ = _
  rw [Rows.put_eq_filter hs.tasks, List.filter_append,
    List.filter_cons_of_neg (by simpa using hid), List.filter_nil, List.append_nil,
    List.filter_filter, hid]
  exact List.filter_congr fun x _ => Bool.and_self _

theorem apart_dropTask (hs : s.Unique) : Apart p s (s.dropTask p) := by
  refine ⟨?_, rfl, rfl⟩
  change (s.tasks.eraseP fun x => x.id = p).filter _ = _
  rw [Rows.erase_eq_filter hs.tasks, List.filter_filter]
  exact List.filter_congr fun x _ => Bool.and_self _

theorem apart_putSubTask (hs : s.Unique) (hrow : row.parentId = p)
    (hold : ∀ r ∈ s.subTasks, r.id = row.id → r.parentId = p) : Apart p s (s.putSubTask row) := by
  refine ⟨rfl, ?_, rfl⟩
  change (Rows.put SubTask.id row s.subTasks).filter _ = _
  rw [Rows.put_eq_filter hs.subTasks, List.filter_append,
    List.filter_cons_of_neg (by simpa using hrow), List.filter_nil, List.append_nil,
    List.filter_filter]
  refine List.filter_congr fun r hr => ?_
  have hne : r.parentId ≠ p → r.id ≠ row.id := fun hp hid => hp (hold r hr hid)
  simpa using hne

theorem apart_dropSubTask (hs : s.Unique) {id : Uuid}
    (hold : ∀ r ∈ s.subTasks, r.id = id → r.parentId = p) : Apart p s (s.dropSubTask id) := by
  refine ⟨rfl, ?_, rfl⟩
  change (s.subTasks.eraseP fun x => x.id = id).filter _ = _
  rw [Rows.erase_eq_filter hs.subTasks, List.filter_filter]
  refine List.filter_congr fun r hr => ?_
  have hne : r.parentId ≠ p → r.id ≠ id := fun hp hid => hp (hold r hr hid)
  simpa using hne

end Apart

section Rows

variable {p : Uuid} {s t u : State} {row : SubTask}

theorem SameRows.of_eq (h : SameRows p s t) (hu : u.subTasks = t.subTasks) : SameRows p s u :=
  fun k => hu ▸ h k

theorem mem_keys {k : Uuid × TaskType} : (p, k) ∈ t.subTasks.map SubTask.key ↔
    ∃ r ∈ t.rowsOf p, (r.id, r.taskType) = k := by
  simp only [List.mem_map, SubTask.key, Prod.mk.injEq, mem_rowsOf, and_assoc]

theorem SameRows.of_rowsOf (h : SameRows p s t) (hu : u.rowsOf p = t.rowsOf p) :
    SameRows p s u := by
  intro k
  rw [← h k, mem_keys, mem_keys, hu]

theorem SameRows.key_eq (h : SameRows p s t) (ht : t.Unique) {x r : SubTask}
    (hx : x ∈ s.rowsOf p) (hr : r ∈ t.subTasks) (hid : r.id = x.id) : r.key = x.key := by
  obtain ⟨hmem, rfl⟩ := mem_rowsOf.mp hx
  obtain ⟨y, hy, hkey⟩ := List.mem_map.mp ((h (x.id, x.taskType)).mpr (List.mem_map_of_mem hmem))
  have hyid : y.id = r.id := (congrArg (fun k => k.2.1) hkey).trans hid.symm
  rw [← Rows.eq_of_key ht.subTasks hy hr hyid, hkey]
  rfl

theorem SameRows.put (h : SameRows p s t) (ht : t.Unique) (hu : SameRows p s u) (hu' : u.Unique)
    {x r r' : SubTask} (hx : x ∈ s.rowsOf p) (hr : r ∈ u.subTasks) (hid : r.id = x.id)
    (hkey : r'.key = r.key) (hold : ∃ y ∈ t.subTasks, y.id = r'.id) :
    SameRows p s (t.putSubTask r') := by
  obtain ⟨y, hy, hyid⟩ := hold
  have hrid : r'.id = r.id := congrArg (fun k => k.2.1) hkey
  have hyx : y.key = x.key := h.key_eq ht hx hy (hyid.trans (hrid.trans hid))
  have hyr : y.key = r'.key := hyx.trans ((hu.key_eq hu' hx hr hid).symm.trans hkey.symm)
  exact fun k => (Rows.mem_map_put ht.subTasks ⟨y, hy, hyid, hyr⟩).trans (h k)

end Rows

-- While the sub-tasks of the task are paused.
structure Pausing (p : Uuid) (s t : State) : Prop where
  unique : t.Unique
  apart : Apart p s t
  rows : SameRows p s t
  tasks : t.tasks = s.tasks

-- While another task is scheduled.
structure Waiting (p : Uuid) (s t : State) : Prop where
  unique : t.Unique
  rows : t.rowsOf p = s.rowsOf p
  files : SameFiles s t
  suspended : ∀ x ∈ t.tasks, x.id = p → x.status ≠ .queuing

section Pausing

variable {p : Uuid} {s t : State}

theorem Pausing.of_eq (h : Pausing p s t) {u : State} (htasks : u.tasks = t.tasks)
    (hsubTasks : u.subTasks = t.subTasks) (hfiles : u.taskFiles = t.taskFiles) : Pausing p s u :=
  ⟨h.unique.of_eq htasks hsubTasks hfiles, h.apart.of_eq htasks hsubTasks hfiles,
    h.rows.of_eq hsubTasks, htasks.trans h.tasks⟩

theorem lenient_pausing (p : Uuid) (s : State) : Lenient (Pausing p s) where
  nothing := fun _ _ h => h.of_eq rfl rfl rfl
  events := fun _ _ _ _ h => h.of_eq rfl rfl rfl
  counts := fun _ _ _ _ h => h.of_eq rfl rfl rfl
  reports := fun _ _ _ _ _ _ h => h.of_eq rfl rfl rfl

theorem rewrites_pausing {row : SubTask} (hrow : row ∈ s.rowsOf p) :
    Rewrites (Pausing p s) row.id fun r => { r with status := .suspended } := by
  rintro r ⟨u, hu, hr, hid⟩ t ht hold
  have hparent : r.parentId = p :=
    (congrArg Prod.fst (hu.rows.key_eq hu.unique hrow hr hid)).trans (mem_rowsOf.mp hrow).2
  have hrows : SameRows p s (t.putSubTask { r with status := .suspended }) :=
    ht.rows.put ht.unique hu.rows hu.unique hrow hr hid rfl hold
  refine ⟨ht.unique.putSubTask _, ht.apart.trans (apart_putSubTask ht.unique hparent ?_), hrows,
    ht.tasks⟩
  intro y hy hyid
  exact (congrArg Prod.fst (ht.rows.key_eq ht.unique hrow hy (hyid.trans hid))).trans
    (mem_rowsOf.mp hrow).2

theorem pauseSubTasks_pausing (p : Uuid) (s : State) :
    Upholds (Pausing p s) (TaskScheduler.pauseSubTasks (s.rowsOf p)) fun _ => True :=
  upholds_pauseRows (lenient_pausing p s).toPlain fun _ hrow =>
    ⟨(lenient_pausing p s).emits rfl, rewrites_pausing hrow, fun _ _ h => h.of_eq rfl rfl rfl⟩

theorem Waiting.of_eq (h : Waiting p s t) {u : State} (htasks : u.tasks = t.tasks)
    (hsubTasks : u.subTasks = t.subTasks) (hfiles : u.taskFiles = t.taskFiles) : Waiting p s u :=
  ⟨h.unique.of_eq htasks hsubTasks hfiles, by rw [State.rowsOf, hsubTasks]; exact h.rows,
    h.files.of_eq hfiles, htasks ▸ h.suspended⟩

theorem lenient_waiting (p : Uuid) (s : State) : Lenient (Waiting p s) where
  nothing := fun _ _ h => h.of_eq rfl rfl rfl
  events := fun _ _ _ _ h => h.of_eq rfl rfl rfl
  counts := fun _ _ _ _ h => h.of_eq rfl rfl rfl
  reports := fun _ _ _ _ _ _ h => h.of_eq rfl rfl rfl

-- A row of another task never has the id of a row of this one.
theorem Waiting.foreign {u : State} (h : Waiting p s t) (hu : Waiting p s u) {r x : SubTask}
    (hr : r ∈ t.subTasks) (hp : r.parentId ≠ p) (hx : x ∈ u.subTasks) (hid : x.id = r.id) :
    x.parentId ≠ p := by
  intro hxp
  have hmem : x ∈ t.rowsOf p := h.rows.symm ▸ hu.rows ▸ mem_rowsOf.mpr ⟨hx, hxp⟩
  have heq : x = r := Rows.eq_of_key h.unique.subTasks (mem_rowsOf.mp hmem).1 hr hid
  exact hp (heq ▸ hxp)

theorem governs_waiting (hs : s.Unique) {q : Uuid} (hq : q ≠ p) : Governs (Waiting p s) q where
  write := by
    intro t task hid ht
    refine ⟨ht.unique.putTask task, ht.rows, ht.files, fun x hx hxid => ?_⟩
    obtain ⟨hx, -⟩ | rfl := (Rows.mem_put ht.unique.tasks).mp hx
    · exact ht.suspended x hx hxid
    · exact absurd (hid.symm.trans hxid) hq
  erase := fun t ht => ⟨ht.unique.dropTask q, ht.rows, ht.files,
    fun x hx => ht.suspended x (List.eraseP_sublist.subset hx)⟩
  free := by
    intro t r ht hr hparent
    have hp : r.parentId ≠ p := hparent ▸ hq
    refine ⟨?_, fun _ _ _ _ h => h.of_eq rfl rfl rfl, ?_⟩
    · rintro row row' ⟨u, hu, hrow, hid⟩ hsame v hv -
      have hrp := ht.foreign hu hr hp hrow hid
      refine ⟨hv.unique.putSubTask row', (rowsOf_put hv.unique (hsame.parentId ▸ hrp) ?_).trans
        hv.rows, hv.files, hv.suspended⟩
      exact fun y hy hyid => ht.foreign hv hr hp hy (hyid.trans (hsame.id.trans hid))
    · rintro file x status - - ⟨u, hu, hx⟩ - v hv hold
      exact ⟨hv.unique.putFile _, hv.rows, hv.files.put hs hv.unique hu.files hx rfl hold,
        hv.suspended⟩
  erasable := by
    intro t r ht hr hparent v hv
    have hp : r.parentId ≠ p := hparent ▸ hq
    refine ⟨hv.unique.dropSubTask r.id, (rowsOf_drop hv.unique ?_).trans hv.rows, hv.files,
      hv.suspended⟩
    exact fun y hy hyid => ht.foreign hv hr hp hy hyid
  starts := fun _ _ _ _ _ _ hv => hv.of_eq rfl rfl rfl

theorem scheduleNextTask_waiting (hs : s.Unique) :
    Upholds (Waiting p s) TaskScheduler.scheduleNextTask fun _ => True := by
  refine upholds_scheduleNextTask fun t q ht hnext => ?_
  refine (lenient_waiting p s).scheduleNextTaskById (governs_waiting hs ?_)
  rintro rfl
  obtain ⟨x, hx, hid⟩ := Option.map_eq_some_iff.mp hnext
  exact ht.suspended x (List.mem_of_find?_eq_some hx) hid (by simpa using List.find?_some hx)

end Pausing

structure Tables (s t : State) : Prop where
  tasks : t.tasks = s.tasks
  subTasks : t.subTasks = s.subTasks
  taskFiles : t.taskFiles = s.taskFiles

section Dropping

variable {p : Uuid} {s t : State} {env : Env} {pre : List SubTask}

theorem Tables.refl (s : State) : Tables s s := ⟨rfl, rfl, rfl⟩

theorem plain_tables (s : State) : Plain (Tables s) where
  nothing := fun _ _ h => ⟨h.tasks, h.subTasks, h.taskFiles⟩
  events := fun _ _ _ _ h => ⟨h.tasks, h.subTasks, h.taskFiles⟩

theorem wp_dropSubTask {id : Uuid} (h : Tables s t) :
    Effect.wp (exec (do
      op (SubTasks.deleteById id)
      op saveChanged : Op Unit)) env (fun _ => Tables (s.dropSubTask id)) (fun _ => True) t := by
  rw [exec_bind, Effect.wp_bind]
  change Effect.wp (SubTasks.deleteById id) env _ _ t
  simp only [SubTasks.deleteById, Effect.wp_bind, Effect.wp_get, Effect.wp_lift, Effect.wp_modify]
  refine ⟨fun rows hrows => ?_, fun _ => trivial⟩
  rw [Outcome.okOr_ok_iff, Rows.remove, Option.ite_none_right_eq_some] at hrows
  obtain ⟨-, heq⟩ := hrows
  cases heq
  have hdrop : Tables (s.dropSubTask id) (t.dropSubTask id) :=
    ⟨h.tasks, by rw [State.dropSubTask, h.subTasks]; rfl, h.taskFiles⟩
  have hsave : Upholds (Tables (s.dropSubTask id)) (op saveChanged) fun _ => True :=
    upholds_saveChanged (plain_tables _).nothing
  exact Effect.wp_mono (hsave.preserves env _ hdrop) (fun _ _ h => h.1) fun _ _ => trivial

theorem wp_deleteService {row : SubTask} {service : SubTaskService}
    (hservice : subTaskServices (.from row.taskType) = some service)
    (hrow : row.isPausable = true) :
    Effect.wp (exec (service.deleteSubTask row.id)) env
      (fun _ => Tables (s.dropSubTask row.id)) (fun _ => True) s := by
  have hget : Upholds (Tables s) (op (SubTasks.getById row.id)) fun x => x.id = row.id :=
    upholds_getSubTask.weaken fun _ h => h.choose_spec.2.2
  rw [SubTask.isPausable, decide_eq_true_eq] at hrow
  obtain htype | htype := hrow
  all_goals
    rw [htype] at hservice
    cases hservice
  · change Effect.wp (exec (DeploySoftware.deleteSubTask row.id)) env _ _ s
    rw [DeploySoftware.deleteSubTask, exec_bind, Effect.wp_bind]
    refine Effect.wp_mono (hget.preserves env s (.refl s)) ?_ fun _ _ => trivial
    rintro x t ⟨ht, -⟩
    rw [exec_bind, Effect.wp_bind]
    have hsend : Upholds (Tables s) (DeploySoftware.deploy x .suspended) fun _ => True :=
      upholds_send fun _ _ h => ⟨h.tasks, h.subTasks, h.taskFiles⟩
    exact Effect.wp_mono (hsend.preserves env t ht) (fun _ _ hu => wp_dropSubTask hu.1)
      fun _ _ => trivial
  · change Effect.wp (exec (RunJob.deleteSubTask row.id)) env _ _ s
    rw [RunJob.deleteSubTask, exec_bind, Effect.wp_bind]
    refine Effect.wp_mono (hget.preserves env s (.refl s)) ?_ fun _ _ => trivial
    rintro x t ⟨ht, -⟩
    rw [exec_bind, Effect.wp_bind]
    have hjob : Upholds (Tables s) (Prog.when (x.jobId ≠ "")
        (op (call (fun _ _ => ()) [.deleteJob x.jobId]))) fun _ => True :=
      Upholds.when fun _ => upholds_call (plain_tables s).nothing _ ((plain_tables s).events _ rfl)
    exact Effect.wp_mono (hjob.preserves env t ht) (fun _ _ hu => wp_dropSubTask hu.1)
      fun _ _ => trivial

theorem service_of_pausable {row : SubTask} (h : row.isPausable = true) :
    ∃ service, subTaskServices (.from row.taskType) = some service := by
  rw [SubTask.isPausable, decide_eq_true_eq] at h
  obtain h | h := h
  · exact ⟨_, by rw [h]; rfl⟩
  · exact ⟨_, by rw [h]; rfl⟩

-- Of the task's sub-tasks only the deployments and executions among the first ones are gone.
structure Dropping (p : Uuid) (s : State) (pre : List SubTask) (t : State) : Prop where
  unique : t.Unique
  apart : Apart p s t
  tasks : t.tasks = s.tasks
  rows : ∀ k, (p, k) ∈ t.subTasks.map SubTask.key ↔ (p, k) ∈ s.subTasks.map SubTask.key ∧
    ∀ x ∈ pre, x.isPausable = true → x.id ≠ k.1

theorem Dropping.tables (h : Dropping p s pre t) {u : State} (hu : Tables t u) :
    Dropping p s pre u :=
  ⟨h.unique.of_eq hu.tasks hu.subTasks hu.taskFiles,
    h.apart.of_eq hu.tasks hu.subTasks hu.taskFiles, hu.tasks.trans h.tasks, hu.subTasks ▸ h.rows⟩

theorem Dropping.drop (hs : s.Unique) (h : Dropping p s pre t) {x : SubTask}
    (hx : (p, x.id, x.taskType) ∈ s.subTasks.map SubTask.key) (hpause : x.isPausable = true) :
    Dropping p s (pre ++ [x]) (t.dropSubTask x.id) := by
  obtain ⟨y, hy, hid⟩ := mem_keys.mp hx
  obtain ⟨hmem, hparent⟩ := mem_rowsOf.mp hy
  have hyx : x.id = y.id := (congrArg Prod.fst hid).symm
  refine ⟨h.unique.dropSubTask x.id, h.apart.trans (apart_dropSubTask h.unique ?_), h.tasks, ?_⟩
  · intro r hr hrx
    by_contra hne
    have hr' : r ∈ s.subTasks := by
      have hfilter : r ∈ t.subTasks.filter fun r => r.parentId ≠ p :=
        List.mem_filter.mpr ⟨hr, by simpa using hne⟩
      rw [h.apart.subTasks] at hfilter
      exact List.mem_of_mem_filter hfilter
    exact hne (Rows.eq_of_key hs.subTasks hr' hmem (hrx.trans hyx) ▸ hparent)
  · intro k
    have hkeys : (p, k) ∈ (t.dropSubTask x.id).subTasks.map SubTask.key ↔
        (p, k) ∈ t.subTasks.map SubTask.key ∧ x.id ≠ k.1 := by
      change (p, k) ∈ (t.subTasks.eraseP fun y => y.id = x.id).map SubTask.key ↔ _
      rw [Rows.erase_eq_filter h.unique.subTasks]
      constructor
      · intro hk
        obtain ⟨z, hz, hzk⟩ := List.mem_map.mp hk
        obtain ⟨hz, hne⟩ := List.mem_filter.mp hz
        refine ⟨List.mem_map.mpr ⟨z, hz, hzk⟩, fun hid => of_decide_eq_true hne ?_⟩
        exact (congrArg (fun k => k.2.1) hzk).trans hid.symm
      · rintro ⟨hk, hne⟩
        obtain ⟨z, hz, hzk⟩ := List.mem_map.mp hk
        refine List.mem_map.mpr ⟨z, List.mem_filter.mpr ⟨hz, decide_eq_true ?_⟩, hzk⟩
        exact fun hid => hne (hid.symm.trans (congrArg (fun k => k.2.1) hzk))
    rw [hkeys, h.rows, and_assoc]
    simp [hpause, or_imp, forall_and]

theorem Dropping.skip (h : Dropping p s pre t) {x : SubTask} (hpause : x.isPausable = false) :
    Dropping p s (pre ++ [x]) t := by
  refine { h with rows := fun k => (h.rows k).trans (and_congr_right fun _ => ?_) }
  refine ⟨fun hall y hy hyp => ?_, fun hall y hy => hall y (List.mem_append_left _ hy)⟩
  obtain hy | hy := List.mem_append.mp hy
  · exact hall y hy hyp
  · rw [List.mem_singleton.mp hy, hpause] at hyp
    cases hyp

theorem wp_deleteRows (hs : s.Unique) {body : List SubTask}
    (hbody : ∀ x ∈ body, (p, x.id, x.taskType) ∈ s.subTasks.map SubTask.key) :
    Effect.wp (exec (TaskScheduler.deleteSubTasks body)) env (fun _ => Dropping p s body)
      (fun _ => True) s := by
  rw [TaskScheduler.deleteSubTasks, exec_each]
  refine Effect.wp_each (Dropping p s) body ?_ ⟨hs, .refl s, rfl, fun k => by simp⟩
  rintro pre x post rfl t ht
  have hx := hbody x (by simp)
  split
  · next service hservice =>
    rw [exec_bind, Effect.wp_bind]
    let u : State := { t with trace := t.trace ++ [.removed x.id] }
    change Effect.wp (exec (service.deleteSubTask x.id)) env _ _ u
    have hu : Dropping p s pre u := ht.tables ⟨rfl, rfl, rfl⟩
    cases hpause : x.isPausable with
    | true =>
      exact Effect.wp_mono (wp_deleteService hservice hpause)
        (fun _ _ hv => (hu.drop hs hx hpause).tables hv) fun _ _ => trivial
    | false =>
      cases htype : TaskDisplayType.from x.taskType with
      | collectedOut =>
        rw [htype] at hservice
        cases hservice
        exact hu.skip hpause
      | unknown => rw [htype] at hservice; cases hservice
      | softwareDeployment => simp [SubTask.isPausable, htype] at hpause
      | usecaseExecution => simp [SubTask.isPausable, htype] at hpause
  · next hnone =>
    have hpause : x.isPausable = false := by
      by_contra hpause
      obtain ⟨service, hservice⟩ := service_of_pausable (by simpa using hpause)
      rw [hnone] at hservice
      cases hservice
    exact ht.skip hpause

end Dropping

-- After the optional pause and the scheduling it ends with.
structure Left (s : State) (env : Env) (p : Uuid) (t : State) : Prop where
  unique : t.Unique
  rows : SameRows p s t
  files : SameFiles s t
  running : s.isRunning p = true → ∃ u, Apart p s u ∧
    TaskScheduler.scheduleNextTask.exec env u = (.ok (), t)
  resting : s.isRunning p = false → t = s

section Deleting

variable {p : Uuid} {s t : State} {env : Env}

theorem wp_suspendRunning (hs : s.Unique) {x task : Task}
    (hx : Rows.find Task.id p s.tasks = some x) (hid : task.id = x.id)
    (hstatus : task.status = x.status) (hbody : task.body = s.rowsOf p) :
    Effect.wp (exec (TaskScheduler.suspendRunning task)) env (fun _ => Left s env p)
      (fun _ => True) s := by
  have hxid : x.id = p := by simpa using List.find?_some hx
  have hrun : s.isRunning p = decide (task.status = .running) := by
    rw [State.isRunning, hx, Option.any_some, hstatus]
  unfold TaskScheduler.suspendRunning Prog.when
  split
  · next hrunning =>
    rw [exec_bind, Effect.wp_bind]
    refine wp_releaseTasksCount (fun _ => ?_) trivial
    let w : State := { s with
      tasksCount := s.tasksCount - 1, trace := s.trace ++ [.paused (task.body.map SubTask.id)] }
    have hpause := pauseSubTasks_pausing p s
    rw [← hbody] at hpause
    have hw : Pausing p s w :=
      ⟨hs.of_eq rfl rfl rfl, ⟨rfl, rfl, rfl⟩, fun _ => Iff.rfl, rfl⟩
    rw [exec_bind, Effect.wp_bind]
    refine Effect.wp_mono (hpause.preserves env w hw) ?_ fun _ _ => trivial
    rintro - t ⟨ht, -⟩
    rw [exec_bind, Effect.wp_bind]
    have hmem : ∃ y ∈ t.tasks, y.id = ({ task with status := .suspended } : Task).id :=
      ⟨x, ht.tasks ▸ List.mem_of_find?_eq_some hx, hid.symm⟩
    refine wp_updateTask hmem ?_
    let parked : Task := { task with status := .suspended, updateTime := env.now }
    have hpid : parked.id = p := hid.trans hxid
    let u : State := t.putTask parked
    have hu : Waiting p u u := by
      refine ⟨ht.unique.putTask parked, rfl, .refl u, fun y hy hyid => ?_⟩
      obtain ⟨-, hne⟩ | rfl := (Rows.mem_put ht.unique.tasks).mp hy
      · exact absurd (hyid.trans hpid.symm) hne
      · simp [parked]
    have hapart : Apart p s u := ht.apart.trans (apart_putTask ht.unique hpid)
    change Effect.wp (exec (op saveChanged >>= fun _ => TaskScheduler.scheduleNextTask)) env _ _ u
    rw [exec_bind, Effect.wp_bind]
    have hsave : Upholds (fun v => Waiting p u v ∧ Apart p s v ∧ SameRows p s v) (op saveChanged)
        fun _ => True :=
      upholds_saveChanged fun v _ hv =>
        ⟨hv.1.of_eq rfl rfl rfl, hv.2.1.of_eq rfl rfl rfl, hv.2.2.of_eq rfl⟩
    refine Effect.wp_mono (hsave.preserves env u ⟨hu, hapart, ht.rows⟩) ?_ fun _ _ => trivial
    rintro - v ⟨⟨hwait, hvapart, hvrows⟩, -⟩
    refine Effect.wp_mono (Effect.wp_and (Effect.wp_result _ env v)
      ((scheduleNextTask_waiting hu.unique).preserves env v hwait)) ?_ fun _ _ => trivial
    rintro _ z ⟨hnext, hz, -⟩
    refine ⟨hz.unique, hvrows.of_rowsOf (hz.rows.trans hwait.rows.symm), fun k => ?_,
      fun _ => ⟨v, hvapart, hnext⟩, fun h => ?_⟩
    · rw [hz.files k, hapart.taskFiles]
    · rw [hrun, decide_eq_false_iff_not] at h
      exact absurd hrunning h
  · next hresting =>
    refine ⟨hs, fun _ => Iff.rfl, .refl s, fun h => ?_, fun _ => rfl⟩
    rw [hrun, decide_eq_true_eq] at h
    exact absurd h hresting

theorem wp_dropTask (s : State) (p : Uuid) (isInternal : Bool) :
    Effect.wp (exec (do
      op (Tasks.deleteById p)
      Prog.when (isInternal = false) (TaskReport.reportDeletedTask p)
      op saveChanged : Op Unit)) env (fun _ => Tables (s.dropTask p)) (fun _ => True) s := by
  rw [exec_bind, Effect.wp_bind]
  change Effect.wp (Tasks.deleteById p) env _ _ s
  simp only [Tasks.deleteById, Effect.wp_bind, Effect.wp_get, Effect.wp_lift, Effect.wp_modify]
  refine ⟨fun rows hrows => ?_, fun _ => trivial⟩
  rw [Outcome.okOr_ok_iff, Rows.remove, Option.ite_none_right_eq_some] at hrows
  obtain ⟨-, heq⟩ := hrows
  cases heq
  have hplain := plain_tables (s.dropTask p)
  have hreport : Upholds (Tables (s.dropTask p))
      (Prog.when (isInternal = false) (TaskReport.reportDeletedTask p)) fun _ => True :=
    Upholds.when fun _ => upholds_call hplain.nothing _ fun _ _ h => ⟨h.tasks, h.subTasks, h.taskFiles⟩
  have hrest := hreport.bind fun _ _ => upholds_saveChanged hplain.nothing
  exact Effect.wp_mono (hrest.preserves env _ (.refl _)) (fun _ _ h => h.1) fun _ _ => trivial

-- What is left when the deletion returns.
structure Remainder (s : State) (env : Env) (p : Uuid) (t : State) : Prop where
  task : ∀ x ∈ t.tasks, x.id ≠ p
  rows : ∀ k, (p, k) ∈ t.subTasks.map SubTask.key ↔ (p, k) ∈ s.subTasks.map SubTask.key ∧
    ∀ x ∈ s.rowsOf p, x.isPausable = true → x.id ≠ k.1
  files : SameFiles s t
  untouched : Untouched s env p t

theorem wp_deleteTask (hs : s.Unique) (isInternal : Bool) :
    Effect.wp (exec (TaskScheduler.deleteTask p isInternal)) env (fun _ => Remainder s env p)
      (fun _ => True) s := by
  rw [TaskScheduler.deleteTask, exec_bind, Effect.wp_bind]
  refine Effect.wp_mono wp_getTask ?_ fun _ _ => trivial
  rintro task s ⟨rfl, hbody, x, hx, hid, hstatus⟩
  rw [exec_bind, Effect.wp_bind]
  refine Effect.wp_mono (wp_suspendRunning hs hx hid hstatus hbody) ?_ fun _ _ => trivial
  intro _ v hv
  rw [exec_bind, Effect.wp_bind]
  have hkeys : ∀ r ∈ task.body, (p, r.id, r.taskType) ∈ v.subTasks.map SubTask.key := by
    intro r hr
    rw [hbody] at hr
    exact (hv.rows _).mpr (mem_keys.mpr ⟨r, hr, rfl⟩)
  refine Effect.wp_mono (wp_deleteRows hv.unique hkeys) ?_ fun _ _ => trivial
  intro _ w hw
  refine Effect.wp_mono (wp_dropTask w p isInternal) ?_ fun _ _ => trivial
  intro _ t ht
  have hdrop : Apart p v t := hw.apart.trans
    ((apart_dropTask hw.unique).of_eq ht.tasks ht.subTasks ht.taskFiles)
  refine ⟨fun y hy => ?_, fun k => ?_, fun k => ?_, fun hrun => ?_, fun hrest => ?_⟩
  · rw [ht.tasks, State.dropTask, Rows.erase_eq_filter hw.unique.tasks] at hy
    simpa using (List.mem_filter.mp hy).2
  · rw [ht.subTasks]
    exact (hw.rows k).trans (and_congr (hv.rows k) (by rw [hbody]))
  · rw [hdrop.taskFiles]
    exact hv.files k
  · obtain ⟨u, hu, hnext⟩ := hv.running hrun
    exact ⟨u, v, hu, hnext, hdrop⟩
  · exact hv.resting hrest ▸ hdrop

theorem Remainder.iff_deletable (hs : s.Unique) (h : Remainder s env p t) :
    Deleted s env p t ↔ Deletable s p := by
  constructor
  · rintro ⟨⟨-, hrows, hfiles⟩, -⟩
    refine ⟨fun r hr => ?_, fun f hf r hr => ?_⟩
    · by_contra hpause
      have hkey : (p, r.id, r.taskType) ∈ t.subTasks.map SubTask.key := by
        refine (h.rows _).mpr ⟨mem_keys.mpr ⟨r, hr, rfl⟩, fun x hx hxp hid => hpause ?_⟩
        have hxr : x = r :=
          Rows.eq_of_key hs.subTasks (mem_rowsOf.mp hx).1 (mem_rowsOf.mp hr).1 hid
        exact hxr ▸ hxp
      obtain ⟨y, hy, -⟩ := mem_keys.mp hkey
      exact hrows y (mem_rowsOf.mp hy).1 (mem_rowsOf.mp hy).2
    · obtain ⟨g, hg, hkey⟩ := List.mem_map.mp ((h.files f.key).mpr (List.mem_map_of_mem hf))
      have hrelated : g.relatedTaskBody = f.relatedTaskBody := congrArg (fun k => k.2.1) hkey
      exact hrelated ▸ hfiles g hg r hr
  · rintro ⟨hpausable, hfileless⟩
    refine ⟨⟨h.task, fun r hr hparent => ?_, fun f hf r hr => ?_⟩, h.untouched⟩
    · have hkey : (p, r.id, r.taskType) ∈ t.subTasks.map SubTask.key :=
        mem_keys.mpr ⟨r, mem_rowsOf.mpr ⟨hr, hparent⟩, rfl⟩
      obtain ⟨hold, hnot⟩ := (h.rows _).mp hkey
      obtain ⟨y, hy, hid⟩ := mem_keys.mp hold
      exact hnot y hy (hpausable y hy) (congrArg Prod.fst hid)
    · obtain ⟨g, hg, hkey⟩ := List.mem_map.mp ((h.files f.key).mp (List.mem_map_of_mem hf))
      have hrelated : g.relatedTaskBody = f.relatedTaskBody := congrArg (fun k => k.2.1) hkey
      exact hrelated ▸ hfileless g hg r hr

theorem deleted_iff {maxTasksCount : Nat} {turns : List Turn} {isInternal : Bool}
    (h : (TaskScheduler.deleteTask p isInternal).exec env
      (run step (State.initial maxTasksCount) turns) = (.ok (), t)) :
    Deleted (run step (State.initial maxTasksCount) turns) env p t ↔
      Deletable (run step (State.initial maxTasksCount) turns) p :=
  have hs := run_unique maxTasksCount turns
  ((Effect.wp_of_eq h).mp (wp_deleteTask hs isInternal)).iff_deletable hs

-- The row of a collection stays.
theorem delete_keeps_collection : ¬∀ (maxTasksCount : Nat) (turns : List Turn) (env : Env) (p : Uuid)
    (isInternal : Bool) (t : State), (TaskScheduler.deleteTask p isInternal).exec env
      (run step (State.initial maxTasksCount) turns) = (.ok (), t) →
      Deleted (run step (State.initial maxTasksCount) turns) env p t := by
  intro h
  have hrows : ∃ t, (TaskScheduler.deleteTask 7 false).exec sampleEnv
      (run step (State.initial 0) ((sampleRun.take 1).map (Turn.mk sampleEnv))) = (.ok (), t) ∧
      ∃ r ∈ t.subTasks, r.parentId = 7 := by
    refine ⟨_, Prod.ext (by decide +kernel) rfl, by decide +kernel⟩
  obtain ⟨t, ht, r, hr, hparent⟩ := hrows
  exact (h 0 _ sampleEnv 7 false t ht).gone.subTasks r hr hparent

theorem deleted_iff_single : ∃ t,
    (TaskScheduler.deleteTask 7 false).exec sampleEnv (run step (State.initial 0)
      [⟨sampleEnv, .message ⟨7, sampleBody.take 1, .start⟩⟩]) = (.ok (), t) ∧
    (Deleted (run step (State.initial 0) [⟨sampleEnv, .message ⟨7, sampleBody.take 1, .start⟩⟩])
        sampleEnv 7 t ↔
      Deletable (run step (State.initial 0)
        [⟨sampleEnv, .message ⟨7, sampleBody.take 1, .start⟩⟩]) 7) := by
  have hok : ∃ t, (TaskScheduler.deleteTask 7 false).exec sampleEnv (run step (State.initial 0)
      [⟨sampleEnv, .message ⟨7, sampleBody.take 1, .start⟩⟩]) = (.ok (), t) :=
    ⟨_, Prod.ext (by decide +kernel) rfl⟩
  obtain ⟨t, ht⟩ := hok
  exact ⟨t, ht, deleted_iff ht⟩

end Deleting

end Kuintessence.Agent

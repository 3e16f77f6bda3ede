import Kuintessence.Agent.Arrival

namespace Kuintessence.Agent

open Prog

-- A sub-task of the task was dispatched and has not left.
def State.Tracks (s : State) (q : Uuid) : Prop :=
  ∃ r ∈ s.subTasks, r.parentId = q ∧ r.id ∈ outstanding s.trace

def Task.isResting (task : Task) : Bool :=
  task.status = .queuing ∨ task.status = .suspended ∨ task.status = .completed ∨
    task.status = .failed

def State.runs (s : State) (q : Uuid) : Prop := ∃ task ∈ s.tasks, task.id = q ∧ task.status = .running

-- Every task that runs or is watched, where it is `on`, has a sub-task under way.
structure HeldOn (parent : Uuid → Uuid) (watch on : Uuid → Prop) (s : State) : Prop where
  distinct : s.Distinct
  parents : ∀ r ∈ s.subTasks, r.parentId = parent r.id
  known : ∀ task ∈ s.tasks, task.isResting = true ∨ task.status = .running
  tracks : ∀ q, watch q ∨ s.runs q → on q → s.Tracks q

abbrev Held (parent : Uuid → Uuid) : State → Prop := HeldOn parent (fun _ => False) fun _ => True

abbrev HeldBut (parent : Uuid → Uuid) (q : Uuid) : State → Prop :=
  HeldOn parent (fun _ => False) fun x => x ≠ q

-- What a sub-task of the task needs to be dispatched after `n` more calls.
structure Dispatching (env : Env) (s : State) (q : Uuid) (n : Nat) : Prop where
  clear : ¬Blocked env s n
  idle : ∀ r ∈ s.rowsOf q, r.isBusy = false
  waiting : ∃ r ∈ s.rowsOf q, r.isWaiting = true
  room : s.isFull = false
  counts : s.tasksCount + 1 < 2 ^ 32

def passCalls (status : TaskStatus) : Nat := if status = .queuing then 2 else 1

section Held

variable {parent : Uuid → Uuid} {watch on : Uuid → Prop} {q : Uuid} {s t : State}

theorem HeldOn.mono (h : HeldOn parent watch on s) {watch' on' : Uuid → Prop}
    (hwatch : ∀ q, watch' q → watch q) (hon : ∀ q, on' q → on q) : HeldOn parent watch' on' s :=
  { h with tracks := fun q hq hq' => h.tracks q (hq.imp_left (hwatch q)) (hon q hq') }

theorem HeldOn.but (h : Held parent s) (q : Uuid) : HeldBut parent q s :=
  h.mono (fun _ => id) fun _ _ => trivial

theorem HeldOn.full (h : HeldBut parent q s) (hq : s.runs q → s.Tracks q) : Held parent s := by
  refine { h with tracks := fun x hx _ => ?_ }
  by_cases hxq : x = q
  · subst hxq
    exact hq (hx.resolve_left id)
  · exact h.tracks x hx hxq

theorem HeldOn.of_eq (h : HeldOn parent watch on s) (htasks : t.tasks = s.tasks)
    (hsubTasks : t.subTasks = s.subTasks) (hnext : t.nextId = s.nextId)
    (hout : ∀ i ∈ outstanding s.trace, on (parent i) → i ∈ outstanding t.trace) :
    HeldOn parent watch on t := by
  refine ⟨h.distinct.of_eq htasks hsubTasks hnext, hsubTasks ▸ h.parents, htasks ▸ h.known,
    fun q hq hon => ?_⟩
  rw [State.runs, htasks] at hq
  obtain ⟨r, hr, rfl, hmem⟩ := h.tracks q hq hon
  refine ⟨r, hsubTasks ▸ hr, rfl, hout r.id hmem ?_⟩
  rwa [← h.parents r hr]

theorem HeldOn.of_same (h : HeldOn parent watch on s) (htasks : t.tasks = s.tasks)
    (hsubTasks : t.subTasks = s.subTasks) (hnext : t.nextId = s.nextId)
    (hout : outstanding t.trace = outstanding s.trace) : HeldOn parent watch on t :=
  h.of_eq htasks hsubTasks hnext fun _ hi _ => hout.symm ▸ hi

theorem State.Tracks.of_eq (h : s.Tracks q) (hsubTasks : t.subTasks = s.subTasks)
    (hout : outstanding t.trace = outstanding s.trace) : t.Tracks q := by
  obtain ⟨r, hr, hparent, hmem⟩ := h
  exact ⟨r, hsubTasks ▸ hr, hparent, hout ▸ hmem⟩

theorem runs_putTask (hs : s.Distinct) {task : Task} :
    (s.putTask task).runs q ↔ if task.id = q then task.status = .running else s.runs q := by
  split
  · next hid =>
    constructor
    · rintro ⟨x, hx, hxq, hrun⟩
      obtain ⟨-, hne⟩ | rfl := (Rows.mem_put hs.keyed).mp hx
      · exact absurd (hxq.trans hid.symm) hne
      · exact hrun
    · exact fun hrun => ⟨task, (Rows.mem_put hs.keyed).mpr (.inr rfl), hid, hrun⟩
  · next hid =>
    constructor
    · rintro ⟨x, hx, hxq, hrun⟩
      obtain ⟨hx, -⟩ | rfl := (Rows.mem_put hs.keyed).mp hx
      · exact ⟨x, hx, hxq, hrun⟩
      · exact absurd hxq hid
    · rintro ⟨x, hx, hxq, hrun⟩
      have hne : x.id ≠ task.id := fun heq => hid (heq.symm.trans hxq)
      exact ⟨x, (Rows.mem_put hs.keyed).mpr (.inl ⟨hx, hne⟩), hxq, hrun⟩

theorem not_running_of_resting {task : Task} (h : task.isResting = true) :
    task.status ≠ .running := by
  intro hrun
  simp [Task.isResting, hrun] at h

theorem HeldOn.putTask (h : HeldOn parent watch on s) {task : Task}
    (hstatus : task.isResting = true ∨ task.status = .running ∧ ¬on task.id) :
    HeldOn parent watch on (s.putTask task) := by
  refine ⟨h.distinct.putTask task, h.parents, fun x hx => ?_, fun q hq hon => ?_⟩
  · obtain ⟨hx, -⟩ | rfl := (Rows.mem_put h.distinct.keyed).mp hx
    · exact h.known x hx
    · exact hstatus.imp_right And.left
  · refine h.tracks q (hq.imp_right fun hrun => ?_) hon
    rw [runs_putTask h.distinct] at hrun
    split at hrun
    · next hid =>
      obtain hrest | ⟨-, hnot⟩ := hstatus
      · exact absurd hrun (not_running_of_resting hrest)
      · exact absurd (hid ▸ hon) hnot
    · exact hrun

theorem HeldOn.rest (h : HeldOn parent watch (fun x => x ≠ q) s) {task : Task} (hid : task.id = q)
    (hrest : task.isResting = true) : Held parent (s.putTask task) := by
  have hbut : HeldBut parent q s := h.mono (fun _ => False.elim) fun _ => id
  refine HeldOn.full (hbut.putTask (.inl hrest)) fun hrun => ?_
  rw [runs_putTask h.distinct, if_pos hid] at hrun
  exact absurd hrun (not_running_of_resting hrest)

theorem HeldOn.dropTask (h : HeldOn parent watch on s) (id : Uuid) :
    HeldOn parent watch on (s.dropTask id) where
  distinct := { h.distinct with keyed := h.distinct.keyed.sublist (List.eraseP_sublist.map _) }
  parents := h.parents
  known := fun x hx => h.known x (List.eraseP_sublist.subset hx)
  tracks := fun q hq => h.tracks q <| hq.imp_right fun ⟨x, hx, hrun⟩ =>
    ⟨x, List.eraseP_sublist.subset hx, hrun⟩

theorem HeldOn.putSubTask (h : HeldOn parent watch on s) {row : SubTask}
    (hrow : row.parentId = parent row.id) (hold : ∃ x ∈ s.subTasks, x.id = row.id) :
    HeldOn parent watch on (s.putSubTask row) := by
  refine ⟨h.distinct.putSubTask hold, fun r hr => ?_, h.known, fun q hq hon => ?_⟩
  · obtain ⟨hr, -⟩ | rfl := (Rows.mem_put h.distinct.nodup).mp hr
    · exact h.parents r hr
    · exact hrow
  · obtain ⟨r, hr, hparent, hmem⟩ := h.tracks q hq hon
    by_cases hid : r.id = row.id
    · refine ⟨row, (Rows.mem_put h.distinct.nodup).mpr (.inr rfl), ?_, hid ▸ hmem⟩
      rw [hrow, ← hid, ← h.parents r hr, hparent]
    · exact ⟨r, (Rows.mem_put h.distinct.nodup).mpr (.inl ⟨hr, hid⟩), hparent, hmem⟩

theorem HeldOn.dropSubTask (h : HeldOn parent watch on s) {id : Uuid} (hid : ¬on (parent id)) :
    HeldOn parent watch on (s.dropSubTask id) := by
  refine ⟨h.distinct.dropSubTask id, fun r hr => h.parents r (List.eraseP_sublist.subset hr),
    h.known, fun q hq hon => ?_⟩
  obtain ⟨r, hr, hparent, hmem⟩ := h.tracks q hq hon
  refine ⟨r, ?_, hparent, hmem⟩
  change r ∈ s.subTasks.eraseP fun x => x.id = id
  rw [Rows.erase_eq_filter h.distinct.nodup]
  refine List.mem_filter.mpr ⟨hr, decide_eq_true fun heq => hid ?_⟩
  rwa [← heq, ← h.parents r hr, hparent]

theorem outstanding_plain {e : Event} (h : e.isAccounted = false) (trace : List Event) :
    outstanding (trace ++ [e]) = outstanding trace :=
  outstanding_append_plain trace (by simpa using h)

theorem plain_held (parent : Uuid → Uuid) (watch on : Uuid → Prop) :
    Plain (HeldOn parent watch on) where
  nothing := fun s _ h => h.of_same rfl rfl rfl (by rw [List.append_nil])
  events := fun e he s _ h => h.of_same rfl rfl rfl
    (outstanding_plain (by cases e <;> first | rfl | cases he) s.trace)

theorem free_held (parent : Uuid → Uuid) (watch on : Uuid → Prop) (id : Uuid) :
    Free (HeldOn parent watch on) id where
  rows := by
    rintro row row' ⟨u, hu, hmem, rfl⟩ hsame s hs hold
    refine hs.putSubTask ?_ hold
    rw [hsame.parentId, hsame.id]
    exact hu.parents row hmem
  events := fun e he s _ h => h.of_same rfl rfl rfl
    (outstanding_plain (by cases e <;> first | rfl | cases he) s.trace)
  files := fun _ _ _ _ _ _ _ _ h _ => h.of_same rfl rfl rfl rfl

-- The event leaves those that are `on` among the dispatched sub-tasks.
def Event.Spares (on : Uuid → Prop) (e : Event) : Prop :=
  ∀ ids : List Uuid, ∀ i ∈ ids, on i → i ∈ e.account ids

theorem spares_paused {p : Uuid} {xs : List Uuid} (h : ∀ x ∈ xs, parent x = p) :
    Event.Spares (fun i => parent i ≠ p) (.paused xs) := fun _ i hi hne =>
  List.mem_filter.mpr ⟨hi, decide_eq_true fun hmem => hne (h i hmem)⟩

theorem spares_removed {x : Uuid} : Event.Spares (fun i => parent i ≠ parent x) (.removed x) :=
  fun _ _ hi hne => List.mem_filter.mpr ⟨hi, decide_eq_true fun heq => hne (congrArg parent heq)⟩

theorem spares_finished {x : Uuid} : Event.Spares (fun i => parent i ≠ parent x) (.finished x) :=
  fun _ _ hi hne => List.mem_filter.mpr ⟨hi, decide_eq_true fun heq => hne (congrArg parent heq)⟩

theorem spares_failed {x : Uuid} : Event.Spares (fun i => parent i ≠ parent x) (.failed x) :=
  fun _ _ hi hne => List.mem_filter.mpr ⟨hi, decide_eq_true fun heq => hne (congrArg parent heq)⟩

theorem HeldOn.leave (h : HeldOn parent watch on s) {e : Event}
    (he : e.Spares fun i => on (parent i)) (htasks : t.tasks = s.tasks)
    (hsubTasks : t.subTasks = s.subTasks) (hnext : t.nextId = s.nextId)
    (htrace : t.trace = s.trace ++ [e]) : HeldOn parent watch on t := by
  refine h.of_eq htasks hsubTasks hnext fun i hi hon => ?_
  rw [htrace, outstanding_append]
  exact he _ i hi hon

theorem emits_held {e : Event} (he : e.Spares fun i => on (parent i)) :
    Emits (HeldOn parent watch on) [e] := fun _ _ h => h.leave he rfl rfl rfl rfl

theorem pauseSubTasks_held {body : List SubTask} (hbody : ∀ row ∈ body, parent row.id = q) :
    Upholds (HeldOn parent watch fun x => x ≠ q) (TaskScheduler.pauseSubTasks body)
      fun _ => True := by
  refine upholds_pauseRows (plain_held parent watch _) fun row hrow => ?_
  have hfree := free_held parent watch (fun x => x ≠ q) row.id
  refine ⟨emits_held (spares_paused fun x hx => ?_), hfree.status _, hfree.deploys _⟩
  rw [List.mem_singleton.mp hx, hbody row hrow]

theorem deleteSubTasks_held {body : List SubTask} (hbody : ∀ row ∈ body, parent row.id = q) :
    Upholds (HeldOn parent watch fun x => x ≠ q) (TaskScheduler.deleteSubTasks body)
      fun _ => True := by
  refine upholds_deleteRows (plain_held parent watch _) fun row hrow => ?_
  have hfree := free_held parent watch (fun x => x ≠ q) row.id
  have hparent := hbody row hrow
  refine ⟨emits_held ?_, fun s hs => hs.dropSubTask fun hne => hne hparent, hfree.deploys _⟩
  exact hparent ▸ spares_removed

end Held

section Primitives

variable {s : State} {env : Env}

theorem wp_findTask {q : Uuid} {Q : Task → State → Prop} {E : State → Prop}
    (hQ : ∀ x, Rows.find Task.id q s.tasks = some x → Q { x with body := s.rowsOf q } s)
    (hE : Rows.find Task.id q s.tasks = none → E s) :
    Effect.wp (exec (op (Tasks.getById q))) env Q E s := by
  change Effect.wp (Tasks.getById q) env Q E s
  simp only [Tasks.getById, Effect.wp_bind, Effect.wp_get, Effect.wp_lift, Effect.wp_pure]
  cases hx : Rows.find Task.id q s.tasks with
  | none => exact ⟨fun _ h => (by cases h), fun _ => hE hx⟩
  | some x => exact ⟨fun y hy => by cases hy; exact hQ x hx, fun h => absurd rfl (h x)⟩

theorem wp_callOnce {α : Type} (answer : Env → Nat → α) (events : List Event)
    {Q : α → State → Prop} {E : State → Prop}
    (hQ : env.fails s.calls = none → Q (answer env s.calls)
      { s with calls := s.calls + 1, trace := s.trace ++ events })
    (hE : (env.fails s.calls).isSome = true → E { s with calls := s.calls + 1 }) :
    Effect.wp (exec (op (call answer events))) env Q E s := by
  change Effect.wp (call answer events) env Q E s
  unfold Effect.wp call
  cases hfails : env.fails s.calls with
  | none => exact hQ hfails
  | some e => exact hE (by rw [hfails]; rfl)

end Primitives

section Pass

variable {parent : Uuid → Uuid} {q : Uuid} {s : State} {env : Env}

theorem HeldOn.tracked (h : HeldBut parent q s) (ht : s.Tracks q) : Held parent s :=
  HeldOn.full h fun _ => ht

theorem upholds_startHeld {row : SubTask} {type : TaskDisplayType} {service : SubTaskService}
    (hservice : subTaskServices type = some service) :
    Upholds (Held parent) (TaskScheduler.startSubTask row service) fun _ => True :=
  upholds_startSubTask (plain_held parent _ _)
    (fun s h => h.of_same rfl rfl rfl (outstanding_plain rfl s.trace)) (free_held parent _ _ row.id)
    hservice

theorem wp_dispatch (h : HeldBut parent q s) {row : SubTask} (hrow : row ∈ s.rowsOf q)
    (hready : s.Tracks q ∨ s.isFull = false ∧ s.tasksCount + 1 < 2 ^ 32) :
    Effect.wp (exec (TaskScheduler.dispatch row)) env (fun _ => Held parent) (Held parent) s := by
  obtain ⟨hmem, hparent⟩ := List.mem_filter.mp hrow
  simp only [TaskScheduler.dispatch, TaskScheduler.loadTasksCount, op, exec_bind, exec_atom,
    Effect.wp_bind, Effect.wp_get, Effect.wp_pure]
  split
  · next hfull =>
    refine HeldOn.tracked h (hready.resolve_right fun hroom => ?_)
    simp [State.isFull, hfull] at hroom
  · rw [exec_bind, Effect.wp_bind, exec_done, Effect.wp_lift]
    refine ⟨fun count _ => ?_,
      fun hpanic => HeldOn.tracked h (hready.resolve_right fun hroom => ?_)⟩
    · let t : State := { s with tasksCount := count, trace := s.trace ++ [.dispatched row.id] }
      have hout : outstanding t.trace = (outstanding s.trace).insert row.id :=
        outstanding_append s.trace _
      have hbut : HeldBut parent q t := h.of_eq rfl rfl rfl fun i hi _ => by
        rw [hout]
        exact List.mem_insert_of_mem hi
      have ht : Held parent t := HeldOn.tracked hbut
        ⟨row, hmem, of_decide_eq_true hparent, by rw [hout]; exact List.mem_insert_self⟩
      have hrest : Upholds (Held parent) (do
          let service ← Prog.done (.okOr
            ("No such sub task service called " ++ (TaskDisplayType.from row.taskType).text)
            (subTaskServices (TaskDisplayType.from row.taskType)))
          TaskScheduler.startSubTask row service : Op Unit) fun _ => True :=
        Upholds.bind (upholds_done fun _ h => Outcome.okOr_ok_iff.mp h) fun _ hservice =>
          upholds_startHeld hservice
      rw [exec_bind, Effect.wp_bind]
      change Effect.wp (exec _) env _ _ t
      exact Effect.wp_mono (hrest.preserves env t ht) (fun _ _ h => h.1) fun _ h => h
    · refine hpanic (s.tasksCount + 1) ?_
      rw [TaskScheduler.checkedAdd, if_pos hroom.2]

-- After the task was saved as running.
theorem wp_announce (h : HeldBut parent q s) {body : List SubTask} (hbody : body = s.rowsOf q)
    {text : String}
    (hready : s.Tracks q ∨ Dispatching env s q 1) :
    Effect.wp (exec (do
      TaskReport.reportStartedTask q
      if body.any SubTask.isBusy then pure ()
      else do
        let taskBody ← Prog.done (.okOr text (body.find? SubTask.isWaiting))
        TaskScheduler.dispatch taskBody : Op Unit)) env (fun _ => Held parent) (Held parent) s := by
  subst hbody
  rw [exec_bind, Effect.wp_bind]
  refine wp_callOnce _ _ (fun hfine => ?_) fun hfails => ?_
  · let t : State := { s with
      calls := s.calls + 1, trace := s.trace ++ [.reported .start q "" none] }
    have hout : outstanding t.trace = outstanding s.trace := outstanding_plain rfl s.trace
    have ht : HeldBut parent q t := h.of_same rfl rfl rfl hout
    have htracks (hs : s.Tracks q) : t.Tracks q := hs.of_eq rfl hout
    change Effect.wp (exec _) env _ _ t
    split
    · next hbusy =>
      refine HeldOn.tracked ht (htracks (hready.resolve_right fun hd => ?_))
      obtain ⟨r, hr, hrbusy⟩ := List.any_eq_true.mp hbusy
      rw [hd.idle r hr] at hrbusy
      cases hrbusy
    · rw [exec_bind, Effect.wp_bind, exec_done, Effect.wp_lift]
      refine ⟨fun row hrow => ?_,
        fun hnone => HeldOn.tracked ht (htracks (hready.resolve_right ?_))⟩
      · rw [Outcome.okOr_ok_iff] at hrow
        exact wp_dispatch ht (List.mem_of_find?_eq_some hrow)
          (hready.imp htracks fun hd => ⟨hd.room, hd.counts⟩)
      · intro hd
        obtain ⟨r, hr, hwait⟩ := hd.waiting
        obtain ⟨x, hx⟩ := Option.isSome_iff_exists.mp (List.find?_isSome.mpr ⟨r, hr, hwait⟩)
        exact hnone x (by rw [hx]; rfl)
  · have htracks := hready.resolve_right fun hd => hd.clear ⟨0, Nat.one_pos, hfails⟩
    exact (HeldOn.tracked h htracks).of_same rfl rfl rfl rfl

theorem Dispatching.next (h : Dispatching env s q 2) {t : State} (hsubTasks : t.subTasks = s.subTasks)
    (hcount : t.tasksCount = s.tasksCount) (hmax : t.maxTasksCount = s.maxTasksCount)
    (hcalls : t.calls = s.calls + 1) : Dispatching env t q 1 := by
  have hrows : t.rowsOf q = s.rowsOf q := by rw [State.rowsOf, hsubTasks]; rfl
  refine ⟨?_, hrows ▸ h.idle, hrows ▸ h.waiting, ?_, hcount ▸ h.counts⟩
  · rintro ⟨k, hlt, hfails⟩
    rw [hcalls, Nat.add_assoc] at hfails
    exact h.clear ⟨1 + k, by omega, hfails⟩
  · rw [State.isFull, hcount, hmax]
    exact h.room

theorem wp_makeRunning (h : HeldBut parent q s) {task : Task} (hid : task.id = q)
    (hmem : ∃ x ∈ s.tasks, x.id = q ∧ x.status = task.status)
    (hready : task.status = .queuing ∨ task.status = .running →
      s.Tracks q ∨ Dispatching env s q (passCalls task.status)) :
    Effect.wp (exec (TaskScheduler.makeRunning task)) env
      (fun _ t => HeldBut parent q t ∧ t.subTasks = s.subTasks ∧
        (t.Tracks q ∨ Dispatching env t q 1)) (Held parent) s := by
  obtain ⟨x, hx, hxid, hstatus⟩ := hmem
  unfold TaskScheduler.makeRunning
  split
  · next hqueuing =>
    have hready := hready (.inl hqueuing)
    rw [passCalls, if_pos hqueuing] at hready
    let run : Task := { task with status := .running }
    let saved : Task := { run with updateTime := env.now }
    have hold : ∃ x ∈ s.tasks, x.id = run.id := ⟨x, hx, hxid.trans hid.symm⟩
    have hu : HeldBut parent q (s.putTask saved) := h.putTask (.inr ⟨rfl, fun hne => hne hid⟩)
    rw [exec_bind, Effect.wp_bind]
    refine wp_updateTask hold ?_
    change Effect.wp (exec (op saveChanged)) env _ _ (s.putTask saved)
    refine wp_callOnce _ _ (fun _ => ?_) fun hfails => ?_
    · have hout : outstanding ((s.putTask saved).trace ++ []) = outstanding s.trace := by
        rw [List.append_nil]
        rfl
      exact ⟨hu.of_same rfl rfl rfl hout, rfl,
        hready.imp (fun ht => ht.of_eq rfl hout) fun hd => hd.next rfl rfl rfl rfl⟩
    · have ht : s.Tracks q := hready.resolve_right fun hd => hd.clear ⟨0, Nat.two_pos, hfails⟩
      exact (HeldOn.tracked hu (ht.of_eq rfl rfl)).of_same rfl rfl rfl rfl
  · next hnot =>
    split
    · next hrunning =>
      have hready := hready (.inr hrunning)
      rw [passCalls, if_neg hnot] at hready
      exact ⟨h, rfl, hready⟩
    · next hneither =>
      refine HeldOn.full h fun ⟨y, hy, hyid, hrun⟩ => absurd ?_ hneither
      rw [← hstatus, ← hrun, Rows.eq_of_key h.distinct.keyed hx hy (hxid.trans hyid.symm)]

theorem wp_scheduleTask (h : HeldBut parent q s)
    (hready : ∀ x, Rows.find Task.id q s.tasks = some x → x.status = .queuing ∨ x.status = .running →
      s.Tracks q ∨ Dispatching env s q (passCalls x.status)) :
    Effect.wp (exec (TaskScheduler.scheduleNextTaskById q)) env (fun _ => Held parent)
      (Held parent) s := by
  rw [TaskScheduler.scheduleNextTaskById, exec_bind, Effect.wp_bind]
  have hgone (hnone : Rows.find Task.id q s.tasks = none) : Held parent s := by
    refine HeldOn.full h ?_
    rintro ⟨y, hy, hid, -⟩
    exact absurd hid (Rows.find_eq_none_iff.mp hnone y hy)
  refine wp_findTask (fun x hx => ?_) hgone
  let task : Task := { x with body := s.rowsOf q }
  have hxid : x.id = q := Rows.key_of_find hx
  have hid : task.id = q := hxid
  have hrun : Effect.wp (exec (TaskScheduler.makeRunning task)) env
      (fun _ t => HeldBut parent q t ∧ t.subTasks = s.subTasks ∧
        (t.Tracks q ∨ Dispatching env t q 1)) (Held parent) s :=
    wp_makeRunning h hid ⟨x, List.mem_of_find?_eq_some hx, hid, rfl⟩ (hready x hx)
  rw [exec_bind, Effect.wp_bind]
  refine Effect.wp_mono hrun ?_ fun _ h => h
  rintro _ t ⟨ht, hsubTasks, hnext⟩
  have hbody : task.body = t.rowsOf q := by rw [State.rowsOf, hsubTasks]; rfl
  exact wp_announce ht hbody hnext

theorem wp_scheduleNext (h : Held parent s)
    (hready : ∀ x ∈ s.tasks.find? fun x => x.status = .queuing,
      s.Tracks x.id ∨ Dispatching env s x.id 2) :
    Effect.wp (exec TaskScheduler.scheduleNextTask) env (fun _ => Held parent) (Held parent) s := by
  simp only [TaskScheduler.scheduleNextTask, op, exec_bind, exec_atom, Effect.wp_bind,
    Tasks.getNextQueuingId, Effect.wp_get, Effect.wp_pure]
  cases hx : s.tasks.find? fun x => x.status = .queuing with
  | none => exact h
  | some x =>
    have hqueuing : x.status = .queuing := by simpa using List.find?_some hx
    refine wp_scheduleTask (HeldOn.but h x.id) fun y hy _ => ?_
    have hyx : y = x := Rows.eq_of_key h.distinct.keyed (List.mem_of_find?_eq_some hy)
      (List.mem_of_find?_eq_some hx) (Rows.key_of_find hy)
    rw [hyx, passCalls, if_pos hqueuing]
    exact hready x hx

end Pass

end Kuintessence.Agent

import Kuintessence.Agent.Scheduling

namespace Kuintessence.Agent

open Prog

def State.refreshable (s : State) : List SubTask :=
  s.subTasks.filter fun x => x.jobId ≠ "" ∧ x.status = .running

-- The sub-task is taken by the scheduler or its job is submitted.
def Event.Restarts (x : Uuid) : Event → Bool
  | .started y _ => y = x
  | .submitJob info => info.id = x
  | _ => false

structure Resumes (x : SubTask) (s t : State) : Prop where
  visible : ∃ r ∈ t.refreshable, r.id = x.id ∧ r.jobId = x.jobId
  once : ∀ e ∈ t.trace.drop s.trace.length, e.Restarts x.id = false

def Operation.isPauseOrContinue : Operation → Bool
  | .message m => m.command = .pause ∨ m.command = .continue
  | _ => false

def Operation.pauses : Operation → Option Uuid
  | .message m => if m.command = .pause then some m.id else none
  | _ => none

-- The pause of its task comes to the sub-task and its job is told.
structure Reaches (x : SubTask) (s : State) (turn : Turn) : Prop where
  pauses : turn.operation.pauses = some x.parentId
  schedulable : s.isSchedulable x.parentId = true
  counted : s.isRunning x.parentId = true → 0 < s.tasksCount
  clear : ¬Blocked turn.env s
    (pauseCalls ((s.rowsOf x.parentId).takeWhile fun r => r.id ≠ x.id) + 1)

-- As the sub-task was in `s`, with nothing started or submitted for it since.
structure Visible (s : State) (x : SubTask) (t : State) : Prop where
  nodup : (t.subTasks.map SubTask.id).Nodup
  row : x ∈ t.subTasks
  history : ∃ es, t.trace = s.trace ++ es ∧ ∀ e ∈ es, e.Restarts x.id = false

section Visible

variable {s t u : State} {x : SubTask} {q id : Uuid}

theorem Visible.of_eq (h : Visible s x t) (hsubTasks : u.subTasks = t.subTasks) {es : List Event}
    (htrace : u.trace = t.trace ++ es) (hes : ∀ e ∈ es, e.Restarts x.id = false) :
    Visible s x u := by
  obtain ⟨es', htrace', hes'⟩ := h.history
  refine ⟨hsubTasks ▸ h.nodup, hsubTasks ▸ h.row, es' ++ es, ?_, fun e he => ?_⟩
  · rw [htrace, htrace', List.append_assoc]
  · exact (List.mem_append.mp he).elim (hes' e) (hes e)

theorem Visible.note (h : Visible s x t) (hsubTasks : u.subTasks = t.subTasks) {e : Event}
    (htrace : u.trace = t.trace ++ [e]) (he : e.Restarts x.id = false) : Visible s x u :=
  h.of_eq hsubTasks htrace (by simpa using he)

theorem Visible.same (h : Visible s x t) (hsubTasks : u.subTasks = t.subTasks)
    (htrace : u.trace = t.trace) : Visible s x u :=
  h.of_eq hsubTasks (htrace.trans (List.append_nil _).symm) (by simp)

theorem Visible.putSubTask (h : Visible s x t) {row : SubTask} (hne : row.id ≠ x.id) :
    Visible s x (t.putSubTask row) :=
  ⟨Rows.nodup_put h.nodup row, (Rows.mem_put h.nodup).mpr (.inl ⟨h.row, hne.symm⟩), h.history⟩

theorem Visible.dropSubTask (h : Visible s x t) (hne : id ≠ x.id) :
    Visible s x (t.dropSubTask id) := by
  refine ⟨h.nodup.sublist (List.eraseP_sublist.map _), ?_, h.history⟩
  change x ∈ t.subTasks.eraseP fun y => y.id = id
  rw [Rows.erase_eq_filter h.nodup]
  exact List.mem_filter.mpr ⟨h.row, by simpa using hne.symm⟩

theorem Visible.foreign (h : Visible s x t) {r : SubTask} (hr : r ∈ t.subTasks)
    (hne : r.parentId ≠ x.parentId) : r.id ≠ x.id := fun hid =>
  hne (congrArg SubTask.parentId (Rows.eq_of_key h.nodup hr h.row hid))

theorem lenient_visible (s : State) (x : SubTask) : Lenient (Visible s x) where
  nothing := fun _ _ h => h.of_eq rfl rfl (by simp)
  events := fun e he _ _ h => h.note rfl rfl (by cases e <;> first | rfl | cases he)
  counts := fun _ _ e he h => h.note rfl rfl (by cases e <;> first | rfl | cases he)
  reports := fun _ _ _ _ _ _ h => h.note rfl rfl rfl

theorem free_visible (hne : id ≠ x.id) : Free (Visible s x) id where
  rows := by
    rintro row row' ⟨u, -, -, rfl⟩ hsame t ht -
    exact ht.putSubTask (hsame.id ▸ hne)
  events := by
    intro e he t n ht
    refine ht.note rfl rfl ?_
    cases e with
    | submitJob info =>
      have hinfo : info.id = id := by simpa [Event.about] using he
      simpa [Event.Restarts, hinfo] using hne
    | started => cases he
    | _ => rfl
  files := fun _ _ _ _ _ _ _ _ ht _ => ht.same rfl rfl

theorem write_visible (t : State) (task : Task) (h : Visible s x t) : Visible s x (t.putTask task) :=
  h.same rfl rfl

theorem governs_visible (hq : q ≠ x.parentId) : Governs (Visible s x) q where
  write := fun t task _ h => write_visible t task h
  erase := fun _ h => h.same rfl rfl
  free := fun _ _ ht hr hparent => free_visible (ht.foreign hr (hparent ▸ hq))
  erasable := fun _ _ ht hr hparent _ hu => hu.dropSubTask (ht.foreign hr (hparent ▸ hq))
  starts := fun _ _ ht hr hparent _ hu => hu.note rfl rfl <| by
    simpa [Event.Restarts] using ht.foreign hr (hparent ▸ hq)

variable (hrunning : x.status = .running)

include hrunning

-- The scheduler leaves the sub-task's task alone since it is busy.
theorem scheduleById_visible (q : Uuid) :
    Upholds (Visible s x) (TaskScheduler.scheduleNextTaskById q) fun _ => True := by
  have hlenient := lenient_visible s x
  by_cases hq : q = x.parentId
  · subst hq
    refine upholds_getTask.bind fun task htask => ?_
    obtain ⟨hid, t, ht, hbody⟩ := htask
    refine (hlenient.makeRunning hid fun u task _ hu => write_visible u task hu).bind fun _ _ =>
      (hlenient.report _ _ _).bind fun _ _ => ?_
    refine Upholds.ite (fun _ => upholds_pure trivial) fun hidle => absurd ?_ hidle
    refine List.any_eq_true.mpr ⟨x, ?_, by simp [SubTask.isBusy, hrunning]⟩
    rw [hbody]
    exact List.mem_filter.mpr ⟨ht.row, decide_eq_true rfl⟩
  · exact hlenient.scheduleNextTaskById (governs_visible hq)

theorem scheduleNext_visible :
    Upholds (Visible s x) TaskScheduler.scheduleNextTask fun _ => True :=
  upholds_scheduleNextTask fun _ q _ _ => scheduleById_visible hrunning q

theorem continue_visible (q : Uuid) :
    Upholds (Visible s x) (TaskScheduler.continueTask q) fun _ => True :=
  Lenient.continueTask (lenient_visible s x) (fun t task _ h => write_visible t task h)
    (scheduleById_visible hrunning q)

theorem pauseOther_visible (hq : q ≠ x.parentId) :
    Upholds (Visible s x) (TaskScheduler.pauseTask q) fun _ => True :=
  Lenient.pauseTask (lenient_visible s x) (scheduleNext_visible hrunning) (governs_visible hq)

end Visible

section Blocked

variable {s t : State} {x : SubTask} {env : Env}

theorem split_before {rows : List SubTask} (hx : x ∈ rows) (hrows : (rows.map SubTask.id).Nodup) :
    ∃ pre post, rows = pre ++ x :: post ∧ (∀ r ∈ pre, r.id ≠ x.id) ∧
      rows.takeWhile (fun r => r.id ≠ x.id) = pre := by
  obtain ⟨pre, post, rfl⟩ := List.append_of_mem hx
  rw [List.map_append, List.nodup_append] at hrows
  have hne : ∀ r ∈ pre, r.id ≠ x.id := fun r hr =>
    hrows.2.2 r.id (List.mem_map_of_mem hr) x.id (by simp)
  refine ⟨pre, post, rfl, hne, ?_⟩
  rw [List.takeWhile_append_of_pos fun r hr => decide_eq_true (hne r hr),
    List.takeWhile_cons_of_neg (by simp), List.append_nil]

theorem mem_parked {pre rows : List SubTask} (hx : x ∈ rows) (hpre : ∀ r ∈ pre, r.id ≠ x.id) :
    x ∈ parked pre rows := by
  refine List.mem_append_left _ (List.mem_filter.mpr ⟨hx, decide_eq_true fun hmem => ?_⟩)
  obtain ⟨r, hr, hid⟩ := List.mem_map.mp hmem
  exact hpre r (List.mem_of_mem_filter hr) hid

def History (s : State) (x : Uuid) (t : State) : Prop :=
  ∃ es, t.trace = s.trace ++ es ∧ ∀ e ∈ es, e.Restarts x = false

theorem pauseSubTasks_history (body : List SubTask) :
    Upholds (History s x.id) (TaskScheduler.pauseSubTasks body) fun _ => True := by
  have hnote {e : Event} (he : e.Restarts x.id = false) : Emits (History s x.id) [e] := by
    rintro t n ⟨es, htrace, hes⟩
    refine ⟨es ++ [e], ?_, fun y hy => ?_⟩
    · rw [← List.append_assoc, ← htrace]
    · exact (List.mem_append.mp hy).elim (hes y) fun h => List.mem_singleton.mp h ▸ he
  have hplain : Plain (History s x.id) :=
    { nothing := fun t _ ⟨es, htrace, hes⟩ => ⟨es, by rw [← htrace, List.append_nil], hes⟩
      events := fun e he => hnote (by cases e <;> first | rfl | cases he) }
  exact upholds_pauseRows hplain fun _ _ => ⟨hnote rfl, fun _ _ _ h _ => h, hnote rfl⟩

theorem wp_pauseBlocked (ht : Visible s x t)
    (htype : TaskDisplayType.from x.taskType = .usecaseExecution) (hjob : x.jobId ≠ "")
    (hblocked : Blocked env t
      (pauseCalls ((t.rowsOf x.parentId).takeWhile fun r => r.id ≠ x.id) + 1)) :
    Effect.wp (exec (TaskScheduler.pauseSubTasks (t.rowsOf x.parentId))) env
      (fun _ _ => False) (Visible s x) t := by
  have hmem : x ∈ t.rowsOf x.parentId := mem_rowsOf.mpr ⟨ht.row, rfl⟩
  have hrows : ((t.rowsOf x.parentId).map SubTask.id).Nodup :=
    ht.nodup.sublist (List.filter_sublist.map _)
  obtain ⟨pre, post, hsplit, hne, hpre⟩ := split_before hmem hrows
  rw [hpre] at hblocked
  have hsub : pre.Sublist t.subTasks := by
    have hleft : pre.Sublist (t.rowsOf x.parentId) := hsplit ▸ List.sublist_append_left _ _
    exact hleft.trans List.filter_sublist
  have hparked (pre' : List SubTask) (hpre' : pre' <+: pre) : x ∈ parked pre' t.subTasks :=
    mem_parked ht.row fun r hr => hne r (hpre'.subset hr)
  have hnodup (pre' : List SubTask) (hpre' : pre' <+: pre) :
      ((parked pre' t.subTasks).map SubTask.id).Nodup :=
    nodup_parked ht.nodup (ht.nodup.sublist ((hpre'.sublist.trans hsub).map _))
  have hwalk : Effect.wp (exec (TaskScheduler.pauseSubTasks pre)) env
      (fun _ => Passed env t (parked pre t.subTasks) (pauseCalls pre))
      (fun u => Blocked env t (pauseCalls pre) ∧
        ∃ pre', pre' <+: pre ∧ Like t (parked pre' t.subTasks) u) t :=
    wp_pauseSubTasks ht.nodup hsub
  have hpause := Effect.wp_and hwalk ((pauseSubTasks_history pre).preserves env t ht.history)
  rw [hsplit, TaskScheduler.pauseSubTasks, exec_each, Effect.each_append, Effect.wp_bind]
  rw [TaskScheduler.pauseSubTasks, exec_each] at hpause
  refine Effect.wp_mono hpause ?_ ?_
  · rintro _ u ⟨hpassed, hhistory, -⟩
    have hu : Visible s x u := ⟨hpassed.subTasks ▸ hnodup pre (List.prefix_refl _),
      hpassed.subTasks ▸ hparked pre (List.prefix_refl _), hhistory⟩
    rw [Effect.each, htype, Effect.wp_bind]
    change Effect.wp (exec (TaskScheduler.noteLeft (.paused [x.id]) >>= fun _ =>
      RunJob.pauseSubTask x.id)) env _ _ u
    rw [exec_bind, Effect.wp_bind]
    let v : State := { u with trace := u.trace ++ [.paused [x.id]] }
    have hv : Visible s x v := hu.note rfl rfl rfl
    change Effect.wp (exec (RunJob.pauseSubTask x.id)) env _ _ v
    rw [RunJob.pauseSubTask, exec_bind, Effect.wp_bind]
    refine wp_getRow (fun row hrow => ?_) fun _ => hv
    rw [show Rows.find SubTask.id x.id v.subTasks = some x from Rows.find_of_mem hv.nodup hv.row,
      Option.some_inj] at hrow
    rw [← hrow, Prog.when, if_pos hjob, exec_bind, Effect.wp_bind]
    refine wp_callOnce _ _ (fun hfine => ?_) fun _ => hv.same rfl rfl
    obtain hearly | hlast := blocked_succ.mp hblocked
    · exact absurd hearly hpassed.clear
    · rw [← hpassed.calls, hfine] at hlast
      cases hlast
  · rintro u ⟨⟨-, pre', hpre', hlike⟩, hhistory⟩
    exact ⟨hlike.subTasks ▸ hnodup pre' hpre', hlike.subTasks ▸ hparked pre' hpre', hhistory⟩

theorem pause_visible (ht : Visible s x t)
    (htype : TaskDisplayType.from x.taskType = .usecaseExecution) (hjob : x.jobId ≠ "")
    (hblocked : t.isSchedulable x.parentId = true →
      (t.isRunning x.parentId = true → 0 < t.tasksCount) →
      Blocked env t (pauseCalls ((t.rowsOf x.parentId).takeWhile fun r => r.id ≠ x.id) + 1)) :
    Effect.wp (exec (TaskScheduler.pauseTask x.parentId)) env (fun _ => Visible s x) (Visible s x)
      t := by
  rw [TaskScheduler.pauseTask, exec_bind, Effect.wp_bind]
  refine wp_findTask (fun y hy => ?_) fun _ => ht
  split
  · next hqueuing =>
    have hsched := isSchedulable_of_status hy rfl (.inl hqueuing)
    have hnot : t.isRunning x.parentId = true → 0 < t.tasksCount := by
      intro hrun
      rw [State.isRunning, hy, Option.any_some, hqueuing] at hrun
      cases hrun
    rw [exec_bind, Effect.wp_bind]
    exact Effect.wp_mono (wp_pauseBlocked ht htype hjob (hblocked hsched hnot))
      (fun _ _ h => h.elim) fun _ h => h
  · next hrunning =>
    have hsched := isSchedulable_of_status hy rfl (.inr hrunning)
    rw [exec_bind, Effect.wp_bind]
    refine wp_releaseTasksCount (fun hpos => ?_) ht
    let w : State := { t with
      tasksCount := t.tasksCount - 1
      trace := t.trace ++ [.paused ((t.rowsOf x.parentId).map SubTask.id)] }
    have hw : Visible s x w := ht.note rfl rfl rfl
    change Effect.wp (exec (TaskScheduler.pauseSubTasks (w.rowsOf x.parentId) >>= _)) env _ _ w
    rw [exec_bind, Effect.wp_bind]
    exact Effect.wp_mono (wp_pauseBlocked hw htype hjob (hblocked hsched fun _ => hpos))
      (fun _ _ h => h.elim) fun _ h => h
  · exact ht

theorem step_visible (ht : Visible s x t)
    (htype : TaskDisplayType.from x.taskType = .usecaseExecution) (hjob : x.jobId ≠ "")
    (hrunning : x.status = .running) {turn : Turn}
    (hturn : turn.operation.isPauseOrContinue = true) (hnot : ¬Reaches x t turn) :
    Visible s x (step t turn) := by
  obtain ⟨env, operation⟩ := turn
  cases operation with
  | message message =>
    refine Effect.wp_final.mp ?_
    change Effect.wp (exec (KafkaMessageQueue.receive message)) env _ _ t
    simp only [Operation.isPauseOrContinue, decide_eq_true_eq] at hturn
    obtain hcommand | hcommand := hturn
    · rw [KafkaMessageQueue.receive, hcommand]
      change Effect.wp (exec (TaskScheduler.pauseTask message.id)) env _ _ t
      by_cases hid : message.id = x.parentId
      · rw [hid]
        refine pause_visible ht htype hjob fun hsched hcount => ?_
        by_contra hclear
        refine hnot ⟨?_, hsched, hcount, hclear⟩
        simp [Operation.pauses, hcommand, hid]
      · exact Effect.wp_mono ((pauseOther_visible hrunning hid).preserves env t ht)
          (fun _ _ hu => hu.1) fun _ hu => hu
    · rw [KafkaMessageQueue.receive, hcommand]
      exact Effect.wp_mono ((continue_visible hrunning message.id).preserves env t ht)
        (fun _ _ hu => hu.1) fun _ hu => hu
  | _ => cases hturn

end Blocked

theorem Visible.resumes {s t : State} {x : SubTask} (h : Visible s x t) (hjob : x.jobId ≠ "")
    (hrunning : x.status = .running) : Resumes x s t := by
  refine ⟨⟨x, List.mem_filter.mpr ⟨h.row, by simp [hjob, hrunning]⟩, rfl, rfl⟩, ?_⟩
  obtain ⟨es, htrace, hes⟩ := h.history
  rw [htrace, List.drop_left]
  exact hes

instance (x : SubTask) (s t : State) : Decidable (Resumes x s t) :=
  decidable_of_iff ((∃ r ∈ t.refreshable, r.id = x.id ∧ r.jobId = x.jobId) ∧
      ∀ e ∈ t.trace.drop s.trace.length, e.Restarts x.id = false)
    ⟨fun ⟨h₁, h₂⟩ => ⟨h₁, h₂⟩, fun ⟨h₁, h₂⟩ => ⟨h₁, h₂⟩⟩

instance (x : SubTask) (s : State) (turn : Turn) : Decidable (Reaches x s turn) :=
  decidable_of_iff (turn.operation.pauses = some x.parentId ∧
      s.isSchedulable x.parentId = true ∧
      (s.isRunning x.parentId = true → 0 < s.tasksCount) ∧
      ¬Blocked turn.env s
        (pauseCalls ((s.rowsOf x.parentId).takeWhile fun r => r.id ≠ x.id) + 1))
    ⟨fun ⟨h₁, h₂, h₃, h₄⟩ => ⟨h₁, h₂, h₃, h₄⟩, fun ⟨h₁, h₂, h₃, h₄⟩ => ⟨h₁, h₂, h₃, h₄⟩⟩

def downEnv : Env := { sampleEnv with fails := fun _ => some "The scheduler is unreachable." }

end Kuintessence.Agent

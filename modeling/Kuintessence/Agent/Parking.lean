import Kuintessence.Agent.Ordering

namespace Kuintessence.Agent

open Prog

def SubTask.suspend (row : SubTask) : SubTask := { row with status := .suspended }

@[simp] theorem suspend_id (row : SubTask) : row.suspend.id = row.id := rfl

-- The rows after the pausable ones of `body` were suspended and so moved to the end.
def parked (body rows : List SubTask) : List SubTask :=
  (rows.filter fun r => r.id ∉ (body.filter SubTask.isPausable).map SubTask.id) ++
    (body.filter SubTask.isPausable).map SubTask.suspend

structure Like (s : State) (rows : List SubTask) (t : State) : Prop where
  subTasks : t.subTasks = rows
  nextId : t.nextId = s.nextId
  submissions : t.submissions = s.submissions
  starts : t.starts = s.starts
  tasks : t.tasks = s.tasks
  tasksCount : t.tasksCount = s.tasksCount
  maxTasksCount : t.maxTasksCount = s.maxTasksCount

def CallFails (env : Env) : Prop := ∃ n, (env.fails n).isSome = true

-- How many times the outside is called to pause the sub-task.
def SubTask.pauseCalls (row : SubTask) : Nat :=
  match TaskDisplayType.from row.taskType with
  | .softwareDeployment => 1
  | .usecaseExecution => if row.jobId = "" then 1 else 2
  | _ => 0

def pauseCalls (body : List SubTask) : Nat := (body.map SubTask.pauseCalls).sum

-- One of the next `n` calls fails.
def Blocked (env : Env) (s : State) (n : Nat) : Prop :=
  ∃ k < n, (env.fails (s.calls + k)).isSome = true

instance (env : Env) (s : State) (n : Nat) : Decidable (Blocked env s n) :=
  inferInstanceAs (Decidable (∃ k < n, (env.fails (s.calls + k)).isSome = true))

-- After `n` calls of which none failed.
structure Passed (env : Env) (s : State) (rows : List SubTask) (n : Nat) (t : State) : Prop
    extends Like s rows t where
  calls : t.calls = s.calls + n
  clear : ¬Blocked env s n

section Pausing

variable {s t : State} {env : Env} {rows : List SubTask} {n m : Nat}

theorem Blocked.callFails (h : Blocked env s n) : CallFails env := by
  obtain ⟨k, -, hk⟩ := h
  exact ⟨s.calls + k, hk⟩

theorem Blocked.mono (h : Blocked env s n) (hle : n ≤ m) : Blocked env s m := by
  obtain ⟨k, hlt, hk⟩ := h
  exact ⟨k, Nat.lt_of_lt_of_le hlt hle, hk⟩

theorem blocked_succ : Blocked env s (n + 1) ↔
    Blocked env s n ∨ (env.fails (s.calls + n)).isSome = true := by
  constructor
  · rintro ⟨k, hlt, hk⟩
    obtain hlt | rfl := Nat.lt_succ_iff_lt_or_eq.mp hlt
    · exact .inl ⟨k, hlt, hk⟩
    · exact .inr hk
  · rintro (h | h)
    · exact h.mono (Nat.le_succ n)
    · exact ⟨n, Nat.lt_succ_self n, h⟩

theorem pauseCalls_append (body body' : List SubTask) :
    pauseCalls (body ++ body') = pauseCalls body + pauseCalls body' := by
  rw [pauseCalls, List.map_append, List.sum_append]
  rfl

theorem quiet_like (s : State) (rows : List SubTask) : Quiet (Like s rows) where
  files := fun _ _ h => { h with }
  calls := by
    intro t n es h hes
    obtain ⟨hsubs, hstarts⟩ := trace_append (s := t)
      (t := { t with calls := n, trace := t.trace ++ es }) rfl (starts_append_quiet hes)
    exact { h with submissions := hsubs.trans h.submissions, starts := hstarts.trans h.starts }

theorem Passed.refl (s : State) : Passed env s s.subTasks 0 s :=
  ⟨⟨rfl, rfl, rfl, rfl, rfl, rfl, rfl⟩, rfl, fun ⟨_, hlt, _⟩ => Nat.not_lt_zero _ hlt⟩

theorem Passed.send (h : Passed env s rows n t) (event : Event) (hevent : event.isMark = false) :
    Passed env s rows n { t with trace := t.trace ++ [event] } :=
  { toLike := (quiet_like s rows).calls t t.calls [event] h.toLike (by simpa using hevent)
    calls := h.calls
    clear := h.clear }

theorem wp_callPassed {α : Type} (answer : Env → Nat → α) {events : List Event}
    (hevents : ∀ e ∈ events, e.isMark = false) (h : Passed env s rows n t) :
    Effect.wp (exec (op (call answer events))) env (fun _ => Passed env s rows (n + 1))
      (fun u => Blocked env s (n + 1) ∧ Like s rows u) t := by
  have hcall := preserves_call (quiet_like s rows) answer hevents env t h.toLike
  change Effect.wp (call answer events) env _ _ t
  change Effect.wp (call answer events) env _ _ t at hcall
  unfold Effect.wp call at *
  cases hfails : env.fails t.calls with
  | some e =>
    rw [hfails] at hcall
    rw [h.calls] at hfails
    exact ⟨blocked_succ.mpr (.inr (by rw [hfails]; rfl)), hcall⟩
  | none =>
    rw [hfails] at hcall
    rw [h.calls] at hfails
    refine ⟨hcall.1, congrArg (· + 1) h.calls, fun hblocked => ?_⟩
    obtain hblocked | hlast := blocked_succ.mp hblocked
    · exact h.clear hblocked
    · rw [hfails] at hlast
      cases hlast

theorem wp_readLike {x : SubTask} (h : Like s rows t) (hx : Rows.find SubTask.id x.id rows = some x)
    {Q : SubTask → State → Prop} {E : State → Prop} (hQ : Q x t) :
    Effect.wp (exec (op (SubTasks.getById x.id))) env Q E t := by
  change Effect.wp (SubTasks.getById x.id) env Q E t
  simp only [SubTasks.getById, Effect.wp_bind, Effect.wp_get, Effect.wp_lift, h.subTasks, hx]
  exact ⟨fun y hy => by cases hy; exact hQ, fun hnone => absurd rfl (hnone x)⟩

theorem wp_updatePassed {x : SubTask} (h : Passed env s rows n t) (hx : ∃ y ∈ rows, y.id = x.id)
    {E : State → Prop} :
    Effect.wp (exec (op (SubTasks.update x))) env
      (fun _ => Passed env s (Rows.put SubTask.id x rows) n) E t := by
  change Effect.wp (SubTasks.update x) env _ _ t
  have hany : (rows.any fun y => y.id = x.id) = true := by simpa using hx
  simp only [SubTasks.update, Effect.wp_bind, Effect.wp_get, Effect.wp_lift, Effect.wp_modify,
    h.subTasks, Rows.replace, hany, if_true]
  exact ⟨fun y hy => by cases hy; exact { h with subTasks := rfl },
    fun hnone => absurd rfl (hnone _)⟩

theorem mem_of_find {x : SubTask} (hx : Rows.find SubTask.id x.id rows = some x) :
    ∃ y ∈ rows, y.id = x.suspend.id :=
  ⟨x, List.mem_of_find?_eq_some hx, rfl⟩

-- A pause that fails did so in a call, before or after the row was moved.
def HalfPaused (env : Env) (s : State) (rows : List SubTask) (x : SubTask) (n : Nat) (t : State) :
    Prop :=
  Blocked env s n ∧ (Like s rows t ∨ Like s (Rows.put SubTask.id x.suspend rows) t)

theorem wp_pauseDeployment {x : SubTask} (h : Passed env s rows n t)
    (hx : Rows.find SubTask.id x.id rows = some x) :
    Effect.wp (exec (DeploySoftware.pauseSubTask x.id)) env
      (fun _ => Passed env s (Rows.put SubTask.id x.suspend rows) (n + 1))
      (HalfPaused env s rows x (n + 1)) t := by
  rw [DeploySoftware.pauseSubTask, exec_bind, Effect.wp_bind]
  refine wp_readLike h.toLike hx ?_
  rw [exec_bind, Effect.wp_bind]
  have hsend := h.send (.deployment ⟨x.id, .suspended⟩) rfl
  change Effect.wp (exec (op (SubTasks.update x.suspend) >>= fun _ => op saveChanged)) env _ _
    { t with trace := t.trace ++ [.deployment ⟨x.id, .suspended⟩] }
  rw [exec_bind, Effect.wp_bind]
  refine Effect.wp_mono (wp_updatePassed hsend (mem_of_find hx)) (fun _ u hu => ?_) fun _ h => h
  exact Effect.wp_mono (wp_callPassed _ (by simp) hu) (fun _ _ h => h) fun _ h => ⟨h.1, .inr h.2⟩

theorem wp_transferSuspended {x : SubTask} (h : Passed env s rows n t)
    (hx : Rows.find SubTask.id x.id rows = some x) :
    Effect.wp (exec (RunJob.transfer x .suspended .pause)) env
      (fun _ => Passed env s (Rows.put SubTask.id x.suspend rows) (n + 1))
      (HalfPaused env s rows x (n + 1)) t := by
  have hguard : x.status ≠ .completed ∨ x.status ≠ .completing := by
    cases x.status <;> simp
  rw [RunJob.transfer, Prog.when, if_pos hguard, exec_bind, Effect.wp_bind, exec_bind,
    Effect.wp_bind, tryUpdate, exec_bind, Effect.wp_bind, exec_attempt]
  have hupdate : Effect.wp (exec (op (SubTasks.update x.suspend))) env
      (fun _ => Passed env s (Rows.put SubTask.id x.suspend rows) n) (fun _ => False) t :=
    wp_updatePassed h (mem_of_find hx)
  refine Effect.wp_attempt hupdate (fun _ v hv => ?_) (fun _ _ h => h.elim) fun _ h => h.elim
  change Effect.wp (exec (op (TaskFiles.findFilesByTask x.id) >>= fun files => Prog.each
    (fun file => Prog.when (file.fileType = .IN ∧ file.status ≠ .both)
      (send (.download ⟨file.id, 0, .pause, none⟩))) files)) env _ _ v
  rw [exec_bind, Effect.wp_bind]
  change Effect.wp (exec (Prog.each _ (v.taskFiles.filter fun y => y.relatedTaskBody = x.id))) env
    _ _ v
  rw [exec_each]
  refine Effect.wp_mono (Effect.wp_each (E := fun _ => False)
    (fun _ => Passed env s (Rows.put SubTask.id x.suspend rows) n) _ ?_ hv) (fun _ w hw => ?_)
    fun _ h => h.elim
  · rintro pre file post - w hw
    unfold Prog.when
    split
    · exact hw.send _ rfl
    · exact hw
  · exact Effect.wp_mono (wp_callPassed _ (by simp) hw) (fun _ _ h => h) fun _ h => ⟨h.1, .inr h.2⟩

theorem wp_pauseJob {x : SubTask} (h : Passed env s rows n t)
    (hx : Rows.find SubTask.id x.id rows = some x) :
    Effect.wp (exec (RunJob.pauseSubTask x.id)) env
      (fun _ => Passed env s (Rows.put SubTask.id x.suspend rows)
        (n + if x.jobId = "" then 1 else 2))
      (HalfPaused env s rows x (n + if x.jobId = "" then 1 else 2)) t := by
  rw [RunJob.pauseSubTask, exec_bind, Effect.wp_bind]
  refine wp_readLike h.toLike hx ?_
  rw [exec_bind, Effect.wp_bind]
  unfold Prog.when
  by_cases hjob : x.jobId = ""
  · rw [if_neg (by simpa using hjob), if_pos hjob]
    exact wp_transferSuspended h hx
  · rw [if_pos hjob, if_neg hjob]
    refine Effect.wp_mono (wp_callPassed _ (by simp [Event.isMark]) h)
      (fun _ u hu => wp_transferSuspended hu hx) ?_
    rintro u ⟨hblocked, hu⟩
    exact ⟨hblocked.mono (Nat.le_succ _), .inl hu⟩

theorem parked_nil : parked [] rows = rows := by simp [parked]

theorem parked_skip {pre : List SubTask} {x : SubTask} (hx : x.isPausable = false) :
    parked (pre ++ [x]) rows = parked pre rows := by
  rw [parked, parked, List.filter_append, List.filter_cons_of_neg (by simp [hx]), List.filter_nil,
    List.append_nil]

theorem suspend_ids (body : List SubTask) :
    (body.map SubTask.suspend).map SubTask.id = body.map SubTask.id := by
  rw [List.map_map]
  rfl

theorem nodup_parked {pre : List SubTask} (hrows : (rows.map SubTask.id).Nodup)
    (hpre : (pre.map SubTask.id).Nodup) : ((parked pre rows).map SubTask.id).Nodup := by
  rw [parked, List.map_append, suspend_ids, List.nodup_append]
  refine ⟨hrows.sublist (List.filter_sublist.map _), hpre.sublist (List.filter_sublist.map _), ?_⟩
  rintro a ha b hb rfl
  obtain ⟨r, hr, rfl⟩ := List.mem_map.mp ha
  simpa [hb] using (List.mem_filter.mp hr).2

theorem parked_move {pre : List SubTask} {x : SubTask} (hx : x.isPausable = true)
    (hrows : (rows.map SubTask.id).Nodup) (hpre : ((pre ++ [x]).map SubTask.id).Nodup) :
    Rows.put SubTask.id x.suspend (parked pre rows) = parked (pre ++ [x]) rows := by
  have hpre' : (pre.map SubTask.id).Nodup := hpre.sublist ((List.sublist_append_left _ _).map _)
  have hnew : ∀ y ∈ pre, y.id ≠ x.id := by
    intro y hy heq
    rw [List.map_append, List.nodup_append] at hpre
    exact hpre.2.2 y.id (List.mem_map_of_mem hy) x.id (by simp) heq
  have hmoved : ((pre.filter SubTask.isPausable).map SubTask.suspend).filter
      (fun y => y.id ≠ x.suspend.id) = (pre.filter SubTask.isPausable).map SubTask.suspend := by
    refine List.filter_eq_self.mpr fun y hy => ?_
    obtain ⟨z, hz, rfl⟩ := List.mem_map.mp hy
    rw [decide_eq_true_eq]
    exact hnew z (List.mem_of_mem_filter hz)
  rw [Rows.put_eq_filter (nodup_parked hrows hpre'), parked, List.filter_append]
  rw [hmoved, parked, List.filter_append, List.filter_cons_of_pos hx, List.filter_nil,
    List.map_append, List.map_append, List.append_assoc, List.filter_filter]
  refine congrArg₂ (· ++ ·) (List.filter_congr fun r _ => ?_) rfl
  rw [Bool.eq_iff_iff, Bool.and_eq_true, decide_eq_true_eq, decide_eq_true_eq, decide_eq_true_eq,
    List.mem_append, not_or, and_comm, List.map_singleton, List.mem_singleton]
  rfl

theorem find_parked {pre : List SubTask} {x : SubTask} (hmem : x ∈ rows)
    (hrows : (rows.map SubTask.id).Nodup) (hpre : ((pre ++ [x]).map SubTask.id).Nodup) :
    Rows.find SubTask.id x.id (parked pre rows) = some x := by
  have hpre' : (pre.map SubTask.id).Nodup := hpre.sublist ((List.sublist_append_left _ _).map _)
  refine Rows.find_of_mem (nodup_parked hrows hpre')
    (List.mem_append_left _ (List.mem_filter.mpr ⟨hmem, ?_⟩))
  rw [decide_eq_true_eq]
  intro hin
  obtain ⟨y, hy, hid⟩ := List.mem_map.mp hin
  rw [List.map_append, List.nodup_append] at hpre
  exact hpre.2.2 y.id (List.mem_map_of_mem (List.mem_of_mem_filter hy)) x.id (by simp) hid

theorem wp_pauseSubTasks {body : List SubTask} (hnodup : (s.subTasks.map SubTask.id).Nodup)
    (hbody : body.Sublist s.subTasks) :
    Effect.wp (exec (TaskScheduler.pauseSubTasks body)) env
      (fun _ => Passed env s (parked body s.subTasks) (pauseCalls body))
      (fun u => Blocked env s (pauseCalls body) ∧
        ∃ pre, pre <+: body ∧ Like s (parked pre s.subTasks) u) s := by
  rw [TaskScheduler.pauseSubTasks, exec_each]
  refine Effect.wp_each (fun pre => Passed env s (parked pre s.subTasks) (pauseCalls pre)) body ?_
    (by rw [parked_nil]; exact .refl s)
  rintro pre x post rfl u hu
  have hsplit : pre ++ x :: post = (pre ++ [x]) ++ post := List.append_cons pre x post
  have hsub : (pre ++ [x]).Sublist s.subTasks :=
    (hsplit ▸ List.sublist_append_left (pre ++ [x]) post).trans hbody
  have hids : ((pre ++ [x]).map SubTask.id).Nodup := hnodup.sublist (hsub.map _)
  have hfind := find_parked (hsub.subset (by simp)) hnodup hids
  have hnote := hu.send (.paused [x.id]) rfl
  have hcalls : pauseCalls (pre ++ [x]) = pauseCalls pre + x.pauseCalls := pauseCalls_append pre [x]
  have hle : pauseCalls (pre ++ [x]) ≤ pauseCalls (pre ++ x :: post) := by
    rw [hsplit, pauseCalls_append (pre ++ [x])]
    exact Nat.le_add_right _ _
  have hhalf (hx : x.isPausable = true) (v : State)
      (hv : HalfPaused env s (parked pre s.subTasks) x (pauseCalls (pre ++ [x])) v) :
      Blocked env s (pauseCalls (pre ++ x :: post)) ∧
        ∃ pre', pre' <+: pre ++ x :: post ∧ Like s (parked pre' s.subTasks) v := by
    obtain ⟨hblocked, hv | hv⟩ := hv
    · exact ⟨hblocked.mono hle, pre, List.prefix_append _ _, hv⟩
    · rw [parked_move hx hnodup hids] at hv
      exact ⟨hblocked.mono hle, pre ++ [x], hsplit ▸ List.prefix_append _ _, hv⟩
  cases htype : TaskDisplayType.from x.taskType with
  | softwareDeployment =>
    have hx : x.isPausable = true := by simp [SubTask.isPausable, htype]
    have hone : x.pauseCalls = 1 := by rw [SubTask.pauseCalls, htype]
    rw [hone] at hcalls
    rw [← parked_move hx hnodup hids]
    rw [hcalls] at hhalf ⊢
    exact Effect.wp_mono (wp_pauseDeployment hnote hfind) (fun _ _ h => h) (hhalf hx)
  | usecaseExecution =>
    have hx : x.isPausable = true := by simp [SubTask.isPausable, htype]
    have hone : x.pauseCalls = if x.jobId = "" then 1 else 2 := by rw [SubTask.pauseCalls, htype]
    rw [hone] at hcalls
    rw [← parked_move hx hnodup hids]
    rw [hcalls] at hhalf ⊢
    exact Effect.wp_mono (wp_pauseJob hnote hfind) (fun _ _ h => h) (hhalf hx)
  | collectedOut =>
    have hnone : x.pauseCalls = 0 := by rw [SubTask.pauseCalls, htype]
    rw [parked_skip (by simp [SubTask.isPausable, htype]), hcalls, hnone]
    exact hnote
  | unknown =>
    have hnone : x.pauseCalls = 0 := by rw [SubTask.pauseCalls, htype]
    rw [parked_skip (by simp [SubTask.isPausable, htype]), hcalls, hnone]
    exact hu

end Pausing

end Kuintessence.Agent
